import TinyC.Double
import TinyC.Expr
import TinyC.Text.Quoted

/-! Trees of any shape. Programs are among them; others have children that are missing or of the
wrong sort, or operators of the wrong arity. -/

namespace TinyC

inductive Foreign where
  | nothing
  | text (s : String)
  | integer (n : Int)
  | float (d : Double)
  | truth (b : Bool)
  | emptyList
deriving DecidableEq

namespace Foreign

def typeName : Foreign → String
  | nothing => "NoneType"
  | text _ => "str"
  | integer _ => "int"
  | float _ => "float"
  | truth _ => "bool"
  | emptyList => "list"

def describe : Foreign → String
  | nothing => "None"
  | text s => Text.quote s
  | integer n => n.repr
  | float d => d.text
  | truth b => if b then "True" else "False"
  | emptyList => "[]"

/-- The value of a number in units of `2 ^ -Double.places`. Truth values count as numbers. -/
def number? : Foreign → Option Int
  | integer n => some (n * (1 <<< Double.places : Nat))
  | float d => d.value?
  | truth b => some (if b then (1 <<< Double.places : Nat) else 0)
  | _ => none

/-- Numbers are the same by their value, whatever their sort. Infinities have none. -/
def same (v w : Foreign) : Bool :=
  match v.number?, w.number? with
  | some x, some y => x = y
  | _, _ => v = w

end Foreign

/-- A tree, of which `blank` is a node of no particular sort. -/
inductive Tree where
  | foreign (value : Foreign)
  | blank (location : Option Location)
  | literal (location : Option Location) (value : String)
  | unary (location : Option Location) (op : Option Operator) (operand : Tree)
  | binary (location : Option Location) (op : Option Operator) (left right : Tree)
  | ret (location : Option Location) (value : Tree)
  | function (location : Option Location) (name : String) (body : Tree)
deriving DecidableEq

namespace Tree

def typeName : Tree → String
  | foreign v => v.typeName
  | blank _ => "ASTNode"
  | literal _ _ => "IntLiteral"
  | unary _ _ _ => "UnaryOperation"
  | binary _ _ _ _ => "BinaryOperation"
  | ret _ _ => "Return"
  | function _ _ _ => "Function"

def unplaced : Tree → Tree
  | foreign v => foreign v
  | blank _ => blank none
  | literal _ v => literal none v
  | unary _ op x => unary none op x.unplaced
  | binary _ op l r => binary none op l.unplaced r.unplaced
  | ret _ x => ret none x.unplaced
  | function _ name body => function none name body.unplaced

def same : Tree → Tree → Bool
  | foreign v, foreign w => v.same w
  | blank _, blank _ => true
  | literal _ v, literal _ w => v = w
  | unary _ op x, unary _ op' x' => op = op' && x.same x'
  | binary _ op l r, binary _ op' l' r' => op = op' && l.same l' && r.same r'
  | ret _ x, ret _ x' => x.same x'
  | function _ name body, function _ name' body' => name = name' && body.same body'
  | _, _ => false

end Tree

def Expr.toTree : Expr → Tree
  | literal l digits => .literal (some l) digits
  | unary l op x => .unary (some l) (some (.unary op)) x.toTree
  | binary l op x y => .binary (some l) (some (.binary op)) x.toTree y.toTree

def Return.toTree (r : Return) : Tree :=
  .ret (some r.location) r.value.toTree

def Function.toTree (f : Function) : Tree :=
  .function (some f.location) f.name f.body.toTree

end TinyC

import TinyC.Expr
import TinyC.Parse.Reader

/-! Expressions. Operands that wait for their right side are kept per level of parentheses, so one
loop over the tokens reads expressions of any depth. -/

namespace TinyC

structure LeftOperand where
  value : Expr
  op : BinaryOp
  location : Location
deriving DecidableEq

namespace LeftOperand

def join (l : LeftOperand) (right : Expr) : Expr :=
  .binary l.location l.op l.value right

end LeftOperand

structure Sign where
  op : UnaryOp
  location : Location
deriving DecidableEq

namespace Sign

def applyAll (signs : List Sign) (e : Expr) : Expr :=
  signs.foldl (fun e s => .unary s.location s.op e) e

end Sign

/-- The left operands of a level: of a sum, and of a product that is its last term so far. -/
structure Level where
  sum : Option LeftOperand := none
  product : Option LeftOperand := none
deriving DecidableEq

namespace Level

def term (l : Level) (factor : Expr) : Expr :=
  match l.product with
  | some left => left.join factor
  | none => factor

def total (l : Level) (factor : Expr) : Expr :=
  match l.sum with
  | some left => left.join (l.term factor)
  | none => l.term factor

def push (l : Level) (factor : Expr) (op : BinaryOp) (location : Location) : Level :=
  if op.isAdditive then ⟨some ⟨l.total factor, op, location⟩, none⟩
  else ⟨l.sum, some ⟨l.term factor, op, location⟩⟩

end Level

structure Suspended where
  level : Level
  signs : List Sign
deriving DecidableEq

inductive Part where
  | factor
  | term
  | expression
deriving DecidableEq

namespace Part

def allows (p : Part) (op : BinaryOp) : Bool :=
  match p with
  | factor => false
  | term => !op.isAdditive
  | expression => true

end Part

inductive ExprState where
  | before (level : Level) (signs : List Sign) (outer : List Suspended)
  | after (factor : Expr) (level : Level) (outer : List Suspended)
deriving DecidableEq

inductive Move where
  | take (next : ExprState)
  | finish (e : Expr)
  | refuse (c : Complaint)
deriving DecidableEq

namespace ExprState

def start : ExprState :=
  before {} [] []

def outerWeight : List Suspended → Nat
  | [] => 0
  | s :: outer => s.signs.length + 5 + outerWeight outer

/-- How deep the reading is nested: a waiting sign counts one, an open parenthesis five. -/
def weight : ExprState → Nat
  | before _ signs outer => signs.length + outerWeight outer
  | after _ _ outer => outerWeight outer

def moveBefore (level : Level) (signs : List Sign) (outer : List Suspended) (t : Token) : Move :=
  match t.kind with
  | .openParen => .take (before {} [] (⟨level, signs⟩ :: outer))
  | .operator =>
    match UnaryOp.ofSymbol? t.text with
    | some op => .take (before level (⟨op, t.location⟩ :: signs) outer)
    | none => .refuse (.noExpression t.lexeme)
  | .intLiteral =>
    if '.' ∈ t.text.toList then .refuse (.fraction t.text)
    else .take (after (Sign.applyAll signs (.literal t.location t.text)) level outer)
  | _ => .refuse (.noExpression t.lexeme)

def binaryOp? (p : Part) (t : Token) : Option BinaryOp :=
  if t.kind = .operator then (BinaryOp.ofSymbol? t.text).filter p.allows else none

def moveAfter (p : Part) (factor : Expr) (level : Level) : List Suspended → Token → Move
  | [], t =>
    match binaryOp? p t with
    | some op => .take (before (level.push factor op t.location) [] [])
    | none => .finish (level.total factor)
  | s :: outer, t =>
    match binaryOp? .expression t with
    | some op => .take (before (level.push factor op t.location) [] (s :: outer))
    | none =>
      if t.kind = .closeParen then
        .take (after (Sign.applyAll s.signs (level.total factor)) s.level outer)
      else .refuse (.expected .closeParen t.lexeme)

def move (p : Part) (s : ExprState) (t : Token) : Move :=
  match s with
  | before level signs outer => moveBefore level signs outer t
  | after factor level outer => moveAfter p factor level outer t

theorem kind_of_take {p : Part} {s u : ExprState} {t : Token} (h : s.move p t = .take u) :
    t.kind ≠ .eof := by
  intro ht
  cases s with
  | before level signs outer => simp [move, moveBefore, ht] at h
  | after factor level outer =>
    cases outer <;> simp [move, moveAfter, binaryOp?, ht] at h

end ExprState

namespace Parse

def resume (p : Part) (s : ExprState) : Parse Expr := fun r =>
  match _hm : s.move p r.lookahead with
  | .finish e => .ok e r
  | .refuse c => complain c r.lookahead r
  | .take u =>
    match _ha : advance r with
    | .error f q => .error f q
    | .ok _ q => if q.limit < u.weight then tooDeep q else resume p u q
termination_by r => r.remaining
decreasing_by exact Reader.remaining_advance (ExprState.kind_of_take _hm) _ha

def part (p : Part) : Parse Expr :=
  resume p .start

end Parse

end TinyC

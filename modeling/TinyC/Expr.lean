import TinyC.Location
import TinyC.Operator

namespace TinyC

/-- An operation is located at its operator. -/
inductive Expr where
  | literal (location : Location) (digits : String)
  | unary (location : Location) (op : UnaryOp) (operand : Expr)
  | binary (location : Location) (op : BinaryOp) (left right : Expr)
deriving DecidableEq

/-- How deep the emission of an expression nests: two for a unary operation, three for a binary
one. -/
def Expr.emissionWeight : Expr → Nat
  | literal _ _ => 0
  | unary _ _ x => x.emissionWeight + 2
  | binary _ _ x y => max x.emissionWeight y.emissionWeight + 3

structure Return where
  location : Location
  value : Expr
deriving DecidableEq

structure Function where
  location : Location
  name : String
  body : Return
deriving DecidableEq

end TinyC

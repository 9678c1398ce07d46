import Mathlib.Tactic.Common
import TinyC.Expr

namespace TinyC

abbrev Word : Type :=
  BitVec 32

def UnaryOp.value : UnaryOp → Word → Word
  | negate, x => -x
  | complement, x => ~~~x
  | logicalNot, x => if x = 0 then 1 else 0

/-- Division is signed and goes toward zero. It has no value for a zero divisor, nor where the
quotient is no signed word. -/
def BinaryOp.value? : BinaryOp → Word → Word → Option Word
  | add, x, y => some (x + y)
  | subtract, x, y => some (x - y)
  | multiply, x, y => some (x * y)
  | divide, x, y =>
    if y = 0 ∨ (x.toInt = -0x80000000 ∧ y.toInt = -1) then none
    else some (BitVec.ofInt 32 (x.toInt.tdiv y.toInt))

def literalValue (digits : String) : Word :=
  BitVec.ofNat 32 (Nat.ofDigitChars 10 digits.toList 0)

def Expr.value? : Expr → Option Word
  | literal _ digits => some (literalValue digits)
  | unary _ op x => x.value?.map op.value
  | binary _ op x y => x.value?.bind fun v => y.value?.bind fun w => op.value? v w

def Expr.Decimal : Expr → Prop
  | literal _ digits => ∀ c ∈ digits.toList, c.isDigit
  | unary _ _ x => x.Decimal
  | binary _ _ x y => x.Decimal ∧ y.Decimal

end TinyC

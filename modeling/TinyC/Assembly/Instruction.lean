import TinyC.Assembly.Line
import TinyC.Assembly.Target
import TinyC.Operator

/-! The machine instructions in use. An expression leaves its value in the accumulator; the operand
of a binary operation that was evaluated first waits on the stack. -/

namespace TinyC

inductive Instruction where
  | load (value : UInt32)
  | negate
  | complement
  | compareZero
  | setIfZero
  | spill
  | reload
  | add
  | subtract
  | multiply
  | signExtend
  | divide
  | ret
deriving DecidableEq

namespace Instruction

def accumulator : String :=
  "%eax"

def scratch : String :=
  "%ecx"

def line (target : Target) : Instruction → Line
  | load v => .instruction "movl" ["$" ++ v.toNat.repr, accumulator]
  | negate => .instruction "negl" [accumulator]
  | complement => .instruction "notl" [accumulator]
  | compareZero => .instruction "cmpl" ["$0", accumulator]
  | setIfZero => .instruction "sete" ["%al"]
  | spill => .instruction target.push [target.spillRegister]
  | reload => .instruction target.pop [target.reloadRegister]
  | add => .instruction "addl" [scratch, accumulator]
  | subtract => .instruction "subl" [scratch, accumulator]
  | multiply => .instruction "imull" [scratch, accumulator]
  | signExtend => .instruction "cdq" []
  | divide => .instruction "idivl" [scratch]
  | ret => .instruction "ret" []

end Instruction

/-- A unary operation on the accumulator. Loading zero keeps the flag of the comparison. -/
def UnaryOp.code : UnaryOp → List Instruction
  | negate => [.negate]
  | complement => [.complement]
  | logicalNot => [.compareZero, .load 0, .setIfZero]

def BinaryOp.code : BinaryOp → List Instruction
  | add => [.add]
  | subtract => [.subtract]
  | multiply => [.multiply]
  | divide => [.signExtend, .divide]

/-- The left operand is evaluated first, unless it has to end up in the accumulator. -/
def BinaryOp.leftFirst : BinaryOp → Bool
  | add => true
  | subtract => false
  | multiply => true
  | divide => false

end TinyC

namespace TinyC

inductive UnaryOp where
  | negate
  | complement
  | logicalNot
deriving DecidableEq

namespace UnaryOp

def all : List UnaryOp :=
  [negate, complement, logicalNot]

def symbol : UnaryOp → String
  | negate => "-"
  | complement => "~"
  | logicalNot => "!"

def name : UnaryOp → String
  | negate => "NEGATE"
  | complement => "BITWISE_NOT"
  | logicalNot => "LOGICAL_NOT"

def ofSymbol? (s : String) : Option UnaryOp :=
  all.find? (·.symbol = s)

theorem ofSymbol?_symbol (op : UnaryOp) : ofSymbol? op.symbol = some op := by
  cases op <;> decide

end UnaryOp

inductive BinaryOp where
  | add
  | subtract
  | multiply
  | divide
deriving DecidableEq

namespace BinaryOp

def all : List BinaryOp :=
  [add, subtract, multiply, divide]

def symbol : BinaryOp → String
  | add => "+"
  | subtract => "-"
  | multiply => "*"
  | divide => "/"

def name : BinaryOp → String
  | add => "ADD"
  | subtract => "SUBTRACT"
  | multiply => "MULTIPLY"
  | divide => "DIVIDE"

def isAdditive : BinaryOp → Bool
  | add => true
  | subtract => true
  | multiply => false
  | divide => false

def ofSymbol? (s : String) : Option BinaryOp :=
  all.find? (·.symbol = s)

theorem ofSymbol?_symbol (op : BinaryOp) : ofSymbol? op.symbol = some op := by
  cases op <;> decide

end BinaryOp

inductive Operator where
  | unary (op : UnaryOp)
  | binary (op : BinaryOp)
deriving DecidableEq

namespace Operator

def all : List Operator :=
  UnaryOp.all.map unary ++ BinaryOp.all.map binary

def symbol : Operator → String
  | unary op => op.symbol
  | binary op => op.symbol

def name : Operator → String
  | unary op => op.name
  | binary op => op.name

end Operator

end TinyC

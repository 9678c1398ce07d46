import TinyC.Tree

namespace TinyC

def UnaryOp.describe (op : UnaryOp) : String :=
  "<UnaryOperator." ++ op.name ++ ": '" ++ op.symbol ++ "'>"

def BinaryOp.describe (op : BinaryOp) : String :=
  "<BinaryOperator." ++ op.name ++ ": '" ++ op.symbol ++ "'>"

def Operator.describe : Operator → String
  | unary op => op.describe
  | binary op => op.describe

namespace Tree

def describeOperator (op : Option Operator) : String :=
  (op.map Operator.describe).getD "None"

def describe : Tree → String
  | foreign v => v.describe
  | blank _ => "ASTNode()"
  | literal _ v => "IntLiteral(value=" ++ Text.quote v ++ ")"
  | unary _ op x =>
    "UnaryOperation(operator=" ++ describeOperator op ++ ", operand=" ++ x.describe ++ ")"
  | binary _ op l r =>
    "BinaryOperation(operator=" ++ describeOperator op ++ ", left=" ++ l.describe ++
      ", right=" ++ r.describe ++ ")"
  | ret _ x => "Return(expression=" ++ x.describe ++ ")"
  | function _ name body =>
    "Function(name=" ++ Text.quote name ++ ", body=" ++ body.describe ++ ")"

end Tree

end TinyC

import TinyC.Parse.Program

namespace TinyC

inductive ParseRequest where
  | lookahead
  | advance
  | check (kind : Kind) (texts : Option (List String))
  | expect (kind : Kind)
  | keyword (word : String)
  | sourceLine (n : Int)
  | program
  | function
  | statement
  | part (p : Part)
deriving DecidableEq

inductive ParseReply where
  | description (s : String)
  | token (t : Token)
  | truth (b : Bool)
  | line (s : Option String)
  | function (f : Function)
  | statement (s : Return)
  | expr (e : Expr)
deriving DecidableEq

namespace ParseRequest

def perform : ParseRequest → Parse ParseReply
  | lookahead => return .description (← get).lookahead.lexeme.describe
  | advance => .token <$> Parse.advance
  | check kind texts => return .truth ((← get).check kind texts)
  | expect kind => .token <$> Parse.expect kind
  | keyword word => .token <$> Parse.keyword word
  | sourceLine n => return .line ((← get).sourceLine? n)
  | program => .function <$> Parse.program
  | function => .function <$> Parse.function
  | statement => .statement <$> Parse.statement
  | part p => .expr <$> Parse.part p

end ParseRequest

end TinyC

import TinyC.Location
import TinyC.Text.Quoted

namespace TinyC

inductive Kind where
  | keyword
  | identifier
  | openParen
  | closeParen
  | openBrace
  | closeBrace
  | semicolon
  | assign
  | intLiteral
  | charLiteral
  | stringLiteral
  | operator
  | eof
deriving DecidableEq

namespace Kind

def all : List Kind :=
  [keyword, identifier, openParen, closeParen, openBrace, closeBrace, semicolon, assign, intLiteral,
    charLiteral, stringLiteral, operator, eof]

def name : Kind → String
  | keyword => "KEYWORD"
  | identifier => "IDENTIFIER"
  | openParen => "OPEN_PAREN"
  | closeParen => "CLOSE_PAREN"
  | openBrace => "OPEN_BRACE"
  | closeBrace => "CLOSE_BRACE"
  | semicolon => "SEMICOLON"
  | assign => "ASSIGN"
  | intLiteral => "INT_LITERAL"
  | charLiteral => "CHAR_LITERAL"
  | stringLiteral => "STRING_LITERAL"
  | operator => "OPERATOR"
  | eof => "EOF"

theorem mem_all (k : Kind) : k ∈ all := by
  cases k <;> decide

end Kind

structure Lexeme where
  kind : Kind
  text : String
deriving DecidableEq

namespace Lexeme

def eof : Lexeme :=
  ⟨.eof, ""⟩

def describe (l : Lexeme) : String :=
  if l.kind = .eof then "end of input" else l.kind.name ++ " '" ++ l.text ++ "'"

end Lexeme

structure Token where
  lexeme : Lexeme
  location : Location
deriving DecidableEq

namespace Token

def kind (t : Token) : Kind :=
  t.lexeme.kind

def text (t : Token) : String :=
  t.lexeme.text

def place (t : Token) : String :=
  t.location.line.repr ++ ":" ++ t.location.column.repr

def dump (t : Token) : String :=
  if t.kind = .eof then "Token(" ++ t.kind.name ++ ", " ++ t.place ++ ")"
  else "Token(" ++ t.kind.name ++ ", " ++ Text.quote t.text ++ ", " ++ t.place ++ ")"

end Token

end TinyC

import TinyC.Location

namespace TinyC

inductive Stage where
  | general
  | lexical
  | syntactic
  | generation
deriving DecidableEq

namespace Stage

def all : List Stage :=
  [general, lexical, syntactic, generation]

def errorName : Stage → String
  | general => "CompileError"
  | lexical => "CLexicalError"
  | syntactic => "CSyntaxError"
  | generation => "CCodeGenError"

def label : Stage → String
  | general => "syntax"
  | lexical => "lexical"
  | syntactic => "syntax"
  | generation => "codegen"

end Stage

structure Diagnostic where
  stage : Stage
  message : String
  location : Option Location := none
  hint : Option String := none
  sourceLine : Option String := none
deriving DecidableEq

namespace Diagnostic

def line (d : Diagnostic) : Int :=
  (d.location.map Location.line).getD 0

def column (d : Diagnostic) : Int :=
  (d.location.map Location.column).getD 0

def text (d : Diagnostic) : String :=
  match d.location with
  | some l => "Line " ++ l.line.repr ++ ", col " ++ l.column.repr ++ ": " ++ d.message
  | none => d.message

def headline (d : Diagnostic) : String :=
  match d.location with
  | some l => l.text ++ ": error: " ++ d.message
  | none => "error: " ++ d.message

def caret (column : Int) : String :=
  String.ofList (List.replicate (3 + column.toNat) ' ' ++ ['^'])

def excerpt (d : Diagnostic) : List String :=
  match d.sourceLine, d.location with
  | some s, some l => ("    " ++ s) :: if 0 < l.column then [caret l.column] else []
  | _, _ => []

def hintLine (d : Diagnostic) : List String :=
  match d.hint with
  | some h => if h = "" then [] else ["hint: " ++ h]
  | none => []

def reportLines (d : Diagnostic) : List String :=
  d.headline :: d.excerpt ++ d.hintLine

def report (d : Diagnostic) : String :=
  "\n".intercalate d.reportLines

end Diagnostic

end TinyC

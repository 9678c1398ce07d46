import TinyC.Tree.Visit

namespace TinyC

structure Printer where
  output : List String := []
  indentLevel : Nat := 0
deriving DecidableEq

namespace Printer

def emit (text : String) : Visiting Printer Unit :=
  modify fun p => { p with output := p.output ++ [Tree.indented p.indentLevel text] }

def nested (text : String) (below : Visiting Printer Unit) : Visiting Printer Unit := do
  emit text
  modify fun p => { p with indentLevel := p.indentLevel + 1 }
  below
  modify fun p => { p with indentLevel := p.indentLevel - 1 }

def visitor : Visitor Printer Unit where
  handler?
    | .function _ name _ => some (nested ("Function: " ++ name))
    | .ret _ _ => some (nested "Return")
    | .binary _ op _ _ => some fun below => do
      nested ("Binary " ++ (← MonadExcept.ofExcept (Tree.symbolOf op))) below
    | .unary _ op _ => some fun below => do
      nested ("Unary " ++ (← MonadExcept.ofExcept (Tree.symbolOf op))) below
    | .literal _ v => some fun _ => emit ("Int " ++ v)
    | _ => none

/-- A failed print leaves behind what it has printed so far and how far in it was, so each print
starts by putting these back. -/
def print (t : Tree) : Visiting Printer String := do
  modify fun p => { p with output := [] }
  modify fun p => { p with indentLevel := 0 }
  let _ ← visitor.visit t
  return "\n".intercalate (← get).output

def answer (p : Printer) (t : Tree) : Except TreeFault String × Printer :=
  match print t p with
  | .ok text q => (.ok text, q)
  | .error f q => (.error f, q)

def printAll (p : Printer) : List Tree → List (Except TreeFault String)
  | [] => []
  | t :: ts => (p.answer t).1 :: printAll (p.answer t).2 ts

end Printer

end TinyC

import TinyC.Assembly.Emit

namespace TinyC

/-- Requests to a listing. A node that writes itself, by `plainTree`, uses the default settings, all
else those of the session. -/
inductive EmitRequest where
  | generate (t : Tree)
  | tree (t : Tree)
  | plainTree (t : Tree)
  | line (l : Line)
  | text
deriving DecidableEq

namespace EmitRequest

def perform (s : Settings) : EmitRequest → Emit (Option String)
  | generate t => do
    Emit.tree s t
    return some (← get).text
  | tree t => do
    Emit.tree s t
    return none
  | plainTree (.foreign v) => Emit.fail (.noNode v.typeName)
  | plainTree t => do
    Emit.tree {} t
    return none
  | line l => do
    Emit.write [l]
    return none
  | text => return some (← get).text

end EmitRequest

end TinyC

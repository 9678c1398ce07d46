import TinyC.Tree.Outline

namespace TinyC

namespace Tree

def isNode : Tree → Bool
  | foreign _ => false
  | _ => true

def children : Tree → List Tree
  | foreign _ => []
  | blank _ => []
  | literal _ _ => []
  | unary _ _ x => [x]
  | binary _ _ l r => [l, r]
  | ret _ x => [x]
  | function _ _ body => [body]

def payload : Tree → String
  | literal _ v => v
  | unary _ op _ => (op.map Operator.name).getD ""
  | binary _ op _ _ => (op.map Operator.name).getD ""
  | function _ name _ => name
  | _ => ""

end Tree

abbrev Visiting (σ α : Type) : Type :=
  EStateM TreeFault σ α

structure Visitor (σ α : Type) where
  handler? : Tree → Option (Visiting σ Unit → Visiting σ α)

namespace Visitor

variable {σ α : Type}

def dispatch (v : Visitor σ α) (t : Tree) (below : Visiting σ Unit) : Visiting σ (Option α) :=
  match v.handler? t with
  | some handle => some <$> handle below
  | none => do
    below
    return none

def enter (child : Tree) (visit : Visiting σ (Option α)) : Visiting σ Unit :=
  if child.isNode then discard visit else pure ()

def visit (v : Visitor σ α) : Tree → Visiting σ (Option α)
  | .foreign f => v.dispatch (.foreign f) (throw (.noNode f))
  | .blank l => v.dispatch (.blank l) (pure ())
  | .literal l d => v.dispatch (.literal l d) (pure ())
  | .unary l op x => v.dispatch (.unary l op x) (enter x (v.visit x))
  | .binary l op x y =>
    v.dispatch (.binary l op x y) do
      enter x (v.visit x)
      enter y (v.visit y)
  | .ret l x => v.dispatch (.ret l x) (enter x (v.visit x))
  | .function l name x => v.dispatch (.function l name x) (enter x (v.visit x))

end Visitor

/-- Nodes of the `handled` sorts are recorded; below them the visit goes on only for the sorts in
`descended`. Below all other nodes it always goes on. -/
structure Visit where
  handled : List String
  descended : List String

namespace Visit

def handles (v : Visit) (t : Tree) : Bool :=
  v.handled.contains t.typeName

def handle (v : Visit) (t : Tree) (below : Visiting (List Tree) Unit) :
    Visiting (List Tree) String := do
  modify (· ++ [t])
  if v.descended.contains t.typeName then below
  return t.typeName

def visitor (v : Visit) : Visitor (List Tree) String where
  handler? t := if v.handles t then some (v.handle t) else none

def run (v : Visit) (t : Tree) : Except TreeFault (Option String) × List Tree :=
  match v.visitor.visit t [] with
  | .ok reply seen => (.ok reply, seen)
  | .error f seen => (.error f, seen)

end Visit

end TinyC

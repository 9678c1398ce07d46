import TinyC.Diagnostic
import TinyC.Source.Cursor
import TinyC.Token.Reading

namespace TinyC

structure LexicalFault where
  defect : Defect
  location : Location
  sourceLine : String
deriving DecidableEq

namespace LexicalFault

def diagnostic (f : LexicalFault) : Diagnostic :=
  ⟨.lexical, f.defect.message, some f.location, some f.defect.hint, some f.sourceLine⟩

end LexicalFault

namespace Cursor

def skipBlanks (c : Cursor) : Cursor :=
  c.forward (c.rest.takeWhile Lexeme.isBlank).length

def faultAt (c : Cursor) (d : Defect) : LexicalFault :=
  ⟨d, c.location, c.currentLine⟩

/-- Cuts the next token. At the end of the text there is always one more end of input; after a
defect the cursor stands where the defect showed. -/
def next : EStateM LexicalFault Cursor Token := fun c =>
  let b := c.skipBlanks
  match Reading.ofChars b.rest with
  | .finish => .ok ⟨.eof, b.location⟩ b
  | .token kind text => .ok ⟨⟨kind, String.ofList text⟩, b.location⟩ (b.forward text.length)
  | .defect cause offset => .error ((b.forward offset).faultAt cause) (b.forward offset)

end Cursor

namespace Cursor

theorem rest_skipBlanks (c : Cursor) :
    c.skipBlanks.rest = c.rest.dropWhile Lexeme.isBlank := by
  rw [skipBlanks, rest_forward]
  induction c.rest with
  | nil => rfl
  | cons x xs ih => by_cases hx : Lexeme.isBlank x <;> simp [hx, ih]

theorem length_skipBlanks (c : Cursor) : c.skipBlanks.rest.length ≤ c.rest.length := by
  rw [skipBlanks, rest_forward, List.length_drop]
  exact Nat.sub_le _ _

theorem length_next {c d : Cursor} {t : Token} (h : next c = .ok t d) (ht : t.kind ≠ .eof) :
    d.rest.length < c.rest.length := by
  have hb := length_skipBlanks c
  simp only [next] at h
  split at h
  · cases h
    exact absurd rfl ht
  · rename_i kind text hr
    cases h
    have hpos := Reading.length_pos hr
    rw [rest_forward, List.length_drop]
    have hne : 0 < c.skipBlanks.rest.length := by
      cases hs : c.skipBlanks.rest with
      | nil => rw [hs] at hr; cases hr
      | cons x xs => simp
    omega
  · cases h

end Cursor

structure Scan where
  tokens : List Token
  fault : Option LexicalFault
  cursor : Cursor

namespace Cursor

def scan (c : Cursor) : Scan :=
  match _h : next c with
  | .error f d => ⟨[], some f, d⟩
  | .ok t d =>
    if _ht : t.kind = .eof then ⟨[t], none, d⟩
    else
      let s := scan d
      ⟨t :: s.tokens, s.fault, s.cursor⟩
termination_by c.rest.length
decreasing_by exact length_next _h _ht

end Cursor

end TinyC

import TinyC.Error
import TinyC.Text.Lines
import TinyC.Token.Scan

namespace TinyC

inductive Complaint where
  | expected (kind : Kind) (found : Lexeme)
  | wrongKeyword (found wanted : String)
  | fraction (text : String)
  | noExpression (found : Lexeme)
deriving DecidableEq

namespace Complaint

def message : Complaint → String
  | expected kind found => "expected " ++ kind.name ++ ", found " ++ found.describe
  | wrongKeyword found wanted =>
    "unexpected keyword '" ++ found ++ "', expected '" ++ wanted ++ "'"
  | fraction text => "floating-point literals are not supported: '" ++ text ++ "'"
  | noExpression found => "expected expression, found " ++ found.describe

def hint : Complaint → Option String
  | fraction _ => some "only integer literals are allowed"
  | _ => none

end Complaint

inductive ParseFault where
  | lexical (fault : LexicalFault)
  | syntactic (complaint : Complaint) (location : Location) (sourceLine : Option String)
  | nesting (location : Location) (sourceLine : Option String)
deriving DecidableEq

def Diagnostic.nesting (location : Option Location) (sourceLine : Option String) : Diagnostic :=
  ⟨.syntactic, "expression nested too deeply", location,
    some "reduce the nesting of parentheses and unary operators", sourceLine⟩

namespace ParseFault

def errorClass : ParseFault → ErrorClass
  | lexical _ => .compilation .lexical
  | syntactic _ _ _ => .compilation .syntactic
  | nesting _ _ => .plain .recursion

def diagnostic : ParseFault → Diagnostic
  | lexical f => f.diagnostic
  | syntactic c location sourceLine => ⟨.syntactic, c.message, some location, c.hint, sourceLine⟩
  | nesting location sourceLine => .nesting (some location) sourceLine

end ParseFault

/-- The cursor stands behind the lookahead; `pulled` tokens were cut up to it, itself included. What
is read may be nested as deep as `limit`. -/
structure Reader where
  lookahead : Token
  cursor : Cursor
  pulled : Nat
  limit : Nat
deriving DecidableEq

abbrev Parse (α : Type) : Type :=
  EStateM ParseFault Reader α

namespace Reader

def start? (limit : Nat) (file source : String) : Except LexicalFault Reader :=
  match (Cursor.start file source).next with
  | .ok t c => .ok ⟨t, c, 1, limit⟩
  | .error f _ => .error f

def sourceLine? (r : Reader) (n : Int) : Option String :=
  Text.line? r.cursor.source n

def lineOf? (r : Reader) (t : Token) : Option String :=
  r.sourceLine? t.location.line

def check (r : Reader) (kind : Kind) (texts : Option (List String)) : Bool :=
  r.lookahead.kind = kind && match texts with
    | none => true
    | some ts => ts.contains r.lookahead.text

end Reader

namespace Parse

/-- Takes the lookahead and cuts the next token. The end of input is never passed, and where the
next token is defective the lookahead stays. -/
def advance : Parse Token := fun r =>
  if r.lookahead.kind = .eof then .ok r.lookahead r
  else match r.cursor.next with
    | .ok t c => .ok r.lookahead ⟨t, c, r.pulled + 1, r.limit⟩
    | .error f c => .error (.lexical f) ⟨r.lookahead, c, r.pulled, r.limit⟩

def complain {α : Type} (c : Complaint) (t : Token) : Parse α := fun r =>
  .error (.syntactic c t.location (r.lineOf? t)) r

def tooDeep {α : Type} : Parse α := fun r =>
  .error (.nesting r.lookahead.location (r.lineOf? r.lookahead)) r

def expect (kind : Kind) : Parse Token := do
  let r ← get
  if r.lookahead.kind = kind then advance
  else complain (.expected kind r.lookahead.lexeme) r.lookahead

/-- The word is looked at only after the keyword was taken. -/
def keyword (word : String) : Parse Token := do
  let t ← expect .keyword
  if t.text = word then return t
  else complain (.wrongKeyword t.text word) t

end Parse

namespace Reader

def remaining (r : Reader) : Nat :=
  if r.lookahead.kind = .eof then 0 else r.cursor.rest.length + 1

theorem remaining_advance {r s : Reader} {t : Token} (hr : r.lookahead.kind ≠ .eof)
    (h : Parse.advance r = .ok t s) : s.remaining < r.remaining := by
  simp only [Parse.advance, hr, if_false] at h
  split at h
  · rename_i u c hn
    cases h
    simp only [remaining, hr, if_false]
    split
    · omega
    · rename_i hu
      have := Cursor.length_next hn hu
      omega
  · cases h

end Reader

end TinyC

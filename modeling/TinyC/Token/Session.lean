import TinyC.Token.Scan

namespace TinyC

inductive ScanRequest where
  | next
  | character
  | stream
  | pull (stream : Nat)
  | drain
deriving DecidableEq

inductive ScanReply where
  | token (t : Token)
  | character (c : Option Char)
  | opened
  | exhausted
  | tokens (ts : List Token)
  | fault (f : LexicalFault)
deriving DecidableEq

/-- All streams share one cursor; `live` tells of each whether it can still give a token. -/
structure ScanSession where
  cursor : Cursor
  live : List Bool := []
deriving DecidableEq

namespace ScanSession

def start (file source : String) : ScanSession :=
  ⟨Cursor.start file source, []⟩

def latest (s : ScanSession) : Nat :=
  s.live.length - 1

def pull (n : Nat) (s : ScanSession) : ScanReply × ScanSession :=
  if s.live[n]? = some true then
    match s.cursor.next with
    | .error f d => (.fault f, ⟨d, s.live.set n false⟩)
    | .ok t d => (.token t, ⟨d, if t.kind = .eof then s.live.set n false else s.live⟩)
  else (.exhausted, s)

def perform (s : ScanSession) : ScanRequest → ScanReply × ScanSession
  | .next =>
    match s.cursor.next with
    | .error f d => (.fault f, ⟨d, s.live⟩)
    | .ok t d => (.token t, ⟨d, s.live⟩)
  | .character => (.character s.cursor.rest.head?, ⟨s.cursor.step, s.live⟩)
  | .stream => (.opened, ⟨s.cursor, s.live ++ [true]⟩)
  | .pull n => s.pull n
  | .drain =>
    let r := s.cursor.scan
    (match r.fault with
      | some f => .fault f
      | none => .tokens r.tokens, ⟨r.cursor, s.live⟩)

end ScanSession

end TinyC

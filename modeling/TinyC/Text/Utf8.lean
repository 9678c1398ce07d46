import TinyC.Text.Quoted

/-! Reading UTF-8. Overlong forms, surrogates and code points past the last one are refused. -/

namespace TinyC.Text

structure DecodeFault where
  byte : Option UInt8
  start : Int
  stop : Int
  reason : String
deriving DecidableEq

namespace DecodeFault

def message (f : DecodeFault) : String :=
  match f.byte with
  | some b =>
    if f.stop = f.start + 1 then
      "'utf-8' codec can't decode byte 0x" ++ String.ofList (hexDigits 2 b.toNat) ++
        " in position " ++ f.start.repr ++ ": " ++ f.reason
    else several
  | none => several
where
  several : String :=
    "'utf-8' codec can't decode bytes in position " ++ f.start.repr ++ "-" ++ (f.stop - 1).repr ++
      ": " ++ f.reason

end DecodeFault

/-- A sequence of which `taken` bytes were read and `owed` are to come. The next byte lies between
`low` and `high`. -/
structure Utf8Sequence where
  lead : UInt8
  taken : Nat
  owed : Nat
  low : Nat
  high : Nat
  value : Nat
deriving DecidableEq

namespace Utf8Sequence

def start? (b : UInt8) : Option Utf8Sequence :=
  let n := b.toNat
  if 0xC2 ≤ n ∧ n ≤ 0xDF then some ⟨b, 1, 1, 0x80, 0xBF, n - 0xC0⟩
  else if 0xE0 ≤ n ∧ n ≤ 0xEF then
    some ⟨b, 1, 2, if n = 0xE0 then 0xA0 else 0x80, if n = 0xED then 0x9F else 0xBF, n - 0xE0⟩
  else if 0xF0 ≤ n ∧ n ≤ 0xF4 then
    some ⟨b, 1, 3, if n = 0xF0 then 0x90 else 0x80, if n = 0xF4 then 0x8F else 0xBF, n - 0xF0⟩
  else none

def extend (q : Utf8Sequence) (b : UInt8) : Utf8Sequence :=
  ⟨q.lead, q.taken + 1, q.owed - 1, 0x80, 0xBF, q.value * 64 + (b.toNat - 0x80)⟩

def fault (q : Utf8Sequence) (position : Nat) (reason : String) : DecodeFault :=
  ⟨some q.lead, (position - q.taken : Nat), position, reason⟩

end Utf8Sequence

def decodeFrom (position : Nat) : Option Utf8Sequence → List UInt8 → Except DecodeFault (List Char)
  | none, [] => .ok []
  | some q, [] => .error (q.fault position "unexpected end of data")
  | none, b :: bs =>
    if b.toNat < 0x80 then
      (decodeFrom (position + 1) none bs).map (Char.ofNat b.toNat :: ·)
    else match Utf8Sequence.start? b with
      | some q => decodeFrom (position + 1) (some q) bs
      | none => .error ⟨some b, position, position + 1, "invalid start byte"⟩
  | some q, b :: bs =>
    if q.low ≤ b.toNat ∧ b.toNat ≤ q.high then
      if q.owed = 1 then
        (decodeFrom (position + 1) none bs).map (Char.ofNat (q.extend b).value :: ·)
      else decodeFrom (position + 1) (some (q.extend b)) bs
    else .error (q.fault position "invalid continuation byte")

def decode (bytes : List UInt8) : Except DecodeFault (List Char) :=
  decodeFrom 0 none bytes

end TinyC.Text

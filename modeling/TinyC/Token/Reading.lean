import TinyC.Token

namespace TinyC

inductive Defect where
  | unrecognized (c : Char)
  | secondSeparator
  | openCharacter
  | longCharacter
  | openString
deriving DecidableEq

namespace Defect

def message : Defect → String
  | unrecognized c => "unrecognized character '" ++ c.toString ++ "'"
  | secondSeparator => "too many separators in numeric literal"
  | openCharacter => "unterminated character literal"
  | longCharacter => "character literal too long or missing closing quote"
  | openString => "unterminated string literal"

def hint : Defect → String
  | unrecognized _ => "remove the character or check for a typo"
  | secondSeparator => "a numeric literal may contain at most one '.'"
  | openCharacter => "add closing ' to complete the character literal"
  | longCharacter => "character literals can only contain a single character"
  | openString => "add closing '\"' to complete the string"

end Defect

namespace Lexeme

def isBlank (c : Char) : Bool :=
  c = ' ' || c = '\t' || c = '\r' || c = '\n'

def isWordStart (c : Char) : Bool :=
  c.isAlpha || c = '_'

/-- Names may hold the marks of qualified and templated names. -/
def isWordPart (c : Char) : Bool :=
  c.isAlphanum || c = '_' || c = ':' || c = '<' || c = '>'

def delimiters : List (Char × Kind) :=
  [('(', .openParen), (')', .closeParen), ('{', .openBrace), ('}', .closeBrace), (';', .semicolon),
    ('=', .assign)]

def operators : List Char :=
  ['+', '-', '*', '/', '~', '!']

def keywords : List String :=
  ["return", "int", "float"]

def isStringPart (c : Char) : Bool :=
  c ≠ '"' && c ≠ '\n'

def wordKind (w : List Char) : Kind :=
  if String.ofList w ∈ keywords then .keyword else .identifier

end Lexeme

inductive Reading where
  | finish
  | token (kind : Kind) (text : List Char)
  | defect (cause : Defect) (offset : Nat)
deriving DecidableEq

namespace Reading

open Lexeme

def number (s : List Char) : Reading :=
  match s.dropWhile Char.isDigit with
  | '.' :: r =>
    let text := s.takeWhile Char.isDigit ++ '.' :: r.takeWhile Char.isDigit
    match r.dropWhile Char.isDigit with
    | '.' :: _ => defect .secondSeparator text.length
    | _ => token .intLiteral text
  | _ => token .intLiteral (s.takeWhile Char.isDigit)

def character : List Char → Reading
  | [] => defect .openCharacter 1
  | c :: r =>
    if c = '\n' then defect .openCharacter 1
    else match r with
      | '\'' :: _ => token .charLiteral ['\'', c, '\'']
      | _ => defect .longCharacter 2

def string (r : List Char) : Reading :=
  let body := r.takeWhile isStringPart
  match r.dropWhile isStringPart with
  | '"' :: _ => token .stringLiteral ('"' :: body ++ ['"'])
  | _ => defect .openString (body.length + 1)

def ofCons (c : Char) (r : List Char) : Reading :=
  match delimiters.lookup c with
  | some kind => token kind [c]
  | none =>
    if c ∈ operators then token .operator [c]
    else if c = '\'' then character r
    else if c = '"' then string r
    else if isWordStart c then
      let w := c :: r.takeWhile isWordPart
      token (wordKind w) w
    else if c.isDigit then number (c :: r)
    else defect (.unrecognized c) 0

def ofChars : List Char → Reading
  | [] => finish
  | c :: r => ofCons c r

theorem length_pos_number {c : Char} {r t : List Char} {k : Kind} (hc : c.isDigit)
    (h : number (c :: r) = token k t) : 0 < t.length := by
  unfold number at h
  split at h
  · dsimp only at h
    split at h
    · cases h
    · cases h
      simp only [List.length_append, List.length_cons]
      omega
  · cases h
    simp [hc]

theorem length_pos_character {r t : List Char} {k : Kind} (h : character r = token k t) :
    0 < t.length := by
  unfold character at h
  repeat' split at h
  all_goals cases h
  simp

theorem length_pos_string {r t : List Char} {k : Kind} (h : string r = token k t) :
    0 < t.length := by
  unfold string at h
  dsimp only at h
  split at h <;> cases h
  simp

theorem length_pos {s t : List Char} {k : Kind} (h : ofChars s = token k t) : 0 < t.length := by
  cases s with
  | nil => cases h
  | cons c r =>
    simp only [ofChars, ofCons] at h
    split at h
    · cases h; simp
    · split at h
      · cases h; simp
      · split at h
        · exact length_pos_character h
        · split at h
          · exact length_pos_string h
          · split at h
            · cases h; simp
            · split at h
              · exact length_pos_number (by assumption) h
              · cases h

end Reading

end TinyC

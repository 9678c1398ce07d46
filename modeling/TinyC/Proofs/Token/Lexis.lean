import Mathlib.Tactic.Common
import TinyC.Proofs.Source.Place
import TinyC.Token.Scan

namespace TinyC

namespace Lexis

def Longest (P : List Char → Prop) (s l : List Char) : Prop :=
  P l ∧ l <+: s ∧ ∀ m, P m → m <+: s → m.length ≤ l.length

def Shortest (P : List Char → Prop) (s l : List Char) : Prop :=
  P l ∧ l <+: s ∧ ∀ m, P m → m <+: s → l.length ≤ m.length

inductive Delimiter : Char → Kind → Prop
  | openParen : Delimiter '(' .openParen
  | closeParen : Delimiter ')' .closeParen
  | openBrace : Delimiter '{' .openBrace
  | closeBrace : Delimiter '}' .closeBrace
  | semicolon : Delimiter ';' .semicolon
  | assign : Delimiter '=' .assign

def IsOperator (c : Char) : Prop :=
  c ∈ ['+', '-', '*', '/', '~', '!']

def StartsWord (c : Char) : Prop :=
  c.isAlpha ∨ c = '_'

def IsWord (l : List Char) : Prop :=
  (∃ c ∈ l.head?, StartsWord c) ∧
    ∀ c ∈ l, c.isAlpha ∨ c.isDigit ∨ c ∈ ['_', ':', '<', '>']

def IsNumber (l : List Char) : Prop :=
  (∃ c ∈ l.head?, c.isDigit) ∧ (∀ c ∈ l, c.isDigit ∨ c = '.') ∧ l.count '.' ≤ 1

def IsString (l : List Char) : Prop :=
  (∃ body, l = '"' :: body ++ ['"']) ∧ '\n' ∉ l

inductive Begins : List Char → Kind → List Char → Prop
  | delimiter {c k r} : Delimiter c k → Begins (c :: r) k [c]
  | operator {c r} : IsOperator c → Begins (c :: r) .operator [c]
  | keyword {s l} : Longest IsWord s l → String.ofList l ∈ ["return", "int", "float"] →
      Begins s .keyword l
  | identifier {s l} : Longest IsWord s l → String.ofList l ∉ ["return", "int", "float"] →
      Begins s .identifier l
  | number {s l} : Longest IsNumber s l → ¬ l ++ ['.'] <+: s → Begins s .intLiteral l
  | character {c r} : c ≠ '\n' → Begins ('\'' :: c :: '\'' :: r) .charLiteral ['\'', c, '\'']
  | string {s l} : Shortest IsString s l → Begins s .stringLiteral l

def EndsLine (s : List Char) : Prop :=
  s = [] ∨ s.head? = some '\n'

inductive Fails : List Char → Defect → Nat → Prop
  | unrecognized {c r} : (∀ k, ¬ Delimiter c k) → ¬ IsOperator c → c ≠ '\'' → c ≠ '"' →
      ¬ StartsWord c → ¬ c.isDigit → Fails (c :: r) (.unrecognized c) 0
  | secondSeparator {s l} : Longest IsNumber s l → l ++ ['.'] <+: s →
      Fails s .secondSeparator l.length
  | openCharacter {r} : EndsLine r → Fails ('\'' :: r) .openCharacter 1
  | longCharacter {c r} : c ≠ '\n' → r.head? ≠ some '\'' → Fails ('\'' :: c :: r) .longCharacter 2
  | openString {body r} : '"' ∉ body → '\n' ∉ body → EndsLine r →
      Fails ('"' :: body ++ r) .openString (body.length + 1)

lemma eq_of_prefix_of_length {s l m : List Char} (hl : l <+: s) (hm : m <+: s)
    (h : l.length = m.length) : l = m :=
  (List.prefix_of_prefix_length_le hl hm (Nat.le_of_eq h)).eq_of_length h

lemma Longest.unique {P : List Char → Prop} {s l m : List Char} (hl : Longest P s l)
    (hm : Longest P s m) : l = m := by
  apply eq_of_prefix_of_length hl.2.1 hm.2.1
  exact Nat.le_antisymm (hm.2.2 l hl.1 hl.2.1) (hl.2.2 m hm.1 hm.2.1)

lemma Shortest.unique {P : List Char → Prop} {s l m : List Char} (hl : Shortest P s l)
    (hm : Shortest P s m) : l = m := by
  apply eq_of_prefix_of_length hl.2.1 hm.2.1
  exact Nat.le_antisymm (hl.2.2 m hm.1 hm.2.1) (hm.2.2 l hl.1 hl.2.1)

lemma longest_of_next {P : List Char → Prop} {s l : List Char} (hl : P l) (hs : l <+: s)
    (hn : ∀ x m, l ++ [x] <+: s → l ++ [x] <+: m → ¬ P m) : Longest P s l := by
  refine ⟨hl, hs, fun m hm hms => ?_⟩
  by_contra hlt
  obtain ⟨t, rfl⟩ := List.prefix_of_prefix_length_le hs hms (by omega)
  cases t with
  | nil => simp at hlt
  | cons x t =>
    have hx : l ++ [x] <+: l ++ x :: t := ⟨t, by simp⟩
    exact hn x _ (hx.trans hms) hx hm

lemma exists_run (p : Char → Bool) (s : List Char) :
    ∃ l r, s = l ++ r ∧ s.takeWhile p = l ∧ s.dropWhile p = r ∧ (∀ c ∈ l, p c) ∧
      ∀ c ∈ r.head?, p c = false := by
  refine ⟨s.takeWhile p, s.dropWhile p, List.takeWhile_append_dropWhile.symm, rfl, rfl,
    List.all_eq_true.mp List.all_takeWhile, fun c hc => ?_⟩
  have hh := List.head?_dropWhile_not p s
  rw [hc] at hh
  exact hh

lemma append_singleton_prefix_iff {l r : List Char} {x : Char} :
    l ++ [x] <+: l ++ r ↔ r.head? = some x := by
  rw [List.prefix_append_right_inj]
  cases r with
  | nil => simp
  | cons y r => simp [eq_comm]

lemma isWordPart_iff (c : Char) :
    Lexeme.isWordPart c ↔ c.isAlpha ∨ c.isDigit ∨ c ∈ ['_', ':', '<', '>'] := by
  simp [Lexeme.isWordPart, Char.isAlphanum, or_assoc]

lemma StartsWord.isWordPart {c : Char} (h : StartsWord c) : Lexeme.isWordPart c := by
  rw [isWordPart_iff]
  rcases h with h | rfl
  · exact .inl h
  · simp

lemma longest_word {c : Char} (r : List Char) (hc : StartsWord c) :
    Longest IsWord (c :: r) (c :: r.takeWhile Lexeme.isWordPart) := by
  obtain ⟨l, r, rfl, ht, -, hl, hr⟩ := exists_run Lexeme.isWordPart r
  rw [ht]
  apply longest_of_next
  · refine ⟨⟨c, rfl, hc⟩, fun x hx => (isWordPart_iff x).mp ?_⟩
    rcases List.mem_cons.mp hx with rfl | hx
    · exact hc.isWordPart
    · exact hl x hx
  · exact List.prefix_append (c :: l) r
  · intro x m hx hm hw
    have hp := (isWordPart_iff x).mpr (hw.2 x (hm.subset (by simp)))
    rw [hr x (append_singleton_prefix_iff.mp hx)] at hp
    cases hp

lemma longest_number {s l : List Char} (hl : IsNumber l) (hs : l <+: s)
    (hx : ∀ x, l ++ [x] <+: s → ¬ x.isDigit ∧ (x = '.' → '.' ∈ l)) : Longest IsNumber s l := by
  apply longest_of_next hl hs
  rintro x m hxs hm ⟨-, hall, hcount⟩
  obtain ⟨hd, hp⟩ := hx x hxs
  rcases hall x (hm.subset (by simp)) with h | rfl
  · exact hd h
  · have hle := hm.sublist.count_le '.'
    have hpos := List.count_pos_iff.mpr (hp rfl)
    simp only [List.count_append, List.count_singleton_self] at hle
    omega

lemma longest_digits {ds r : List Char} (hne : ds ≠ []) (hds : ∀ c ∈ ds, c.isDigit)
    (hr : ∀ c ∈ r.head?, ¬ c.isDigit ∧ c ≠ '.') : Longest IsNumber (ds ++ r) ds := by
  apply longest_number
  · refine ⟨⟨ds.head hne, by simp [List.head?_eq_some_head hne], hds _ (List.head_mem hne)⟩,
      fun c hc => .inl (hds c hc), ?_⟩
    rw [List.count_eq_zero.mpr fun h => absurd (hds _ h) (by decide)]
    exact Nat.zero_le 1
  · exact List.prefix_append _ _
  · intro x hx
    obtain ⟨hd, hp⟩ := hr x (append_singleton_prefix_iff.mp hx)
    exact ⟨hd, fun h => absurd h hp⟩

lemma longest_fraction {ds es r : List Char} (hne : ds ≠ []) (hds : ∀ c ∈ ds, c.isDigit)
    (hes : ∀ c ∈ es, c.isDigit) (hr : ∀ c ∈ r.head?, ¬ c.isDigit) :
    Longest IsNumber ((ds ++ '.' :: es) ++ r) (ds ++ '.' :: es) := by
  apply longest_number
  · refine ⟨⟨ds.head hne, by simp [List.head?_eq_some_head hne], hds _ (List.head_mem hne)⟩, ?_, ?_⟩
    · intro c hc
      rcases List.mem_append.mp hc with h | h
      · exact .inl (hds c h)
      · rcases List.mem_cons.mp h with rfl | h
        · exact .inr rfl
        · exact .inl (hes c h)
    · have hd : ds.count '.' = 0 := List.count_eq_zero.mpr fun h => absurd (hds _ h) (by decide)
      have he : es.count '.' = 0 := List.count_eq_zero.mpr fun h => absurd (hes _ h) (by decide)
      rw [List.count_append, List.count_cons_self]
      omega
  · exact List.prefix_append _ _
  · intro x hx
    exact ⟨hr x (append_singleton_prefix_iff.mp hx), fun _ => by simp⟩

lemma number_eq {c : Char} (r : List Char) (hc : c.isDigit) :
    ∃ l, Longest IsNumber (c :: r) l ∧
      ((Reading.number (c :: r) = .token .intLiteral l ∧ ¬ l ++ ['.'] <+: c :: r) ∨
        (Reading.number (c :: r) = .defect .secondSeparator l.length ∧ l ++ ['.'] <+: c :: r)) := by
  obtain ⟨ds, rest, hs, ht, hd, hds, hrest⟩ := exists_run Char.isDigit (c :: r)
  have hne : ds ≠ [] := by
    rw [← ht]
    simp [hc]
  rw [Reading.number]
  rw [ht, hd, hs]
  by_cases hdot : rest.head? = some '.'
  · obtain ⟨u, rfl⟩ : ∃ u, rest = '.' :: u := List.head?_eq_some_iff.mp hdot
    obtain ⟨es, v, rfl, ht', hd', hes, hv⟩ := exists_run Char.isDigit u
    have hassoc : ds ++ '.' :: (es ++ v) = ds ++ '.' :: es ++ v := by simp
    refine ⟨ds ++ '.' :: es, ?_, ?_⟩
    · rw [hassoc]
      exact longest_fraction hne hds hes fun x hx => by simp [hv x hx]
    · rw [hassoc, append_singleton_prefix_iff]
      simp only [ht', hd']
      split
      · exact .inr ⟨rfl, rfl⟩
      · rename_i hv'
        refine .inl ⟨rfl, fun h => ?_⟩
        obtain ⟨w, rfl⟩ := List.head?_eq_some_iff.mp h
        exact hv' w rfl
  · refine ⟨ds, longest_digits hne hds fun x hx => ⟨by simp [hrest x hx], ?_⟩, .inl ⟨?_, ?_⟩⟩
    · rintro rfl
      exact hdot hx
    · split
      · exact absurd rfl hdot
      · rfl
    · rwa [append_singleton_prefix_iff]

lemma isStringPart_iff (c : Char) : Lexeme.isStringPart c ↔ c ≠ '"' ∧ c ≠ '\n' := by
  simp [Lexeme.isStringPart]

lemma isString_quoted {body : List Char} (h : '\n' ∉ body) : IsString ('"' :: body ++ ['"']) :=
  ⟨⟨body, rfl⟩, by simp [h]⟩

lemma shortest_string {body : List Char} (r : List Char) (hq : '"' ∉ body) (hn : '\n' ∉ body) :
    Shortest IsString ('"' :: body ++ '"' :: r) ('"' :: body ++ ['"']) := by
  refine ⟨isString_quoted hn, ⟨r, by simp⟩, ?_⟩
  rintro m ⟨⟨b, rfl⟩, -⟩ hm
  by_contra hlt
  simp only [List.cons_append, List.length_cons, List.length_append, List.length_nil] at hlt
  -- a shorter span would close at a quote inside the body
  have hb : b ++ ['"'] <+: body ++ '"' :: r := by simpa using hm
  have hp := List.prefix_of_prefix_length_le hb (List.prefix_append body _) (by simp; omega)
  exact hq (hp.subset (by simp))

lemma takeWhile_isStringPart {body t : List Char} (hq : '"' ∉ body) (hn : '\n' ∉ body)
    (ht : ∀ c ∈ t.head?, ¬ Lexeme.isStringPart c) :
    (body ++ t).takeWhile Lexeme.isStringPart = body ∧
      (body ++ t).dropWhile Lexeme.isStringPart = t := by
  have hb : ∀ c ∈ body, Lexeme.isStringPart c := fun c hc =>
    (isStringPart_iff c).mpr ⟨fun h => hq (h ▸ hc), fun h => hn (h ▸ hc)⟩
  rw [List.takeWhile_append_of_pos hb, List.dropWhile_append_of_pos hb]
  cases t with
  | nil => simp
  | cons x t => simp [ht x rfl]

lemma string_close {body : List Char} (u : List Char) (hq : '"' ∉ body) (hn : '\n' ∉ body) :
    Reading.string (body ++ '"' :: u) = .token .stringLiteral ('"' :: body ++ ['"']) := by
  obtain ⟨ht, hd⟩ := takeWhile_isStringPart (t := '"' :: u) hq hn (by simp [isStringPart_iff])
  rw [Reading.string]
  rw [ht, hd]
  rfl

lemma string_open {body t : List Char} (hq : '"' ∉ body) (hn : '\n' ∉ body) (h : EndsLine t) :
    Reading.string (body ++ t) = .defect .openString (body.length + 1) := by
  have hstop : ∀ c ∈ t.head?, ¬ Lexeme.isStringPart c := by
    rcases h with rfl | h
    · simp
    · simp [h, isStringPart_iff]
  obtain ⟨ht, hd⟩ := takeWhile_isStringPart hq hn hstop
  rw [Reading.string]
  rw [ht, hd]
  rcases h with rfl | h
  · rfl
  · obtain ⟨u, rfl⟩ := List.head?_eq_some_iff.mp h
    rfl

lemma exists_line (r : List Char) :
    ∃ body t, r = body ++ t ∧ '"' ∉ body ∧ '\n' ∉ body ∧ ((∃ u, t = '"' :: u) ∨ EndsLine t) := by
  obtain ⟨body, t, rfl, -, -, hbody, hstop⟩ := exists_run Lexeme.isStringPart r
  refine ⟨body, t, rfl, fun h => ?_, fun h => ?_, ?_⟩
  · exact ((isStringPart_iff _).mp (hbody _ h)).1 rfl
  · exact ((isStringPart_iff _).mp (hbody _ h)).2 rfl
  · cases t with
    | nil => exact .inr (.inl rfl)
    | cons x u =>
      have hx := hstop x rfl
      simp only [Lexeme.isStringPart, Bool.and_eq_false_iff, decide_eq_false_iff_not,
        not_not] at hx
      rcases hx with rfl | rfl
      · exact .inl ⟨u, rfl⟩
      · exact .inr (.inr rfl)

lemma character_close {c : Char} (r : List Char) (hc : c ≠ '\n') :
    Reading.character (c :: '\'' :: r) = .token .charLiteral ['\'', c, '\''] := by
  rw [Reading.character, if_neg hc]

lemma character_long {c : Char} {r : List Char} (hc : c ≠ '\n') (hr : r.head? ≠ some '\'') :
    Reading.character (c :: r) = .defect .longCharacter 2 := by
  rw [Reading.character, if_neg hc]
  rintro t rfl
  exact hr rfl

lemma character_open {r : List Char} (h : EndsLine r) :
    Reading.character r = .defect .openCharacter 1 := by
  rcases h with rfl | h
  · rfl
  · obtain ⟨u, rfl⟩ := List.head?_eq_some_iff.mp h
    rfl

lemma delimiter_iff {c : Char} {k : Kind} : Delimiter c k ↔ Lexeme.delimiters.lookup c = some k := by
  constructor
  · rintro ⟨⟩ <;> rfl
  · intro h
    obtain ⟨l₁, l₂, hl, -⟩ := List.lookup_eq_some_iff.mp h
    have hm : (c, k) ∈ Lexeme.delimiters := by simp [hl]
    simp only [Lexeme.delimiters, List.mem_cons, Prod.mk.injEq, List.not_mem_nil, or_false] at hm
    rcases hm with ⟨rfl, rfl⟩ | ⟨rfl, rfl⟩ | ⟨rfl, rfl⟩ | ⟨rfl, rfl⟩ | ⟨rfl, rfl⟩ | ⟨rfl, rfl⟩
    all_goals constructor

lemma lookup_eq_none {c : Char} (h : ∀ k, ¬ Delimiter c k) : Lexeme.delimiters.lookup c = none := by
  cases hk : Lexeme.delimiters.lookup c with
  | none => rfl
  | some k => exact absurd (delimiter_iff.mpr hk) (h k)

lemma ofCons_delimiter {c : Char} {k : Kind} (r : List Char) (h : Delimiter c k) :
    Reading.ofCons c r = .token k [c] := by
  rw [Reading.ofCons]
  rw [delimiter_iff.mp h]

lemma ofCons_operator {c : Char} (r : List Char) (h : IsOperator c) :
    Reading.ofCons c r = .token .operator [c] := by
  simp only [IsOperator, List.mem_cons, List.not_mem_nil, or_false] at h
  rcases h with rfl | rfl | rfl | rfl | rfl | rfl <;> rfl

lemma ofCons_doubleQuote (r : List Char) : Reading.ofCons '"' r = Reading.string r := rfl

def IsPlain (c : Char) : Prop :=
  (∀ k, ¬ Delimiter c k) ∧ ¬ IsOperator c ∧ c ≠ '\'' ∧ c ≠ '"'

lemma ofCons_plain {c : Char} (r : List Char) (h : IsPlain c) :
    Reading.ofCons c r =
      if Lexeme.isWordStart c then
        .token (Lexeme.wordKind (c :: r.takeWhile Lexeme.isWordPart))
          (c :: r.takeWhile Lexeme.isWordPart)
      else if c.isDigit then Reading.number (c :: r) else .defect (.unrecognized c) 0 := by
  obtain ⟨hd, ho, hq, hqq⟩ := h
  have ho' : c ∉ Lexeme.operators := ho
  rw [Reading.ofCons]
  simp only [lookup_eq_none hd, ho', hq, hqq, if_false]

lemma isPlain_of_isAlphanum {c : Char} (h : c.isAlpha ∨ c.isDigit ∨ c = '_') : IsPlain c := by
  refine ⟨fun k hk => ?_, fun ho => ?_, ?_, ?_⟩
  · cases hk <;> revert h <;> decide
  · simp only [IsOperator, List.mem_cons, List.not_mem_nil, or_false] at ho
    rcases ho with rfl | rfl | rfl | rfl | rfl | rfl <;> revert h <;> decide
  all_goals rintro rfl; revert h; decide

lemma isWordStart_iff (c : Char) : Lexeme.isWordStart c ↔ StartsWord c := by
  simp [Lexeme.isWordStart, StartsWord]

lemma not_startsWord_of_isDigit {c : Char} (h : c.isDigit) : ¬ StartsWord c := by
  rintro (ha | rfl)
  · have hd := Char.isDigit_iff_toNat.mp h
    change (decide ('A'.val ≤ c.val ∧ c.val ≤ 'Z'.val) ||
      decide ('a'.val ≤ c.val) && decide (c.val ≤ 'z'.val)) = true at ha
    simp only [Bool.or_eq_true, Bool.and_eq_true, decide_eq_true_eq, UInt32.le_iff_toNat_le,
      Char.toNat_val, Char.reduceToNat] at hd ha
    omega
  · revert h
    decide

lemma ofCons_word {c : Char} (r : List Char) (h : StartsWord c) :
    Reading.ofCons c r = .token (Lexeme.wordKind (c :: r.takeWhile Lexeme.isWordPart))
      (c :: r.takeWhile Lexeme.isWordPart) := by
  have hp : IsPlain c := isPlain_of_isAlphanum (h.imp_right .inr)
  rw [ofCons_plain r hp, if_pos ((isWordStart_iff c).mpr h)]

lemma ofCons_digit {c : Char} (r : List Char) (h : c.isDigit) :
    Reading.ofCons c r = Reading.number (c :: r) := by
  have hw : ¬ Lexeme.isWordStart c := fun hw =>
    not_startsWord_of_isDigit h ((isWordStart_iff c).mp hw)
  rw [ofCons_plain r (isPlain_of_isAlphanum (.inr (.inl h))), if_neg hw, if_pos h]

lemma ofCons_unrecognized {c : Char} (r : List Char) (hp : IsPlain c) (hw : ¬ StartsWord c)
    (hd : ¬ c.isDigit) : Reading.ofCons c r = .defect (.unrecognized c) 0 := by
  rw [ofCons_plain r hp, if_neg (fun h => hw ((isWordStart_iff c).mp h)), if_neg hd]

lemma begins_word {s l : List Char} (h : Longest IsWord s l) : Begins s (Lexeme.wordKind l) l := by
  rw [Lexeme.wordKind]
  split
  · rename_i hk
    exact .keyword h hk
  · rename_i hk
    exact .identifier h hk

def Holds (s : List Char) : Reading → Prop
  | .finish => s = []
  | .token k l => Begins s k l
  | .defect d n => Fails s d n

lemma holds_character (r : List Char) : Holds ('\'' :: r) (Reading.character r) := by
  by_cases hl : EndsLine r
  · rw [character_open hl]
    exact .openCharacter hl
  cases r with
  | nil => exact absurd (.inl rfl) hl
  | cons c r =>
    have hc : c ≠ '\n' := fun h => hl (.inr (by simp [h]))
    by_cases hr : r.head? = some '\''
    · obtain ⟨t, rfl⟩ := List.head?_eq_some_iff.mp hr
      rw [character_close t hc]
      exact .character hc
    · rw [character_long hc hr]
      exact .longCharacter hc hr

lemma holds_string (r : List Char) : Holds ('"' :: r) (Reading.string r) := by
  obtain ⟨body, t, rfl, hq, hn, ⟨u, rfl⟩ | ht⟩ := exists_line r
  · rw [string_close u hq hn]
    exact .string (shortest_string u hq hn)
  · rw [string_open hq hn ht]
    exact .openString hq hn ht

lemma holds_number {c : Char} (r : List Char) (hc : c.isDigit) :
    Holds (c :: r) (Reading.number (c :: r)) := by
  obtain ⟨l, hl, ⟨hr, hdot⟩ | ⟨hr, hdot⟩⟩ := number_eq r hc
  · rw [hr]
    exact .number hl hdot
  · rw [hr]
    exact .secondSeparator hl hdot

lemma ofChars_holds (s : List Char) : Holds s (Reading.ofChars s) := by
  cases s with
  | nil => rfl
  | cons c r =>
    rw [Reading.ofChars]
    by_cases hdel : ∃ k, Delimiter c k
    · obtain ⟨k, hk⟩ := hdel
      rw [ofCons_delimiter r hk]
      exact .delimiter hk
    by_cases hop : IsOperator c
    · rw [ofCons_operator r hop]
      exact .operator hop
    by_cases hq : c = '\''
    · subst hq
      exact holds_character r
    by_cases hqq : c = '"'
    · subst hqq
      exact holds_string r
    by_cases hw : StartsWord c
    · rw [ofCons_word r hw]
      exact begins_word (longest_word r hw)
    by_cases hd : c.isDigit
    · rw [ofCons_digit r hd]
      exact holds_number r hd
    · have hdel' : ∀ k, ¬ Delimiter c k := fun k hk => hdel ⟨k, hk⟩
      rw [ofCons_unrecognized r ⟨hdel', hop, hq, hqq⟩ hw hd]
      exact .unrecognized hdel' hop hq hqq hw hd

lemma exists_cons_of_prefix {Q : Char → Prop} {s l : List Char} (h : ∃ c ∈ l.head?, Q c)
    (hl : l <+: s) : ∃ c r, s = c :: r ∧ Q c := by
  obtain ⟨c, hc, hq⟩ := h
  obtain ⟨t, rfl⟩ := List.head?_eq_some_iff.mp hc
  obtain ⟨r, rfl⟩ := hl
  exact ⟨c, t ++ r, rfl, hq⟩

lemma ofChars_of_longest_word {s l : List Char} (h : Longest IsWord s l) :
    Reading.ofChars s = .token (Lexeme.wordKind l) l := by
  obtain ⟨c, r, rfl, hc⟩ := exists_cons_of_prefix h.1.1 h.2.1
  rw [Reading.ofChars, ofCons_word r hc, h.unique (longest_word r hc)]

lemma not_endsLine_of_append_quote {b v body t : List Char} (hq : '"' ∉ body)
    (hb : '\n' ∉ '"' :: b ++ ['"']) (h : b ++ '"' :: v = body ++ t) : ¬ EndsLine t := by
  have hb' : b ++ ['"'] <+: body ++ t := ⟨v, by simp [h]⟩
  have hlen : body.length < (b ++ ['"']).length := by
    by_contra hle
    have hp := List.prefix_of_prefix_length_le hb' (List.prefix_append body t) (by omega)
    exact hq (hp.subset (by simp))
  obtain ⟨w, hw⟩ := List.prefix_of_prefix_length_le (List.prefix_append body t) hb' (by omega)
  rw [← hw] at hb' hlen
  have ht : w <+: t := (List.prefix_append_right_inj body).mp hb'
  cases w with
  | nil => simp at hlen
  | cons x w =>
    have hx : x ∈ b ++ ['"'] := hw ▸ by simp
    rcases ht with ⟨u, rfl⟩
    rintro (h | h)
    · cases h
    · obtain rfl : x = '\n' := by simpa using h
      exact hb (List.mem_cons_of_mem _ hx)

lemma ofChars_of_shortest_string {s l : List Char} (h : Shortest IsString s l) :
    Reading.ofChars s = .token .stringLiteral l := by
  obtain ⟨⟨⟨b, rfl⟩, hb⟩, ⟨v, rfl⟩, -⟩ := id h
  obtain ⟨body, t, hs, hq, hn, ht⟩ := exists_line (b ++ '"' :: v)
  have hs' : '"' :: b ++ ['"'] ++ v = '"' :: body ++ t := by simpa using hs
  rw [hs'] at h ⊢
  rw [List.cons_append, Reading.ofChars, ofCons_doubleQuote]
  rcases ht with ⟨u, rfl⟩ | ht
  · rw [string_close u hq hn, h.unique (shortest_string u hq hn)]
  · exact absurd ht (not_endsLine_of_append_quote hq hb hs)

lemma ofChars_of_begins {s l : List Char} {k : Kind} (h : Begins s k l) :
    Reading.ofChars s = .token k l := by
  cases h with
  | delimiter h => exact ofCons_delimiter _ h
  | operator h => exact ofCons_operator _ h
  | keyword h hk => rw [ofChars_of_longest_word h, Lexeme.wordKind, Lexeme.keywords, if_pos hk]
  | identifier h hk => rw [ofChars_of_longest_word h, Lexeme.wordKind, Lexeme.keywords, if_neg hk]
  | number h hdot =>
    obtain ⟨c, r, rfl, hc⟩ := exists_cons_of_prefix h.1.1 h.2.1
    rw [Reading.ofChars, ofCons_digit r hc]
    obtain ⟨m, hm, ⟨hr, -⟩ | ⟨-, hr⟩⟩ := number_eq r hc
    · rw [hr, h.unique hm]
    · exact absurd (h.unique hm ▸ hr) hdot
  | @character c r h => exact character_close r h
  | string h => exact ofChars_of_shortest_string h

lemma ofChars_of_fails {s : List Char} {d : Defect} {n : Nat} (h : Fails s d n) :
    Reading.ofChars s = .defect d n := by
  cases h with
  | unrecognized hdel hop hq hqq hw hd => exact ofCons_unrecognized _ ⟨hdel, hop, hq, hqq⟩ hw hd
  | secondSeparator h hdot =>
    obtain ⟨c, r, rfl, hc⟩ := exists_cons_of_prefix h.1.1 h.2.1
    rw [Reading.ofChars, ofCons_digit r hc]
    obtain ⟨m, hm, ⟨-, hr⟩ | ⟨hr, -⟩⟩ := number_eq r hc
    · exact absurd (h.unique hm ▸ hdot) hr
    · rw [hr, h.unique hm]
  | openCharacter h => exact character_open h
  | longCharacter hc hr => exact character_long hc hr
  | openString hq hn hr => exact string_open hq hn hr

lemma ofChars_eq_token_iff {s l : List Char} {k : Kind} :
    Reading.ofChars s = .token k l ↔ Begins s k l := by
  refine ⟨fun h => ?_, ofChars_of_begins⟩
  have hh := ofChars_holds s
  rw [h] at hh
  exact hh

lemma ofChars_eq_defect_iff {s : List Char} {d : Defect} {n : Nat} :
    Reading.ofChars s = .defect d n ↔ Fails s d n := by
  refine ⟨fun h => ?_, ofChars_of_fails⟩
  have hh := ofChars_holds s
  rw [h] at hh
  exact hh

lemma ofChars_eq_finish_iff {s : List Char} : Reading.ofChars s = .finish ↔ s = [] := by
  refine ⟨fun h => ?_, fun h => h ▸ rfl⟩
  have hh := ofChars_holds s
  rw [h] at hh
  exact hh

lemma next_eq_ok_iff {c d : Cursor} {t : Token} :
    c.next = .ok t d ↔
      ((c.skipBlanks.rest = [] ∧ t.lexeme = .eof) ∨
          Begins c.skipBlanks.rest t.kind t.text.toList) ∧
        t.location = c.skipBlanks.location ∧ d = c.skipBlanks.forward t.text.length := by
  constructor
  · intro h
    simp only [Cursor.next] at h
    split at h
    · rename_i hr
      cases h
      exact ⟨.inl ⟨ofChars_eq_finish_iff.mp hr, rfl⟩, rfl, rfl⟩
    · rename_i k l hr
      cases h
      refine ⟨.inr ?_, rfl, ?_⟩
      · simpa [Token.kind, Token.text] using ofChars_eq_token_iff.mp hr
      · simp [Token.text]
    · cases h
  · obtain ⟨⟨k, x⟩, l⟩ := t
    rintro ⟨⟨hs, hx⟩ | hb, hl, rfl⟩
    · simp only [Lexeme.eof, Lexeme.mk.injEq] at hx
      obtain ⟨rfl, rfl⟩ := hx
      simp only [Cursor.next, ofChars_eq_finish_iff.mpr hs]
      rw [← hl]
      rfl
    · simp only [Token.kind, Token.text] at hb hl ⊢
      simp [Cursor.next, ofChars_of_begins hb, ← hl, String.length_toList]

lemma next_eq_error_iff {c d : Cursor} {f : LexicalFault} :
    c.next = .error f d ↔
      ∃ n, Fails c.skipBlanks.rest f.defect n ∧ d = c.skipBlanks.forward n ∧
        f.location = d.location ∧ f.sourceLine = d.currentLine := by
  constructor
  · intro h
    simp only [Cursor.next] at h
    split at h
    · cases h
    · cases h
    · rename_i cause n hr
      cases h
      exact ⟨n, ofChars_eq_defect_iff.mp hr, rfl, rfl, rfl⟩
  · obtain ⟨cause, l, line⟩ := f
    rintro ⟨n, hf, rfl, rfl, rfl⟩
    simp only [Cursor.next, ofChars_of_fails hf]
    rfl

def IsBlank (c : Char) : Prop :=
  c ∈ [' ', '\t', '\r', '\n']

structure FirstNonBlank (s : List Char) (p q : Nat) : Prop where
  le : p ≤ q
  le_length : q ≤ s.length
  blank : ∀ c ∈ (s.take q).drop p, IsBlank c
  stop : ∀ c ∈ (s.drop q).head?, ¬ IsBlank c

lemma isBlank_iff (c : Char) : Lexeme.isBlank c ↔ IsBlank c := by
  simp [Lexeme.isBlank, IsBlank, or_assoc]

lemma skipBlanks_eq (file : String) {source : String} {p : Nat} (hp : p ≤ source.toList.length) :
    ∃ q, FirstNonBlank source.toList p q ∧
      ((Cursor.start file source).forward p).skipBlanks = (Cursor.start file source).forward q := by
  obtain ⟨w, r, hs, ht, -, hw, hr⟩ := exists_run Lexeme.isBlank (source.toList.drop p)
  have hlen := congrArg List.length hs
  rw [List.length_drop, List.length_append] at hlen
  refine ⟨p + w.length, ⟨by omega, by omega, fun c hc => ?_, fun c hc => ?_⟩, ?_⟩
  · rw [List.drop_take, hs, Nat.add_sub_cancel_left, List.take_left] at hc
    exact (isBlank_iff c).mp (hw c hc)
  · rw [← List.drop_drop, hs, List.drop_left] at hc
    rw [← isBlank_iff, hr c hc]
    exact Bool.false_ne_true
  · rw [Cursor.skipBlanks, Cursor.rest_start_forward, ht, Cursor.forward_forward]

/-- From every position of every text: blanks are passed up to the first other character; there the
end of input, a token or a defect is found, and each of them exactly where its class says so. -/
theorem next_lexes (file source : String) (p : Nat) :
    let c := Cursor.start file source
    let s := source.toList
    ∃ q, FirstNonBlank s (min p s.length) q ∧
      (∀ t d, (c.forward p).next = .ok t d ↔
        ((q = s.length ∧ t.lexeme = .eof) ∨ Begins (s.drop q) t.kind t.text.toList) ∧
          t.location = Location.behind file (s.take q) ∧ d = c.forward (q + t.text.length)) ∧
      ∀ f d, (c.forward p).next = .error f d ↔
        ∃ n, Fails (s.drop q) f.defect n ∧ f.location = Location.behind file (s.take (q + n)) ∧
          d = c.forward (q + n) ∧ f.sourceLine = d.currentLine := by
  dsimp only
  obtain ⟨q, hq, hskip⟩ := skipBlanks_eq file (p := min p source.toList.length)
    (Nat.min_le_right _ _)
  have hmin := Cursor.forward_min p (Cursor.start file source)
  change (Cursor.start file source).forward (min p source.toList.length) = _ at hmin
  rw [hmin] at hskip
  have hnil : source.toList.drop q = [] ↔ q = source.toList.length := by
    rw [List.drop_eq_nil_iff]
    exact ⟨Nat.le_antisymm hq.le_length, Nat.le_of_eq ∘ Eq.symm⟩
  refine ⟨q, hq, fun t d => ?_, fun f d => ?_⟩
  · rw [next_eq_ok_iff, hskip, Cursor.rest_start_forward, Cursor.location_start_forward,
      Cursor.forward_forward, hnil]
  · rw [next_eq_error_iff, hskip, Cursor.rest_start_forward]
    refine exists_congr fun n => and_congr_right fun _ => ?_
    rw [Cursor.forward_forward, ← Cursor.location_start_forward]
    constructor
    · rintro ⟨rfl, hl, hline⟩
      exact ⟨hl, rfl, hline⟩
    · rintro ⟨hl, rfl, hline⟩
      exact ⟨rfl, hl, hline⟩

end Lexis

end TinyC

import Mathlib.Data.List.Chain
import Mathlib.Tactic.Common
import TinyC.Proofs.Token.Tiling

namespace TinyC

/-- Written without a gap, lexemes of these kinds would be cut as one. -/
def Kind.merges : Kind → Kind → Bool
  | keyword, k => k = keyword || k = identifier || k = intLiteral
  | identifier, k => k = keyword || k = identifier || k = intLiteral
  | intLiteral, k => k = intLiteral
  | _, _ => false

namespace Lexis

def Closes : Kind → List Char → Prop
  | .keyword, r => ∀ c ∈ r.head?, ¬ Lexeme.isWordPart c
  | .identifier, r => ∀ c ∈ r.head?, ¬ Lexeme.isWordPart c
  | .intLiteral, r => ∀ c ∈ r.head?, ¬ c.isDigit ∧ c ≠ '.'
  | _, _ => True

variable {s l r : List Char} {k : Kind}

lemma IsWord.longest (hl : IsWord l) (hr : ∀ c ∈ r.head?, ¬ Lexeme.isWordPart c) :
    Longest IsWord (l ++ r) l := by
  apply longest_of_next hl (List.prefix_append l r)
  intro x m hx hm hw
  apply hr x (append_singleton_prefix_iff.mp hx)
  exact (isWordPart_iff x).mpr (hw.2 x (hm.subset (by simp)))

lemma IsNumber.longest (hl : IsNumber l) (hr : ∀ c ∈ r.head?, ¬ c.isDigit ∧ c ≠ '.') :
    Longest IsNumber (l ++ r) l := by
  apply longest_number hl (List.prefix_append l r)
  intro x hx
  obtain ⟨hd, hp⟩ := hr x (append_singleton_prefix_iff.mp hx)
  exact ⟨hd, fun h => absurd h hp⟩

lemma Shortest.append {P : List Char → Prop} (h : Shortest P s l) : Shortest P (l ++ r) l := by
  refine ⟨h.1, List.prefix_append l r, fun m hm hmr => ?_⟩
  by_contra hlt
  have hml := List.prefix_of_prefix_length_le hmr (List.prefix_append l r) (by omega)
  exact hlt (h.2.2 m hm (hml.trans h.2.1))

lemma Begins.append (h : Begins s k l) (hr : Closes k r) : Begins (l ++ r) k l := by
  cases h with
  | delimiter hc => exact .delimiter hc
  | operator hc => exact .operator hc
  | keyword hl hk => exact .keyword (hl.1.longest hr) hk
  | identifier hl hk => exact .identifier (hl.1.longest hr) hk
  | number hl hdot =>
    refine .number (hl.1.longest hr) fun h => ?_
    exact (hr '.' (append_singleton_prefix_iff.mp h)).2 rfl
  | character hc => exact .character hc
  | string hl => exact .string hl.append

def marks : List Char :=
  ['(', ')', '{', '}', ';', '=', '+', '-', '*', '/', '~', '!', '\'', '"']

def StartsKind (c : Char) : Kind → Prop
  | .keyword => StartsWord c
  | .identifier => StartsWord c
  | .intLiteral => c.isDigit
  | _ => c ∈ marks

lemma Begins.exists_head (h : Begins s k l) : ∃ c r, l = c :: r ∧ StartsKind c k := by
  cases h with
  | delimiter hc => cases hc <;> exact ⟨_, _, rfl, by simp [StartsKind, marks]⟩
  | @operator c r hc =>
    refine ⟨c, [], rfl, ?_⟩
    simp only [IsOperator, List.mem_cons, List.not_mem_nil, or_false] at hc
    simp only [StartsKind, marks, List.mem_cons]
    tauto
  | keyword hl => exact exists_cons_of_prefix hl.1.1 (List.prefix_refl l)
  | identifier hl => exact exists_cons_of_prefix hl.1.1 (List.prefix_refl l)
  | number hl => exact exists_cons_of_prefix hl.1.1 (List.prefix_refl l)
  | character => exact ⟨_, _, rfl, by simp [StartsKind, marks]⟩
  | string hl =>
    obtain ⟨body, rfl⟩ := hl.1.1
    exact ⟨_, _, rfl, by simp [StartsKind, marks]⟩

lemma not_isBlank_of_mem_marks : ∀ c ∈ marks, ¬ IsBlank c := by
  simp [marks, IsBlank]

lemma not_isWordPart_of_mem_marks : ∀ c ∈ marks, ¬ Lexeme.isWordPart c := by
  simp [marks, Lexeme.isWordPart]

lemma isWordPart_of_isDigit {c : Char} (h : c.isDigit) : Lexeme.isWordPart c :=
  (isWordPart_iff c).mpr (.inr (.inl h))

lemma IsBlank.not_isWordPart {c : Char} (h : IsBlank c) : ¬ Lexeme.isWordPart c := by
  simp only [IsBlank, List.mem_cons, List.not_mem_nil, or_false] at h
  rcases h with rfl | rfl | rfl | rfl <;> decide

lemma StartsKind.not_isBlank {c : Char} (h : StartsKind c k) : ¬ IsBlank c := by
  intro hb
  have hw := hb.not_isWordPart
  cases k with
  | keyword => exact hw (StartsWord.isWordPart h)
  | identifier => exact hw (StartsWord.isWordPart h)
  | intLiteral => exact hw (isWordPart_of_isDigit h)
  | _ => exact not_isBlank_of_mem_marks c h hb

lemma closes_of_not_isWordPart {c : Char} (h : ¬ Lexeme.isWordPart c) (hp : c ≠ '.') :
    Closes k (c :: r) := by
  have hd : ¬ c.isDigit := fun hd => h (isWordPart_of_isDigit hd)
  cases k <;> simp [Closes, h, hd, hp]

lemma closes_of_startsWord {c : Char} (h : StartsWord c) (hm : k.merges .identifier = false) :
    Closes k (c :: r) := by
  have hd : ¬ c.isDigit := fun hd => not_startsWord_of_isDigit hd h
  have hp : c ≠ '.' := by
    rintro rfl
    revert h
    rw [StartsWord]
    decide
  cases k with
  | keyword => cases hm
  | identifier => cases hm
  | intLiteral => simp [Closes, hd, hp]
  | _ => trivial

lemma closes_of_mem_marks {c : Char} (h : c ∈ marks) : Closes k (c :: r) := by
  apply closes_of_not_isWordPart (not_isWordPart_of_mem_marks c h)
  rintro rfl
  revert h
  decide

lemma StartsKind.closes {c : Char} {k' : Kind} (h : StartsKind c k') (hm : k.merges k' = false) :
    Closes k (c :: r) := by
  cases k' with
  | keyword => exact closes_of_startsWord h (by cases k <;> exact hm)
  | identifier => exact closes_of_startsWord h hm
  | intLiteral =>
    cases k with
    | keyword => cases hm
    | identifier => cases hm
    | intLiteral => cases hm
    | _ => trivial
  | _ => exact closes_of_mem_marks h

end Lexis

open Lexis

def layout (ps : List (List Char × Lexeme)) : List Char :=
  ps.flatMap fun p => p.1 ++ p.2.text.toList

@[simp] lemma layout_nil : layout [] = [] := rfl

@[simp] lemma layout_cons (w : List Char) (l : Lexeme) (ps : List (List Char × Lexeme)) :
    layout ((w, l) :: ps) = w ++ l.text.toList ++ layout ps := rfl

@[simp] lemma layout_append (ps qs : List (List Char × Lexeme)) :
    layout (ps ++ qs) = layout ps ++ layout qs :=
  List.flatMap_append

structure Spaced (ps : List (List Char × Lexeme)) : Prop where
  valid : ∀ p ∈ ps, Valid p.2
  blank : ∀ p ∈ ps, ∀ c ∈ p.1, IsBlank c
  apart : ps.IsChain fun p q => p.2.kind.merges q.2.kind → q.1 ≠ []

lemma closes_of_blank {k : Kind} {w : List Char} (hw : ∀ c ∈ w, IsBlank c) (hne : w ≠ [])
    (r : List Char) : Closes k (w ++ r) := by
  cases w with
  | nil => exact absurd rfl hne
  | cons c w =>
    have hc := hw c (by simp)
    apply closes_of_not_isWordPart hc.not_isWordPart
    rintro rfl
    revert hc
    rw [IsBlank]
    decide

lemma closes_nil (k : Kind) : Closes k [] := by
  cases k <;> simp [Closes]

namespace Spaced

variable {p : List Char × Lexeme} {ps : List (List Char × Lexeme)} {w : List Char}

lemma tail (h : Spaced (p :: ps)) : Spaced ps where
  valid q hq := h.valid q (List.mem_cons_of_mem p hq)
  blank q hq := h.blank q (List.mem_cons_of_mem p hq)
  apart := h.apart.tail

lemma append {qs : List (List Char × Lexeme)} (h : Spaced ps) (h' : Spaced qs)
    (hpq : ∀ p ∈ ps.getLast?, ∀ q ∈ qs.head?, p.2.kind.merges q.2.kind → q.1 ≠ []) :
    Spaced (ps ++ qs) where
  valid := List.forall_mem_append.mpr ⟨h.valid, h'.valid⟩
  blank := List.forall_mem_append.mpr ⟨h.blank, h'.blank⟩
  apart := h.apart.append h'.apart hpq

lemma closes (h : Spaced (p :: ps)) (hw : ∀ c ∈ w, IsBlank c) :
    Closes p.2.kind (layout ps ++ w) := by
  cases ps with
  | nil =>
    by_cases hne : w = []
    · subst hne
      exact closes_nil _
    · simpa using closes_of_blank hw hne []
  | cons q ps =>
    obtain ⟨g, l⟩ := q
    rw [layout_cons, List.append_assoc, List.append_assoc]
    by_cases hg : g = []
    · subst hg
      obtain ⟨s, hs⟩ := h.valid ([], l) (by simp)
      obtain ⟨c, r, hl, hc⟩ := hs.exists_head
      have hm : p.2.kind.merges l.kind = false := by
        have hR := (List.isChain_cons_cons.mp h.apart).1
        simpa using hR
      rw [hl]
      exact hc.closes hm
    · exact closes_of_blank (h.blank (g, l) (by simp)) hg _

end Spaced

namespace Cursor

lemma rest_skipBlanks_of_eq {c : Cursor} {w r : List Char} (hc : c.rest = w ++ r)
    (hw : ∀ x ∈ w, IsBlank x) (hr : ∀ x ∈ r.head?, ¬ IsBlank x) : c.skipBlanks.rest = r := by
  have hw' : ∀ x ∈ w, Lexeme.isBlank x := fun x hx => (isBlank_iff x).mpr (hw x hx)
  rw [rest_skipBlanks, hc, List.dropWhile_append_of_pos hw']
  cases r with
  | nil => rfl
  | cons x r =>
    have hx : ¬ Lexeme.isBlank x := fun hx => hr x rfl ((isBlank_iff x).mp hx)
    exact List.dropWhile_cons_of_neg hx

lemma rest_skipBlanks_layout {c : Cursor} {g r : List Char} {l : Lexeme} (hl : Valid l)
    (hg : ∀ x ∈ g, IsBlank x) (hc : c.rest = g ++ l.text.toList ++ r) :
    c.skipBlanks.rest = l.text.toList ++ r := by
  obtain ⟨s, hs⟩ := hl
  obtain ⟨x, t, ht, hx⟩ := hs.exists_head
  apply rest_skipBlanks_of_eq (w := g)
  · rw [hc, List.append_assoc]
  · exact hg
  · rw [ht]
    rintro y ⟨⟩
    exact hx.not_isBlank

lemma scan_layout {ps : List (List Char × Lexeme)} {w : List Char} (h : Spaced ps)
    (hw : ∀ x ∈ w, IsBlank x) {c : Cursor} (hc : c.rest = layout ps ++ w) :
    c.scan.fault = none ∧ c.scan.tokens.map Token.lexeme = ps.map Prod.snd ++ [.eof] := by
  induction ps generalizing c with
  | nil =>
    have hrest : c.skipBlanks.rest = [] :=
      rest_skipBlanks_of_eq (by simpa using hc) hw (by simp)
    have hn : c.next = .ok ⟨.eof, c.skipBlanks.location⟩ (c.skipBlanks.forward 0) :=
      next_eq_ok_iff.mpr ⟨.inl ⟨hrest, rfl⟩, rfl, rfl⟩
    rw [scan_of_eof hn rfl]
    exact ⟨rfl, rfl⟩
  | cons p ps ih =>
    obtain ⟨g, l⟩ := p
    obtain ⟨s, hs⟩ := h.valid (g, l) (by simp)
    have hb := hs.append (h.closes hw)
    have hrest : c.skipBlanks.rest = l.text.toList ++ (layout ps ++ w) := by
      apply rest_skipBlanks_layout (h.valid (g, l) (by simp)) (h.blank (g, l) (by simp))
      rw [hc, layout_cons, List.append_assoc]
    have hn : c.next = .ok ⟨l, c.skipBlanks.location⟩ (c.skipBlanks.forward l.text.length) :=
      next_eq_ok_iff.mpr ⟨.inr (hrest ▸ hb), rfl, rfl⟩
    have hd : (c.skipBlanks.forward l.text.length).rest = layout ps ++ w := by
      rw [rest_forward, hrest, ← String.length_toList, List.drop_left]
    obtain ⟨hf, ht⟩ := ih h.tail hd
    rw [scan_of_token hn hb.kind_ne_eof]
    exact ⟨hf, by simp [ht]⟩

end Cursor

end TinyC

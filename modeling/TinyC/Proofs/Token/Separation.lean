import Mathlib.Tactic.Common
import TinyC.Proofs.Token.Layout

namespace TinyC

namespace Lexis

variable {l r : List Char} {k : Kind} {c : Char}

lemma IsWord.append_singleton (hl : IsWord l) (hc : Lexeme.isWordPart c) : IsWord (l ++ [c]) := by
  obtain ⟨⟨x, hx, hs⟩, hall⟩ := hl
  refine ⟨⟨x, by simp [List.head?_append, Option.mem_def.mp hx], hs⟩, fun y hy => ?_⟩
  rcases List.mem_append.mp hy with hy | hy
  · exact hall y hy
  · obtain rfl := List.mem_singleton.mp hy
    exact (isWordPart_iff y).mp hc

lemma IsNumber.append_singleton (hl : IsNumber l) (hc : c.isDigit) : IsNumber (l ++ [c]) := by
  obtain ⟨⟨x, hx, hs⟩, hall, hcount⟩ := hl
  refine ⟨⟨x, by simp [List.head?_append, Option.mem_def.mp hx], hs⟩, fun y hy => ?_, ?_⟩
  · rcases List.mem_append.mp hy with hy | hy
    · exact hall y hy
    · obtain rfl := List.mem_singleton.mp hy
      exact .inl hc
  · have hdot : c ≠ '.' := by
      rintro rfl
      revert hc
      decide
    rw [List.count_append, List.count_singleton]
    simpa [hdot] using hcount

lemma Longest.not_append_singleton {P : List Char → Prop} (h : Longest P (l ++ r) l)
    (hc : c ∈ r.head?) : ¬ P (l ++ [c]) := by
  intro hp
  have hle := h.2.2 _ hp (append_singleton_prefix_iff.mpr hc)
  rw [List.length_append, List.length_singleton] at hle
  omega

lemma Longest.closes_word (h : Longest IsWord (l ++ r) l) :
    ∀ c ∈ r.head?, ¬ Lexeme.isWordPart c := by
  intro c hc hp
  exact h.not_append_singleton hc (h.1.append_singleton hp)

lemma Begins.closes (h : Begins (l ++ r) k l) : Closes k r := by
  generalize hs : l ++ r = s at h
  cases h with
  | delimiter hc => cases hc <;> trivial
  | operator => trivial
  | keyword hl =>
    subst hs
    exact hl.closes_word
  | identifier hl =>
    subst hs
    exact hl.closes_word
  | number hl hdot =>
    subst hs
    intro c hc
    refine ⟨fun hd => hl.not_append_singleton hc (hl.1.append_singleton hd), ?_⟩
    rintro rfl
    exact hdot (append_singleton_prefix_iff.mpr hc)
  | character => trivial
  | string => trivial

lemma StartsKind.not_closes {k' : Kind} (h : StartsKind c k') (hm : k.merges k' = true) :
    ¬ Closes k (c :: r) := by
  have hword : k' = .keyword ∨ k' = .identifier ∨ k' = .intLiteral → Lexeme.isWordPart c := by
    rintro (rfl | rfl | rfl)
    · exact StartsWord.isWordPart h
    · exact StartsWord.isWordPart h
    · exact isWordPart_of_isDigit h
  cases k with
  | keyword =>
    intro hcl
    exact hcl c rfl (hword (by simpa [Kind.merges, or_assoc] using hm))
  | identifier =>
    intro hcl
    exact hcl c rfl (hword (by simpa [Kind.merges, or_assoc] using hm))
  | intLiteral =>
    obtain rfl : k' = .intLiteral := by simpa [Kind.merges] using hm
    intro hcl
    exact (hcl c rfl).1 h
  | _ => cases hm

end Lexis

open Lexis

lemma ne_nil_of_closes {k : Kind} {p : List Char × Lexeme} {ps : List (List Char × Lexeme)}
    {w : List Char} (hp : Valid p.2) (h : Closes k (layout (p :: ps) ++ w))
    (hm : k.merges p.2.kind = true) : p.1 ≠ [] := by
  obtain ⟨g, l⟩ := p
  rintro rfl
  obtain ⟨s, hs⟩ := hp
  obtain ⟨c, r, hl, hc⟩ := hs.exists_head
  rw [layout_cons, hl] at h
  exact hc.not_closes hm h

namespace Cursor

lemma next_layout {c d : Cursor} {t : Token} {g r : List Char} {l : Lexeme} (hl : Valid l)
    (hg : ∀ x ∈ g, IsBlank x) (hc : c.rest = g ++ l.text.toList ++ r) (h : c.next = .ok t d)
    (ht : t.lexeme = l) : Closes l.kind r ∧ d.rest = r := by
  subst ht
  have hrest := rest_skipBlanks_layout hl hg hc
  obtain ⟨s, hs⟩ := hl
  obtain ⟨⟨-, he⟩ | hb, -, rfl⟩ := next_eq_ok_iff.mp h
  · exact absurd (congrArg Lexeme.kind he) hs.kind_ne_eof
  · rw [hrest] at hb
    refine ⟨Begins.closes hb, ?_⟩
    rw [rest_forward, hrest, ← String.length_toList]
    exact List.drop_left

lemma apart_of_scan {ps : List (List Char × Lexeme)} {w : List Char}
    (hvalid : ∀ p ∈ ps, Valid p.2) (hblank : ∀ p ∈ ps, ∀ x ∈ p.1, IsBlank x) {c : Cursor}
    (hc : c.rest = layout ps ++ w)
    (h : c.scan.tokens.map Token.lexeme = ps.map Prod.snd ++ [.eof]) :
    ps.IsChain fun p q => p.2.kind.merges q.2.kind → q.1 ≠ [] := by
  induction ps generalizing c with
  | nil => exact .nil
  | cons p ps ih =>
    obtain ⟨g, l⟩ := p
    have hl := hvalid (g, l) (by simp)
    rw [layout_cons, List.append_assoc] at hc
    cases hn : c.next with
    | error f d =>
      rw [scan_of_error hn] at h
      cases h
    | ok t d =>
      by_cases ht : t.kind = .eof
      · rw [scan_of_eof hn ht] at h
        obtain ⟨s, hs⟩ := hl
        exact absurd ((congrArg Lexeme.kind (List.cons.inj h).1).symm.trans ht) hs.kind_ne_eof
      · rw [scan_of_token hn ht] at h
        obtain ⟨htl, hts⟩ := List.cons.inj h
        obtain ⟨hclose, hd⟩ := next_layout hl (hblank (g, l) (by simp)) hc hn htl
        have hchain := ih (fun p hp => hvalid p (by simp [hp])) (fun p hp => hblank p (by simp [hp]))
          hd hts
        cases ps with
        | nil => exact .singleton _
        | cons q ps =>
          have hq := hvalid q (by simp)
          exact .cons_cons (fun hm => ne_nil_of_closes hq hclose hm) hchain

end Cursor

/-- A text made of lexemes and blank gaps is scanned into just these lexemes exactly if there is a
gap wherever a word stands before a word or a number, and a number before a number. -/
theorem scan_layout_iff (file : String) {ps : List (List Char × Lexeme)} {w : List Char}
    (hvalid : ∀ p ∈ ps, Valid p.2) (hblank : ∀ p ∈ ps, ∀ c ∈ p.1, IsBlank c)
    (hw : ∀ c ∈ w, IsBlank c) :
    let r := (Cursor.start file (String.ofList (layout ps ++ w))).scan
    (r.fault = none ∧ r.tokens.map Token.lexeme = ps.map Prod.snd ++ [.eof]) ↔
      ps.IsChain fun p q => p.2.kind.merges q.2.kind → q.1 ≠ [] := by
  have hrest : (Cursor.start file (String.ofList (layout ps ++ w))).rest = layout ps ++ w :=
    String.toList_ofList
  constructor
  · rintro ⟨-, h⟩
    exact Cursor.apart_of_scan hvalid hblank hrest h
  · intro h
    exact Cursor.scan_layout ⟨hvalid, hblank, h⟩ hw hrest

theorem scan_layout_iff_words :
    let ps (gap : List Char) : List (List Char × Lexeme) :=
      [(['\t'], ⟨.keyword, "int"⟩), (gap, ⟨.identifier, "f1"⟩), ([], ⟨.openParen, "("⟩),
        ([], ⟨.charLiteral, "'''"⟩), ([], ⟨.intLiteral, "1."⟩), ([], ⟨.identifier, "a:b"⟩)]
    let r (gap : List Char) := (Cursor.start "a.c" (String.ofList (layout (ps gap) ++ ['\r']))).scan
    (∀ gap, ∀ p ∈ ps gap, Valid p.2) ∧
      ((r [' ']).fault = none ∧
        (r [' ']).tokens.map Token.lexeme = (ps [' ']).map Prod.snd ++ [.eof]) ∧
      ¬ ((r []).fault = none ∧ (r []).tokens.map Token.lexeme = (ps []).map Prod.snd ++ [.eof]) := by
  intro ps r
  have hvalid : ∀ gap, ∀ p ∈ ps gap, Valid p.2 := by
    intro gap p hp
    apply valid_of_ofChars
    simp only [ps, List.mem_cons, List.not_mem_nil, or_false] at hp
    rcases hp with rfl | rfl | rfl | rfl | rfl | rfl
    all_goals
      dsimp only
      decide
  have hblank : ∀ p ∈ ps [' '], ∀ c ∈ p.1, IsBlank c := by
    simp [ps, IsBlank]
  have hblank' : ∀ p ∈ ps [], ∀ c ∈ p.1, IsBlank c := by
    simp [ps, IsBlank]
  have hw : ∀ c ∈ ['\r'], IsBlank c := by
    simp [IsBlank]
  refine ⟨hvalid, (scan_layout_iff "a.c" (hvalid _) hblank hw).mpr ?_,
    mt (scan_layout_iff "a.c" (hvalid _) hblank' hw).mp ?_⟩
  · simp [ps, Kind.merges]
  · simp [ps, Kind.merges]

end TinyC

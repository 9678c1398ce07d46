import Mathlib.Tactic.Common
import TinyC.Proofs.Token.Lexis

namespace TinyC

namespace Lexis

lemma Begins.prefix {s l : List Char} {k : Kind} (h : Begins s k l) : l <+: s := by
  cases h with
  | delimiter => exact List.prefix_append [_] _
  | operator => exact List.prefix_append [_] _
  | keyword h => exact h.2.1
  | identifier h => exact h.2.1
  | number h => exact h.2.1
  | character => exact List.prefix_append [_, _, _] _
  | string h => exact h.2.1

lemma Begins.ne_nil {s l : List Char} {k : Kind} (h : Begins s k l) : l ≠ [] := by
  have hp := Reading.length_pos (ofChars_of_begins h)
  exact List.ne_nil_of_length_pos hp

lemma Begins.kind_ne_eof {s l : List Char} {k : Kind} (h : Begins s k l) : k ≠ .eof := by
  cases h with
  | delimiter h => cases h <;> decide
  | _ => decide

lemma IsWord.notMem_newline {l : List Char} (h : IsWord l) : '\n' ∉ l := by
  intro hn
  have := h.2 _ hn
  revert this
  decide

lemma IsNumber.notMem_newline {l : List Char} (h : IsNumber l) : '\n' ∉ l := by
  intro hn
  have := h.2.1 _ hn
  revert this
  decide

lemma Begins.notMem_newline {s l : List Char} {k : Kind} (h : Begins s k l) : '\n' ∉ l := by
  cases h with
  | delimiter h => cases h <;> decide
  | @operator c r h =>
    simp only [List.mem_singleton]
    rintro rfl
    revert h
    rw [IsOperator]
    decide
  | keyword h => exact h.1.notMem_newline
  | identifier h => exact h.1.notMem_newline
  | number h => exact h.1.notMem_newline
  | character h => simp [Ne.symm h]
  | string h => exact h.1.2

end Lexis

namespace Cursor

lemma scan_of_error {c d : Cursor} {f : LexicalFault} (h : c.next = .error f d) :
    c.scan = ⟨[], some f, d⟩ := by
  fun_cases scan c with
  | case1 f' d' h' => cases h.symm.trans h'; rfl
  | case2 t' d' h' => cases h.symm.trans h'
  | case3 t' d' h' => cases h.symm.trans h'

lemma scan_of_eof {c d : Cursor} {t : Token} (h : c.next = .ok t d) (ht : t.kind = .eof) :
    c.scan = ⟨[t], none, d⟩ := by
  fun_cases scan c with
  | case1 f' d' h' => cases h.symm.trans h'
  | case2 t' d' h' => cases h.symm.trans h'; rfl
  | case3 t' d' h' ht' => cases h.symm.trans h'; exact absurd ht ht'

lemma scan_of_token {c d : Cursor} {t : Token} (h : c.next = .ok t d) (ht : t.kind ≠ .eof) :
    c.scan = ⟨t :: d.scan.tokens, d.scan.fault, d.scan.cursor⟩ := by
  fun_cases scan c with
  | case1 f' d' h' => cases h.symm.trans h'
  | case2 t' d' h' ht' => cases h.symm.trans h'; exact absurd ht' ht
  | case3 t' d' h' => cases h.symm.trans h'; rfl

lemma source_next {c d : Cursor} {t : Token} (h : c.next = .ok t d) : d.source = c.source := by
  simp only [next] at h
  split at h <;> cases h
  all_goals simp only [skipBlanks, source_forward]

end Cursor

def spread (ps : List (List Char × Token)) : List Char :=
  ps.flatMap fun p => p.1 ++ p.2.text.toList

@[simp] lemma spread_nil : spread [] = [] := rfl

@[simp] lemma spread_cons (w : List Char) (t : Token) (ps : List (List Char × Token)) :
    spread ((w, t) :: ps) = w ++ t.text.toList ++ spread ps := rfl

/-- A text `s` that stands behind a text `u` is tiled by blanks and tokens up to a rest. -/
structure Tiling (file : String) (u s : List Char) (ps : List (List Char × Token))
    (w rest : List Char) : Prop where
  text : s = spread ps ++ w ++ rest
  blank : ∀ p ∈ ps, ∀ c ∈ p.1, Lexis.IsBlank c
  blank_last : ∀ c ∈ w, Lexis.IsBlank c
  stop : ∀ c ∈ rest.head?, ¬ Lexis.IsBlank c
  kind : ∀ p ∈ ps, p.2.kind ≠ .eof
  lexeme : ∀ p ∈ ps, p.2.text.toList ≠ [] ∧ '\n' ∉ p.2.text.toList
  place : ∀ before p after, ps = before ++ p :: after →
    p.2.location = Location.behind file (u ++ spread before ++ p.1)

namespace Tiling

variable {file : String} {u s w rest : List Char} {ps : List (List Char × Token)}

lemma nil (hw : ∀ c ∈ w, Lexis.IsBlank c) (hr : ∀ c ∈ rest.head?, ¬ Lexis.IsBlank c) :
    Tiling file u (w ++ rest) [] w rest where
  text := rfl
  blank := by simp
  blank_last := hw
  stop := hr
  kind := by simp
  lexeme := by simp
  place := by simp

lemma cons {v : List Char} {t : Token} (hv : ∀ c ∈ v, Lexis.IsBlank c) (hk : t.kind ≠ .eof)
    (ht : t.text.toList ≠ [] ∧ '\n' ∉ t.text.toList)
    (hl : t.location = Location.behind file (u ++ v))
    (h : Tiling file (u ++ v ++ t.text.toList) s ps w rest) :
    Tiling file u (v ++ t.text.toList ++ s) ((v, t) :: ps) w rest where
  text := by simp [h.text]
  blank := by simpa using ⟨hv, by simpa using h.blank⟩
  blank_last := h.blank_last
  stop := h.stop
  kind := by simpa using ⟨hk, by simpa using h.kind⟩
  lexeme := by simpa using ⟨by simpa using ht, by simpa using h.lexeme⟩
  place := by
    intro before p after he
    cases before with
    | nil =>
      obtain ⟨rfl, rfl⟩ := List.cons.inj he
      simpa using hl
    | cons q before =>
      obtain ⟨rfl, hps⟩ := List.cons.inj he
      simpa only [spread_cons, List.append_assoc] using h.place before p after hps

lemma length_le (h : Tiling file u s ps w rest) : ps.length ≤ s.length := by
  have hs : ps.length ≤ (spread ps).length := by
    have hl := h.lexeme
    clear h
    induction ps with
    | nil => simp
    | cons p ps ih =>
      obtain ⟨v, t⟩ := p
      have ht := List.length_pos_iff.mpr (hl (v, t) (by simp)).1
      have hps := ih fun p hp => hl p (List.mem_cons_of_mem _ hp)
      simp only [spread_cons, List.length_cons, List.length_append] at ht ⊢
      omega
  have ht := congrArg List.length h.text
  simp only [List.length_append] at ht
  omega

end Tiling

namespace Cursor

lemma rest_eq (c : Cursor) (n : Nat) : c.rest = c.rest.take n ++ (c.forward n).rest := by
  rw [rest_forward, List.take_append_drop]

lemma reverse_passed_forward (c : Cursor) (n : Nat) :
    (c.forward n).passed.reverse = c.passed.reverse ++ c.rest.take n := by
  rw [passed_forward, List.reverse_append, List.reverse_reverse]

lemma skipBlanks_spec (c : Cursor) :
    ∃ w, (∀ x ∈ w, Lexis.IsBlank x) ∧ (∀ x ∈ c.skipBlanks.rest.head?, ¬ Lexis.IsBlank x) ∧
      c.rest = w ++ c.skipBlanks.rest ∧ c.skipBlanks.passed.reverse = c.passed.reverse ++ w := by
  obtain ⟨w, r, hs, ht, hd, hw, hr⟩ := Lexis.exists_run Lexeme.isBlank c.rest
  have hk : c.rest.take (c.rest.takeWhile Lexeme.isBlank).length = w := by
    rw [ht, hs, List.take_left]
  refine ⟨w, fun x hx => (Lexis.isBlank_iff x).mp (hw x hx), fun x hx => ?_, ?_, ?_⟩
  · rw [rest_skipBlanks, hd] at hx
    rw [← Lexis.isBlank_iff, hr x hx]
    exact Bool.false_ne_true
  · nth_rewrite 1 [rest_eq c (c.rest.takeWhile Lexeme.isBlank).length]
    rw [hk, skipBlanks]
  · rw [skipBlanks, reverse_passed_forward, hk]

lemma skipBlanks_placed {c : Cursor} (h : c.Placed) : c.skipBlanks.Placed :=
  forward_placed _ h

lemma location_skipBlanks {c : Cursor} (h : c.Placed) {w : List Char}
    (hw : c.skipBlanks.passed.reverse = c.passed.reverse ++ w) :
    c.skipBlanks.location = Location.behind c.file (c.passed.reverse ++ w) := by
  rw [skipBlanks_placed h, hw, skipBlanks, file_forward]

lemma next_token {c d : Cursor} {t : Token} (hc : c.Placed) (h : c.next = .ok t d)
    (ht : t.kind ≠ .eof) :
    ∃ w, (∀ x ∈ w, Lexis.IsBlank x) ∧ (t.text.toList ≠ [] ∧ '\n' ∉ t.text.toList) ∧
      t.location = Location.behind c.file (c.passed.reverse ++ w) ∧
      c.rest = w ++ t.text.toList ++ d.rest ∧
      d.passed.reverse = c.passed.reverse ++ w ++ t.text.toList ∧ d.file = c.file ∧ d.Placed := by
  obtain ⟨⟨-, he⟩ | hb, hl, rfl⟩ := Lexis.next_eq_ok_iff.mp h
  · exact absurd (congrArg Lexeme.kind he) ht
  obtain ⟨w, hw, -, hrest, hpassed⟩ := skipBlanks_spec c
  have htake : c.skipBlanks.rest.take t.text.length = t.text.toList := by
    rw [← String.length_toList]
    exact (List.prefix_iff_eq_take.mp hb.prefix).symm
  refine ⟨w, hw, ⟨hb.ne_nil, hb.notMem_newline⟩, ?_, ?_, ?_, ?_, ?_⟩
  · rw [hl, location_skipBlanks hc hpassed]
  · nth_rewrite 1 [hrest]
    rw [rest_eq c.skipBlanks t.text.length, htake, List.append_assoc]
  · rw [reverse_passed_forward, hpassed, htake]
  · rw [file_forward, skipBlanks, file_forward]
  · exact forward_placed _ (skipBlanks_placed hc)

lemma next_eof {c d : Cursor} {t : Token} (hc : c.Placed) (h : c.next = .ok t d)
    (ht : t.kind = .eof) :
    t = ⟨.eof, Location.behind c.file (c.passed.reverse ++ c.rest)⟩ ∧
      ∀ x ∈ c.rest, Lexis.IsBlank x := by
  obtain ⟨⟨hnil, he⟩ | hb, hl, -⟩ := Lexis.next_eq_ok_iff.mp h
  · obtain ⟨w, hw, -, hrest, hpassed⟩ := skipBlanks_spec c
    rw [hnil, List.append_nil] at hrest
    obtain ⟨lexeme, location⟩ := t
    rw [location_skipBlanks hc hpassed, ← hrest] at hl
    exact ⟨congrArg₂ Token.mk he hl, hrest ▸ hw⟩
  · exact absurd ht hb.kind_ne_eof

lemma next_fault {c d : Cursor} {f : LexicalFault} (hc : c.Placed) (h : c.next = .error f d) :
    ∃ w rest n, (∀ x ∈ w, Lexis.IsBlank x) ∧ (∀ x ∈ rest.head?, ¬ Lexis.IsBlank x) ∧
      c.rest = w ++ rest ∧ Lexis.Fails rest f.defect n ∧
      f.location = Location.behind c.file (c.passed.reverse ++ w ++ rest.take n) := by
  obtain ⟨n, hf, rfl, hl, -⟩ := Lexis.next_eq_error_iff.mp h
  obtain ⟨w, hw, hstop, hrest, hpassed⟩ := skipBlanks_spec c
  refine ⟨w, c.skipBlanks.rest, n, hw, hstop, hrest, hf, ?_⟩
  rw [hl, forward_placed n (skipBlanks_placed hc), reverse_passed_forward, hpassed, file_forward,
    skipBlanks, file_forward]

lemma scan_tiling (c : Cursor) (hc : c.Placed) :
    ∃ ps w rest, Tiling c.file c.passed.reverse c.rest ps w rest ∧
      ((c.scan.fault = none ∧ rest = [] ∧ c.scan.tokens =
          ps.map Prod.snd ++ [⟨.eof, Location.behind c.file (c.passed.reverse ++ c.rest)⟩]) ∨
        ∃ f n, c.scan.fault = some f ∧ c.scan.tokens = ps.map Prod.snd ∧
          Lexis.Fails rest f.defect n ∧ f.location =
            Location.behind c.file (c.passed.reverse ++ spread ps ++ w ++ rest.take n)) := by
  fun_induction scan c with
  | case1 c f d h =>
    obtain ⟨w, rest, n, hw, hstop, hrest, hf, hl⟩ := next_fault hc h
    refine ⟨[], w, rest, hrest ▸ .nil hw hstop, .inr ⟨f, n, rfl, rfl, hf, ?_⟩⟩
    simpa using hl
  | case2 c t d h ht =>
    obtain ⟨rfl, hblank⟩ := next_eof hc h ht
    have htile : Tiling c.file c.passed.reverse (c.rest ++ []) [] c.rest [] :=
      .nil hblank (by simp)
    rw [List.append_nil] at htile
    exact ⟨[], c.rest, [], htile, .inl ⟨rfl, rfl, rfl⟩⟩
  | case3 c t d h ht s ih =>
    obtain ⟨v, hv, hlex, hl, hrest, hpassed, hfile, hd⟩ := next_token hc h ht
    obtain ⟨ps, w, rest, htile, hend⟩ := ih hd
    rw [hfile, hpassed] at htile hend
    refine ⟨(v, t) :: ps, w, rest, hrest ▸ .cons hv ht hlex hl htile, ?_⟩
    simpa [hrest] using hend

/-- The tokens of every text tile it up to its end, where the end of input stands last, or up to a
defect. -/
theorem scan_tiles (file source : String) :
    let r := (start file source).scan
    ∃ ps w rest, Tiling file [] source.toList ps w rest ∧
      r.tokens.length ≤ source.toList.length + 1 ∧
      ((r.fault = none ∧ rest = [] ∧
          r.tokens = ps.map Prod.snd ++ [⟨.eof, Location.behind file source.toList⟩]) ∨
        ∃ f n, r.fault = some f ∧ r.tokens = ps.map Prod.snd ∧ Lexis.Fails rest f.defect n ∧
          f.location = Location.behind file (spread ps ++ w ++ rest.take n)) := by
  obtain ⟨ps, w, rest, htile, hend⟩ := scan_tiling _ (start_placed file source)
  have hlen := htile.length_le
  refine ⟨ps, w, rest, htile, ?_, hend⟩
  rcases hend with ⟨-, -, ht⟩ | ⟨f, n, -, ht, -⟩
  · rw [ht, List.length_append, List.length_map, List.length_singleton]
    exact Nat.add_le_add_right hlen 1
  · rw [ht, List.length_map]
    exact Nat.le_succ_of_le hlen

end Cursor

lemma Lexis.Begins.isNumber {s l : List Char} (h : Begins s .intLiteral l) : IsNumber l := by
  cases h with
  | delimiter h => cases h
  | number h => exact h.1

lemma Lexis.Begins.isWord {s l : List Char} (h : Begins s .identifier l) : IsWord l := by
  cases h with
  | delimiter h => cases h
  | identifier h => exact h.1

def Lexis.Valid (l : Lexeme) : Prop :=
  ∃ s, Begins s l.kind l.text.toList

lemma Lexis.valid_of_ofChars {l : Lexeme}
    (h : Reading.ofChars l.text.toList = .token l.kind l.text.toList) : Valid l :=
  ⟨_, ofChars_eq_token_iff.mp h⟩

def Token.Lexical (t : Token) : Prop :=
  t.kind = .eof ∨ ∃ s, Lexis.Begins s t.kind t.text.toList

lemma Cursor.lexical_of_mem_scan (c : Cursor) : ∀ t ∈ c.scan.tokens, t.Lexical := by
  fun_induction scan c with
  | case1 c f d h => simp
  | case2 c t d h ht => simpa using .inl ht
  | case3 c t d h ht s ih =>
    intro u hu
    rcases List.mem_cons.mp hu with rfl | hu
    · rcases (Lexis.next_eq_ok_iff.mp h).1 with ⟨-, he⟩ | hb
      · exact .inl (congrArg Lexeme.kind he)
      · exact .inr ⟨_, hb⟩
    · exact ih u hu

namespace Token.Lexical

variable {t : Token}

lemma notMem_newline (h : t.Lexical) (hk : t.kind ≠ .eof) : '\n' ∉ t.text.toList := by
  obtain hk' | ⟨s, hs⟩ := h
  · exact absurd hk' hk
  · exact hs.notMem_newline

lemma isDigit_of_mem (h : t.Lexical) (hk : t.kind = .intLiteral) (hd : '.' ∉ t.text.toList) :
    ∀ c ∈ t.text.toList, c.isDigit := by
  obtain hk' | ⟨s, hs⟩ := h
  · cases hk.symm.trans hk'
  · rw [hk] at hs
    intro c hc
    rcases hs.isNumber.2.1 c hc with hc' | rfl
    · exact hc'
    · exact absurd hc hd

lemma isWord (h : t.Lexical) (hk : t.kind = .identifier) : Lexis.IsWord t.text.toList := by
  obtain hk' | ⟨s, hs⟩ := h
  · cases hk.symm.trans hk'
  · exact (hk ▸ hs).isWord

end Token.Lexical

end TinyC

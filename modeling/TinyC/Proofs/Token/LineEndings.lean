import Mathlib.Tactic.Common
import TinyC.Proofs.Source.Lines
import TinyC.Proofs.Token.Separation

namespace TinyC

namespace Text

def withReturns (s : List Char) : List Char :=
  s.flatMap fun c => if c = '\n' then ['\r', '\n'] else [c]

@[simp] lemma withReturns_nil : withReturns [] = [] := rfl

@[simp] lemma withReturns_newline (s : List Char) :
    withReturns ('\n' :: s) = '\r' :: '\n' :: withReturns s := rfl

lemma withReturns_cons {c : Char} (h : c ≠ '\n') (s : List Char) :
    withReturns (c :: s) = c :: withReturns s := by
  simp [withReturns, h]

lemma withReturns_append (s t : List Char) :
    withReturns (s ++ t) = withReturns s ++ withReturns t :=
  List.flatMap_append

lemma withReturns_of_notMem {s : List Char} (h : '\n' ∉ s) : withReturns s = s := by
  induction s with
  | nil => rfl
  | cons c s ih =>
    rw [List.mem_cons, not_or] at h
    rw [withReturns_cons (Ne.symm h.1), ih h.2]

lemma count_withReturns (s : List Char) : (withReturns s).count '\n' = s.count '\n' := by
  induction s with
  | nil => rfl
  | cons c s ih =>
    by_cases hc : c = '\n'
    · subst hc
      rw [withReturns_newline, List.count_cons_of_ne (by decide), List.count_cons_self,
        List.count_cons_self, ih]
    · rw [withReturns_cons hc, List.count_cons_of_ne hc, List.count_cons_of_ne hc, ih]

lemma takeWhile_reverse_line (a : List Char) {b : List Char} (hb : '\n' ∉ b) :
    (a ++ '\n' :: b).reverse.takeWhile (· ≠ '\n') = b.reverse := by
  have hr : '\n' ∉ b.reverse := by simpa using hb
  rw [List.reverse_append, List.reverse_cons, List.append_assoc, takeWhile_ne_append hr,
    List.singleton_append, List.takeWhile_cons_of_neg (by simp), List.append_nil]

lemma takeWhile_reverse_withReturns (s : List Char) :
    (withReturns s).reverse.takeWhile (· ≠ '\n') = s.reverse.takeWhile (· ≠ '\n') := by
  rcases exists_last_line s with hs | ⟨a, b, rfl, hb⟩
  · rw [withReturns_of_notMem hs]
  · -- the last line has no line feed, so it stays as it is
    have hs : withReturns (a ++ '\n' :: b) = withReturns a ++ ['\r'] ++ '\n' :: b := by
      rw [withReturns_append, withReturns_newline, withReturns_of_notMem hb, List.append_assoc,
        List.singleton_append]
    rw [hs, takeWhile_reverse_line _ hb, takeWhile_reverse_line a hb]

lemma takeWhile_isBlank_withReturns (s : List Char) :
    (withReturns s).takeWhile Lexeme.isBlank = withReturns (s.takeWhile Lexeme.isBlank) := by
  induction s with
  | nil => rfl
  | cons c s ih =>
    by_cases hc : c = '\n'
    · subst hc
      rw [withReturns_newline, List.takeWhile_cons_of_pos rfl, List.takeWhile_cons_of_pos rfl,
        List.takeWhile_cons_of_pos rfl, withReturns_newline, ih]
    · rw [withReturns_cons hc]
      by_cases hb : Lexeme.isBlank c
      · rw [List.takeWhile_cons_of_pos hb, List.takeWhile_cons_of_pos hb, withReturns_cons hc, ih]
      · rw [List.takeWhile_cons_of_neg hb, List.takeWhile_cons_of_neg hb, withReturns_nil]

end Text

lemma Location.behind_withReturns (file : String) (s : List Char) :
    behind file (Text.withReturns s) = behind file s := by
  rw [behind, behind, Text.count_withReturns, Text.takeWhile_reverse_withReturns]

lemma Lexis.Closes.withReturns {k : Kind} {r : List Char} (h : Closes k r) :
    Closes k (Text.withReturns r) := by
  cases r with
  | nil => exact h
  | cons c r =>
    by_cases hc : c = '\n'
    · -- a carriage return closes what a line feed closes
      subst hc
      exact closes_of_not_isWordPart (by decide) (by decide)
    · rw [Text.withReturns_cons hc]
      cases k <;> exact h

namespace Cursor

structure Returned (c c' : Cursor) : Prop where
  file : c'.file = c.file
  passed : c'.passed.reverse = Text.withReturns c.passed.reverse
  rest : c'.rest = Text.withReturns c.rest
  placed : c.Placed
  placed' : c'.Placed

namespace Returned

variable {c c' d : Cursor}

lemma start (file source : String) :
    (Cursor.start file source).Returned
      (Cursor.start file (String.ofList (Text.withReturns source.toList))) where
  file := rfl
  passed := rfl
  rest := String.toList_ofList
  placed := start_placed file source
  placed' := start_placed file _

lemma location (h : c.Returned c') : c'.location = c.location := by
  rw [h.placed, h.placed', h.file, h.passed, Location.behind_withReturns]

lemma forward (h : c.Returned c') {w r : List Char} (hc : c.rest = w ++ r) :
    (c.forward w.length).Returned (c'.forward (Text.withReturns w).length) where
  file := by rw [file_forward, file_forward, h.file]
  passed := by
    rw [reverse_passed_forward, reverse_passed_forward, h.passed, h.rest, hc, List.take_left,
      Text.withReturns_append, Text.withReturns_append, List.take_left]
  rest := by
    rw [rest_forward, rest_forward, h.rest, hc, List.drop_left, Text.withReturns_append,
      List.drop_left]
  placed := forward_placed _ h.placed
  placed' := forward_placed _ h.placed'

lemma skipBlanks (h : c.Returned c') : c.skipBlanks.Returned c'.skipBlanks := by
  have hc : c.rest = c.rest.takeWhile Lexeme.isBlank ++ c.rest.dropWhile Lexeme.isBlank :=
    List.takeWhile_append_dropWhile.symm
  have hb := h.forward hc
  rw [← Text.takeWhile_isBlank_withReturns, ← h.rest] at hb
  exact hb

lemma forward_line (h : c.Returned c') {l r : List Char} (hc : c.rest = l ++ r) (hl : '\n' ∉ l) :
    (c.forward l.length).Returned (c'.forward l.length) := by
  have hd := h.forward hc
  rwa [Text.withReturns_of_notMem hl] at hd

lemma next {t : Token} (h : c.Returned c') (hn : c.next = .ok t d) :
    ∃ d', c'.next = .ok t d' ∧ d.Returned d' := by
  have hb := h.skipBlanks
  obtain ⟨⟨hnil, he⟩ | hbegins, hl, rfl⟩ := Lexis.next_eq_ok_iff.mp hn
  · have hnil' : c'.skipBlanks.rest = [] := by rw [hb.rest, hnil, Text.withReturns_nil]
    have htext : t.text = "" := congrArg Lexeme.text he
    refine ⟨_, Lexis.next_eq_ok_iff.mpr ⟨.inl ⟨hnil', he⟩, hl.trans hb.location.symm, rfl⟩, ?_⟩
    rw [htext]
    exact hb
  · -- the lexeme has no line feed, and what stands behind it closes it in both texts
    have hfeed := hbegins.notMem_newline
    obtain ⟨r, hr⟩ := hbegins.prefix
    have hd := hb.forward_line hr.symm hfeed
    have hrest : c'.skipBlanks.rest = t.text.toList ++ Text.withReturns r := by
      rw [hb.rest, ← hr, Text.withReturns_append, Text.withReturns_of_notMem hfeed]
    rw [← hr] at hbegins
    have hbegins' := hbegins.append hbegins.closes.withReturns
    rw [← hrest] at hbegins'
    rw [String.length_toList] at hd
    exact ⟨_, Lexis.next_eq_ok_iff.mpr ⟨.inr hbegins', hl.trans hb.location.symm, rfl⟩, hd⟩

lemma scan (hf : c.scan.fault = none) :
    ∀ {c'}, c.Returned c' → c'.scan.fault = none ∧ c'.scan.tokens = c.scan.tokens := by
  fun_induction Cursor.scan c with
  | case1 c f d hn => cases hf
  | case2 c t d hn ht =>
    intro c' h
    obtain ⟨d', hn', -⟩ := h.next hn
    rw [scan_of_eof hn' ht]
    exact ⟨rfl, rfl⟩
  | case3 c t d hn ht s ih =>
    intro c' h
    obtain ⟨d', hn', hd⟩ := h.next hn
    obtain ⟨hfault, htokens⟩ := ih hf hd
    rw [scan_of_token hn' ht]
    exact ⟨hfault, congrArg (t :: ·) htokens⟩

end Returned

end Cursor

end TinyC

import Mathlib.Tactic.Common
import TinyC.Proofs.Source.Place
import TinyC.Text.Lines

namespace TinyC

namespace Text

def lineAround (u v : List Char) : List Char :=
  (u.reverse.takeWhile (· ≠ '\n')).reverse ++ v.takeWhile (· ≠ '\n')

lemma takeWhile_ne_append {c : Char} {u : List Char} (h : c ∉ u) (v : List Char) :
    (u ++ v).takeWhile (· ≠ c) = u ++ v.takeWhile (· ≠ c) := by
  apply List.takeWhile_append_of_pos
  intro x hx
  exact decide_eq_true fun hxc => h (hxc ▸ hx)

lemma takeWhile_ne_eq_self {c : Char} {u : List Char} (h : c ∉ u) : u.takeWhile (· ≠ c) = u := by
  have hu := takeWhile_ne_append h []
  rwa [List.takeWhile_nil, List.append_nil] at hu

lemma notMem_takeWhile_ne (c : Char) (s : List Char) : c ∉ s.takeWhile (· ≠ c) := by
  intro hc
  exact of_decide_eq_true (List.all_eq_true.mp List.all_takeWhile c hc) rfl

lemma head?_splitOn (c : Char) (s : List Char) :
    (s.splitOn c).head? = some (s.takeWhile (· ≠ c)) := by
  induction s with
  | nil => rfl
  | cons x s ih =>
    rw [List.splitOn_cons_eq_if_modifyHead]
    by_cases hx : x = c
    · simp [hx]
    · simp [hx, ih]

lemma length_splitOn (c : Char) (s : List Char) : (s.splitOn c).length = s.count c + 1 := by
  induction s with
  | nil => rfl
  | cons x s ih =>
    rw [List.splitOn_cons_eq_if_modifyHead]
    by_cases hx : x = c
    · simp [hx, ih]
    · simp [hx, ih]

lemma exists_last_line (u : List Char) :
    '\n' ∉ u ∨ ∃ a b, u = a ++ '\n' :: b ∧ '\n' ∉ b := by
  by_cases h : '\n' ∈ u
  · obtain ⟨b, a, hu, hb⟩ := List.eq_append_cons_of_mem (List.mem_reverse.mpr h)
    refine .inr ⟨a.reverse, b.reverse, ?_, by simpa using hb⟩
    rw [← List.reverse_reverse u, hu]
    simp
  · exact .inl h

lemma getElem?_splitOn_count (u v : List Char) :
    ((u ++ v).splitOn '\n')[u.count '\n']? = some (lineAround u v) := by
  rcases exists_last_line u with hu | ⟨a, b, rfl, hb⟩
  · have hr : '\n' ∉ u.reverse := by simpa using hu
    rw [List.count_eq_zero.mpr hu, ← List.head?_eq_getElem?, head?_splitOn, takeWhile_ne_append hu,
      lineAround, takeWhile_ne_eq_self hr, List.reverse_reverse]
  · have hr : '\n' ∉ b.reverse := by simpa using hb
    have hcount : (a ++ '\n' :: b).count '\n' = (a.splitOn '\n').length + 0 := by
      rw [length_splitOn, List.count_append, List.count_cons_self, List.count_eq_zero.mpr hb]
    have hline : lineAround (a ++ '\n' :: b) v = lineAround b v := by
      rw [lineAround, lineAround, List.reverse_append, List.reverse_cons, List.append_assoc,
        takeWhile_ne_append hr, takeWhile_ne_eq_self hr, List.singleton_append,
        List.takeWhile_cons_of_neg (by simp), List.append_nil]
    rw [hcount, hline, List.append_assoc, List.cons_append, List.splitOn_append_cons_self,
      List.getElem?_append_right (Nat.le_add_right _ _), Nat.add_sub_cancel_left,
      ← List.head?_eq_getElem?, head?_splitOn, takeWhile_ne_append hb, lineAround,
      takeWhile_ne_eq_self hr, List.reverse_reverse]

lemma notMem_newline_lineAround (u v : List Char) : '\n' ∉ lineAround u v := by
  rw [lineAround, List.mem_append, List.mem_reverse, not_or]
  exact ⟨notMem_takeWhile_ne _ _, notMem_takeWhile_ne _ _⟩

end Text

namespace Location

def Precedes (l m : Location) : Prop :=
  l.line < m.line ∨ l.line = m.line ∧ l.column < m.column

lemma Precedes.ne {l m : Location} (h : l.Precedes m) : l ≠ m := by
  rintro rfl
  rcases h with h | ⟨-, h⟩ <;> omega

lemma behind_precedes (file : String) (u : List Char) {v : List Char} (hv : v ≠ []) :
    (behind file u).Precedes (behind file (u ++ v)) := by
  have hpos : 0 < v.length := List.length_pos_iff.mpr hv
  by_cases h : '\n' ∈ v
  · have hcount := List.count_pos_iff.mpr h
    left
    simp only [behind, List.count_append]
    omega
  · right
    have hr : '\n' ∉ v.reverse := by simpa using h
    simp only [behind, List.count_append, List.count_eq_zero.mpr h, List.reverse_append,
      Text.takeWhile_ne_append hr, List.length_append, List.length_reverse]
    omega

lemma column_behind_le (file : String) (u v : List Char) :
    (behind file u).column ≤ (Text.lineAround u v).length + 1 := by
  simp only [behind, Text.lineAround, List.length_append, List.length_reverse]
  omega

lemma getElem?_lineAround (file : String) (u v : List Char) :
    (Text.lineAround u v)[(behind file u).column.toNat - 1]? = v.head?.filter (· ≠ '\n') := by
  have hcolumn : (behind file u).column.toNat - 1 =
      (u.reverse.takeWhile (· ≠ '\n')).reverse.length + 0 := by
    simp only [behind, List.length_reverse]
    omega
  rw [hcolumn, Text.lineAround, List.getElem?_append_right (Nat.le_add_right _ _),
    Nat.add_sub_cancel_left, ← List.head?_eq_getElem?, List.head?_takeWhile]

end Location

lemma Text.line?_behind (file : String) (u v : List Char) :
    line? (u ++ v) (Location.behind file u).line = some (String.ofList (lineAround u v)) := by
  have hline : (Location.behind file u).line.toNat - 1 = u.count '\n' := by
    simp only [Location.behind]
    omega
  have hpos : 0 < (Location.behind file u).line := by
    simp only [Location.behind]
    omega
  rw [line?, if_pos hpos, hline, lines, pieces_eq_splitOn, getElem?_splitOn_count, Option.map_some]

namespace Cursor

variable {c : Cursor}

lemma drop_lineStart (h : c.Anchored) :
    c.source.drop c.lineStart = (c.passed.takeWhile (· ≠ '\n')).reverse ++ c.rest := by
  have hpassed : c.passed.takeWhile (· ≠ '\n') ++ c.passed.dropWhile (· ≠ '\n') = c.passed :=
    List.takeWhile_append_dropWhile
  have hlength : c.lineStart = (c.passed.dropWhile (· ≠ '\n')).reverse.length := by
    have hposition := congrArg List.length hpassed
    rw [List.length_append] at hposition
    rw [Anchored, position] at h
    rw [List.length_reverse]
    omega
  rw [source, ← hpassed, List.reverse_append, List.append_assoc, hlength, List.drop_left, hpassed]

lemma currentLine_eq (h : c.Anchored) :
    c.currentLine = String.ofList (Text.lineAround c.passed.reverse c.rest) := by
  have hline : '\n' ∉ (c.passed.takeWhile (· ≠ '\n')).reverse := by
    rw [List.mem_reverse]
    exact Text.notMem_takeWhile_ne _ _
  rw [currentLine, drop_lineStart h, Text.takeWhile_ne_append hline, Text.lineAround,
    List.reverse_reverse]

end Cursor

end TinyC

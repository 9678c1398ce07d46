import Mathlib.Tactic.Common
import TinyC.Text.Lines

namespace TinyC.Text

lemma pieces_append_cons {c : Char} {a : List Char} (h : c ∉ a) (b : List Char) :
    pieces c (a ++ c :: b) = a :: pieces c b := by
  rw [pieces_eq_splitOn, pieces_eq_splitOn, List.splitOn_append_cons_self_of_not_mem h]

lemma pieces_of_notMem {c : Char} {a : List Char} (h : c ∉ a) : pieces c a = [a] := by
  rw [pieces_eq_splitOn, List.splitOn_eq_singleton h]

lemma lines_join {ls : List String} (h : ∀ l ∈ ls, '\n' ∉ l.toList) :
    lines (String.join (ls.map (· ++ "\n"))).toList = ls.map String.toList ++ [[]] := by
  rw [lines]
  induction ls with
  | nil => rfl
  | cons l ls ih =>
    obtain ⟨hl, hrest⟩ := List.forall_mem_cons.mp h
    have hjoin : (String.join ((l :: ls).map (· ++ "\n"))).toList =
        l.toList ++ '\n' :: (String.join (ls.map (· ++ "\n"))).toList := by
      simp [String.toList_join]
    rw [hjoin, pieces_append_cons hl, ih hrest]
    rfl

lemma splitOn_intercalate {ls : List String} (h : ∀ l ∈ ls, '\n' ∉ l.toList) (hne : ls ≠ []) :
    ("\n".intercalate ls).toList.splitOn '\n' = ls.map String.toList := by
  rw [String.toList_intercalate]
  apply List.splitOn_intercalate
  · intro l hl
    obtain ⟨line, hline, rfl⟩ := List.mem_map.mp hl
    exact h line hline
  · exact fun hnil => hne (List.map_eq_nil_iff.mp hnil)

variable {ls ms : List String}

lemma eq_nil_of_intercalate (hl : ∀ l ∈ ls, l ≠ "") (h : "\n".intercalate ls = "") : ls = [] := by
  cases ls with
  | nil => rfl
  | cons l ls =>
    have hempty : l = "" := by
      cases ls with
      | nil => simpa using h
      | cons m ls =>
        have hchars := congrArg String.toList h
        simp [String.intercalate_cons_cons] at hchars
    exact absurd hempty (hl l List.mem_cons_self)

lemma intercalate_injective (hl : ∀ l ∈ ls, '\n' ∉ l.toList ∧ l ≠ "")
    (hm : ∀ m ∈ ms, '\n' ∉ m.toList ∧ m ≠ "")
    (h : "\n".intercalate ls = "\n".intercalate ms) : ls = ms := by
  by_cases hls : ls = []
  · rw [hls, String.intercalate_nil] at h
    rw [hls, eq_nil_of_intercalate (fun m hmem => (hm m hmem).2) h.symm]
  by_cases hms : ms = []
  · rw [hms, String.intercalate_nil] at h
    exact absurd (eq_nil_of_intercalate (fun l hmem => (hl l hmem).2) h) hls
  apply (List.map_inj_right fun _ _ => String.toList_injective).mp
  rw [← splitOn_intercalate (fun l hmem => (hl l hmem).1) hls, h,
    splitOn_intercalate (fun m hmem => (hm m hmem).1) hms]

lemma join_injective (hl : ∀ l ∈ ls, '\n' ∉ l.toList) (hm : ∀ m ∈ ms, '\n' ∉ m.toList)
    (h : String.join (ls.map (· ++ "\n")) = String.join (ms.map (· ++ "\n"))) : ls = ms := by
  have hlines := lines_join hl
  rw [h, lines_join hm] at hlines
  exact ((List.map_inj_right fun _ _ => String.toList_injective).mp
    (List.append_cancel_right hlines)).symm

end TinyC.Text

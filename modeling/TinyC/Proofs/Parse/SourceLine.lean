import Mathlib.Tactic.Common
import TinyC.Parse.Reader
import TinyC.Proofs.Token.Session

namespace TinyC

namespace Cursor

variable {c : Cursor}

lemma Placed.line_eq (h : c.Placed) :
    (Location.behind c.file c.passed.reverse).line = c.line :=
  congrArg Location.line h.symm

lemma Placed.column_eq (h : c.Placed) :
    (Location.behind c.file c.passed.reverse).column = c.column :=
  congrArg Location.column h.symm

lemma line?_line (hp : c.Placed) (ha : c.Anchored) :
    Text.line? c.source c.line = some c.currentLine := by
  rw [currentLine_eq ha, ← hp.line_eq]
  exact Text.line?_behind c.file c.passed.reverse c.rest

lemma one_le_column (h : c.Placed) : 1 ≤ c.column := by
  have hcolumn := h.column_eq
  simp only [Location.behind] at hcolumn
  omega

lemma column_le (hp : c.Placed) (ha : c.Anchored) :
    c.column ≤ c.currentLine.toList.length + 1 := by
  have hcolumn := Location.column_behind_le c.file c.passed.reverse c.rest
  rw [hp.column_eq] at hcolumn
  rw [currentLine_eq ha, String.toList_ofList]
  omega

lemma getElem?_currentLine (hp : c.Placed) (ha : c.Anchored) :
    c.currentLine.toList[c.column - 1]? = c.source[c.position]?.filter (· ≠ '\n') := by
  have hchar := Location.getElem?_lineAround c.file c.passed.reverse c.rest
  rw [hp.column_eq, Int.toNat_natCast] at hchar
  rw [currentLine_eq ha, String.toList_ofList, hchar, ← List.head?_drop, drop_source]

lemma column_of_line_ends (hp : c.Placed) (ha : c.Anchored)
    (h : c.source[c.position]?.filter (· ≠ '\n') = none) :
    c.column - 1 = c.currentLine.toList.length := by
  have hle := column_le hp ha
  have hchar := getElem?_currentLine hp ha
  rw [h, List.getElem?_eq_none_iff] at hchar
  omega

end Cursor

namespace ScanSession

/-- After any requests, failed ones among them, a reader at the cursor finds a line under the cursor's
line number, and it is the line that the cursor cuts from the text. The character in the cursor's
column of that line is the one behind the cursor; before a line feed and at the end of the text the
column is the first one behind the line. -/
theorem run_quotes_line (file source : String) (qs : List ScanRequest) :
    let c := ((start file source).run qs).2.cursor
    let text := source.toList
    let quoted := c.currentLine.toList
    c.source = text ∧
      (∀ (lookahead : Token) (pulled limit : Nat),
        (Reader.mk lookahead c pulled limit).sourceLine? c.line = some c.currentLine) ∧
      1 ≤ c.column ∧
      if text[c.position]? = none ∨ text[c.position]? = some '\n' then c.column - 1 = quoted.length
      else quoted[c.column - 1]? = text[c.position]? := by
  intro c text quoted
  have hreaches : (Cursor.start file source).Reaches c := (run_invariant file source qs).reaches
  have hsource : c.source = text := hreaches.source_eq
  have hp : c.Placed := hreaches.placed (Cursor.start_placed file source)
  have ha : c.Anchored := hreaches.anchored (Cursor.start_anchored file source)
  refine ⟨hsource, fun _ _ _ => Cursor.line?_line hp ha, Cursor.one_le_column hp, ?_⟩
  rw [← hsource]
  split
  · rename_i hend
    apply Cursor.column_of_line_ends hp ha
    rcases hend with hend | hend <;> simp [hend]
  · rename_i hline
    rw [not_or] at hline
    obtain ⟨x, hx⟩ := Option.ne_none_iff_exists'.mp hline.1
    have hne : x ≠ '\n' := by
      rintro rfl
      exact hline.2 hx
    rw [Cursor.getElem?_currentLine hp ha, hx, Option.filter_some, decide_eq_true hne, if_pos rfl]

end ScanSession

end TinyC

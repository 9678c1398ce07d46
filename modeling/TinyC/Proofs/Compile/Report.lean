import Mathlib.Tactic.Common
import TinyC.Proofs.Compile.Tally
import TinyC.Proofs.Text.Lines
import TinyC.Proofs.Token.Dump

namespace TinyC

namespace Diagnostic

structure Plain (d : Diagnostic) : Prop where
  message : '\n' ∉ d.message.toList
  hint : ∀ h ∈ d.hint, h ≠ "" ∧ '\n' ∉ h.toList

structure Points (d : Diagnostic) (file : String) (s : List Char) (p : Nat) : Prop where
  le_length : p ≤ s.length
  location : d.location = some (Location.behind file (s.take p))
  sourceLine : d.sourceLine = some (String.ofList (Text.lineAround (s.take p) (s.drop p)))

lemma notMem_newline_repr (n : Nat) : '\n' ∉ n.repr.toList := by
  intro h
  exact absurd (Text.isDigit_of_mem_repr h) (by decide)

lemma hintLine_eq {d : Diagnostic} (h : d.Plain) :
    d.hintLine = d.hint.toList.map fun h => "hint: " ++ h := by
  rw [hintLine]
  cases hh : d.hint with
  | none => rfl
  | some x => simp [(h.hint x hh).1]

lemma report_splitOn {d : Diagnostic} {file : String} {line : List Char} {m n : Nat} (hd : d.Plain)
    (hfile : '\n' ∉ file.toList) (hline : '\n' ∉ line) (hn : 0 < n)
    (hlocation : d.location = some ⟨file, m, n⟩)
    (hquoted : d.sourceLine = some (String.ofList line)) :
    d.report.toList.splitOn '\n' =
      [(file ++ ":" ++ m.repr ++ ":" ++ n.repr ++ ": error: " ++ d.message).toList,
        "    ".toList ++ line, List.replicate (4 + n - 1) ' ' ++ ['^']] ++
        d.hint.toList.map fun h => ("hint: " ++ h).toList := by
  have hcaret : 3 + (n : Int).toNat = 4 + n - 1 := by omega
  have hlines : d.reportLines = [file ++ ":" ++ m.repr ++ ":" ++ n.repr ++ ": error: " ++ d.message,
      "    " ++ String.ofList line, String.ofList (List.replicate (4 + n - 1) ' ' ++ ['^'])] ++
        d.hint.toList.map fun h => "hint: " ++ h := by
    rw [reportLines, headline, excerpt, hlocation, hquoted, hintLine_eq hd]
    simp only [Int.natCast_pos.mpr hn, if_true, caret, hcaret]
    rfl
  have hhead : '\n' ∉
      (file ++ ":" ++ m.repr ++ ":" ++ n.repr ++ ": error: " ++ d.message).toList := by
    simp only [Text.notMem_append]
    exact ⟨⟨⟨⟨⟨⟨hfile, by decide⟩, notMem_newline_repr m⟩, by decide⟩, notMem_newline_repr n⟩,
      by decide⟩, hd.message⟩
  have hplain : ∀ l ∈ d.reportLines, '\n' ∉ l.toList := by
    intro l hl
    rw [hlines] at hl
    simp only [List.cons_append, List.nil_append, List.mem_cons, List.mem_map,
      Option.mem_toList] at hl
    rcases hl with rfl | rfl | rfl | ⟨h, hh, rfl⟩
    · exact hhead
    · simpa using hline
    · simp
    · simpa using (hd.hint h hh).2
  rw [report, Text.splitOn_intercalate hplain (by simp [hlines]), hlines]
  simp

end Diagnostic

namespace Cursor

lemma notMem_newline_of_mem_scan (c : Cursor) : ∀ t ∈ c.scan.tokens, '\n' ∉ t.text.toList := by
  have hnext : ∀ {c d : Cursor} {t : Token}, c.next = .ok t d → '\n' ∉ t.text.toList := by
    intro c d t h
    rcases (Lexis.next_eq_ok_iff.mp h).1 with ⟨-, he⟩ | hb
    · simp [Token.text, he, Lexeme.eof]
    · exact hb.notMem_newline
  fun_induction scan c with
  | case1 c f d h => simp
  | case2 c t d h ht => simpa using hnext h
  | case3 c t d h ht s ih => exact List.forall_mem_cons.mpr ⟨hnext h, ih⟩

lemma notMem_newline_of_fault {c : Cursor} (hc : c.Placed) {f : LexicalFault}
    (h : c.scan.fault = some f) : '\n' ∉ f.defect.message.toList := by
  fun_induction scan c with
  | case1 c f' d hn =>
    cases h
    obtain ⟨-, rest, n, -, hstop, -, hf, -⟩ := next_fault hc hn
    generalize f.defect = cause at hf
    cases hf with
    | @unrecognized x r =>
      have hx : x ≠ '\n' := by
        rintro rfl
        exact hstop _ rfl (by simp [Lexis.IsBlank])
      unfold Defect.message
      simp only [Text.notMem_append]
      exact ⟨⟨by simp, by simpa using Ne.symm hx⟩, by simp⟩
    | _ =>
      unfold Defect.message
      simp
  | case2 c t d hn ht => cases h
  | case3 c t d hn ht s ih => exact ih ((next_covers hc hn).1.placed hc) h

end Cursor

lemma LexicalFault.plain {f : LexicalFault} (h : '\n' ∉ f.defect.message.toList) :
    f.diagnostic.Plain := by
  refine ⟨h, fun x hx => ?_⟩
  cases hx
  cases f.defect with
  | _ => exact ⟨by simp [Defect.hint], by simp [Defect.hint]⟩

lemma Lexeme.notMem_newline_describe {l : Lexeme} (h : '\n' ∉ l.text.toList) :
    '\n' ∉ l.describe.toList := by
  rw [describe]
  split
  · simp
  · simp only [Text.notMem_append]
    exact ⟨⟨⟨l.kind.notMem_newline_name, by simp⟩, h⟩, by simp⟩

namespace Complaint

lemma plain_hint {c : Complaint} {h : String} (hh : h ∈ c.hint) : h ≠ "" ∧ '\n' ∉ h.toList := by
  cases c with
  | fraction =>
    cases hh
    exact ⟨by simp, by simp⟩
  | _ => cases hh

lemma plain_of_concerns {c : Complaint} {t : Token} (hc : c.Concerns t)
    (ht : '\n' ∉ t.text.toList) : '\n' ∉ c.message.toList := by
  have hlexeme := Lexeme.notMem_newline_describe ht
  cases hc with
  | expected k =>
    unfold message
    simp only [Text.notMem_append]
    exact ⟨⟨⟨by simp, k.notMem_newline_name⟩, by simp⟩, hlexeme⟩
  | fraction =>
    unfold message
    simp only [Text.notMem_append]
    exact ⟨⟨by simp, ht⟩, by simp⟩
  | noExpression =>
    unfold message
    simp only [Text.notMem_append]
    exact ⟨by simp, hlexeme⟩

lemma plain_wrongKeyword {found wanted : String} (hf : '\n' ∉ found.toList)
    (hw : '\n' ∉ wanted.toList) : '\n' ∉ (wrongKeyword found wanted).message.toList := by
  unfold message
  simp only [Text.notMem_append]
  exact ⟨⟨⟨⟨by simp, hf⟩, by simp⟩, hw⟩, by simp⟩

end Complaint

namespace Diagnostic

variable {file source : String} {d : Diagnostic}

lemma points_of_cursor {c : Cursor} (h : (Cursor.start file source).Reaches c)
    (hl : d.location = some c.location) (hline : d.sourceLine = some c.currentLine) :
    d.Points file source.toList c.position := by
  have hsource : c.source = source.toList := h.source_eq
  refine ⟨?_, ?_, ?_⟩
  · rw [← hsource]
    exact c.position_le_length
  · rw [hl, (h.placed (Cursor.start_placed file source)).location_eq, hsource, h.file_eq]
    rfl
  · rw [hline, Cursor.currentLine_eq (h.anchored (Cursor.start_anchored file source)), ← hsource,
      Cursor.take_source, Cursor.drop_source]

lemma points_of_token {t : Token} (ht : t ∈ (Cursor.start file source).scan.tokens)
    (hl : d.location = some t.location)
    (hline : d.sourceLine = Text.line? source.toList t.location.line) :
    ∃ p, d.Points file source.toList p := by
  have hspans := (Cursor.start file source).scan_spans (Cursor.start_placed file source)
  obtain ⟨p, b, -, -, hcov⟩ := hspans.covers_of_mem ht
  have hsource : (Cursor.start file source).source = source.toList := rfl
  have hplace := hcov.location
  rw [hsource] at hcov hplace
  refine ⟨p, Nat.le_trans hcov.le hcov.le_length, hplace ▸ hl, ?_⟩
  rw [hline, hplace]
  nth_rewrite 1 [← List.take_append_drop p source.toList]
  exact Text.line?_behind _ _ _

lemma Points.exists_line {p : Nat} (h : d.Points file source.toList p) :
    ∃ (m n : Nat) (quoted : List Char),
      Location.behind file (source.toList.take p) = ⟨file, m, n⟩ ∧ 1 ≤ m ∧
        m ≤ (source.toList.splitOn '\n').length ∧
          (source.toList.splitOn '\n')[m - 1]? = some quoted ∧ 1 ≤ n ∧ n ≤ quoted.length + 1 ∧
            d.sourceLine = some (String.ofList quoted) ∧ '\n' ∉ quoted ∧
              quoted[n - 1]? = source.toList[p]?.filter (· ≠ '\n') := by
  set u := source.toList.take p with hu
  set v := source.toList.drop p with hv
  have huv : source.toList = u ++ v := (List.take_append_drop p source.toList).symm
  have hline : (source.toList.splitOn '\n')[u.count '\n']? = some (Text.lineAround u v) := by
    rw [huv]
    exact Text.getElem?_splitOn_count u v
  have hcolumn := Location.column_behind_le file u v
  have hchar := Location.getElem?_lineAround file u v
  obtain ⟨hlt, -⟩ := List.getElem?_eq_some_iff.mp hline
  simp only [Location.behind] at hcolumn
  refine ⟨1 + u.count '\n', 1 + (u.reverse.takeWhile (· ≠ '\n')).length, Text.lineAround u v,
    ?_, by omega, by omega, ?_, by omega, by omega, h.sourceLine,
    Text.notMem_newline_lineAround u v, ?_⟩
  · simp [Location.behind]
  · rwa [Nat.add_sub_cancel_left]
  · rw [hv, List.head?_drop] at hchar
    rw [← hchar, Location.behind]
    congr 1

end Diagnostic

namespace Reader

variable {limit : Nat} {file source : String} {r q : Reader}

lemma start?_source (h : start? limit file source = .ok r) : r.cursor.source = source.toList := by
  rw [start?] at h
  split at h
  · rename_i t d hn
    cases h
    exact Cursor.source_next hn
  · cases h

lemma Follows.lineOf? {us : List Token} (hr : start? limit file source = .ok r) (h : r.Follows us q)
    (t : Token) : q.lineOf? t = Text.line? source.toList t.location.line := by
  rw [Reader.lineOf?, sourceLine?, h.source, start?_source hr]

lemma Follows.mem_scan {us : List Token} (hr : start? limit file source = .ok r) (h : r.Follows us q) :
    q.lookahead ∈ (Cursor.start file source).scan.tokens := by
  obtain ⟨ts, hts⟩ := q.tokens_eq_cons
  rw [← (start?_ok hr).1, h.tokens, hts]
  simp

end Reader

section

variable {limit : Nat} {file source : String} {r q : Reader}

lemma fault_points {f : LexicalFault} (h : (Cursor.start file source).scan.fault = some f) :
    f.diagnostic.Plain ∧ ∃ p, f.diagnostic.Points file source.toList p := by
  have hplaced := Cursor.start_placed file source
  obtain ⟨hlocation, hline⟩ := Cursor.scan_fault_location _ h
  exact ⟨LexicalFault.plain (Cursor.notMem_newline_of_fault hplaced h), _,
    Diagnostic.points_of_cursor (Cursor.scan_reaches _) (congrArg some hlocation)
      (congrArg some hline)⟩

lemma nesting_points {us : List Token} (hr : Reader.start? limit file source = .ok r)
    (h : r.Follows us q) :
    let d := Diagnostic.nesting (some q.lookahead.location) (q.lineOf? q.lookahead)
    d.Plain ∧ ∃ p, d.Points file source.toList p := by
  refine ⟨⟨by simp [Diagnostic.nesting], ?_⟩,
    Diagnostic.points_of_token (h.mem_scan hr) rfl (h.lineOf? hr _)⟩
  rintro x ⟨⟩
  exact ⟨by simp, by simp⟩

lemma stops_points {e : ParseFault} (hr : Reader.start? limit file source = .ok r)
    (h : Parse.Stops ["int", "return"] r e q) :
    e.diagnostic.Plain ∧ ∃ p, e.diagnostic.Points file source.toList p := by
  have hscan := (Reader.start?_ok hr).1
  have htext := Cursor.notMem_newline_of_mem_scan (Cursor.start file source)
  cases h with
  | defect hts hf hq =>
    rw [(Reader.start?_ok hr).2.1] at hf
    exact fault_points hf
  | misfit hus hc =>
    have hmem := hus.mem_scan hr
    exact ⟨⟨Complaint.plain_of_concerns hc (htext _ hmem), fun x hx => Complaint.plain_hint hx⟩,
      Diagnostic.points_of_token hmem rfl (hus.lineOf? hr _)⟩
  | @keyword us t w _ hus hw =>
    have hmem : t ∈ (Cursor.start file source).scan.tokens := by
      rw [← hscan, hus.tokens]
      simp
    have hword : '\n' ∉ w.toList := by
      simp only [List.mem_cons, List.not_mem_nil, or_false] at hw
      rcases hw with rfl | rfl <;> decide
    exact ⟨⟨Complaint.plain_wrongKeyword (htext _ hmem) hword,
        fun x hx => Complaint.plain_hint (c := .wrongKeyword t.text w) hx⟩,
      Diagnostic.points_of_token hmem rfl (hus.lineOf? hr _)⟩
  | nesting hus => exact nesting_points hr hus

end

/-- The report of a text that cannot be read, or that is nested too deeply, says in its first line
where that shows, then quotes this line of the text and marks the character there, or the end of the
line, by a caret below it. Only a hint may follow. -/
theorem compile_report_points {limit : Nat} {o : Options} {file source : String} {e : Failure}
    (hfile : '\n' ∉ file.toList) (he : (compile limit o file source).failure = some e)
    (hs : e.diagnostic.stage = .lexical ∨ e.diagnostic.stage = .syntactic) :
    let d := e.diagnostic
    let lines := source.toList.splitOn '\n'
    ∃ (m n p : Nat) (line : List Char), d.location = some ⟨file, m, n⟩ ∧
      p ≤ source.toList.length ∧ Location.behind file (source.toList.take p) = ⟨file, m, n⟩ ∧
      1 ≤ m ∧ m ≤ lines.length ∧ lines[m - 1]? = some line ∧
      1 ≤ n ∧ n ≤ line.length + 1 ∧ d.sourceLine = some (String.ofList line) ∧
      d.report.toList.splitOn '\n' =
        [(file ++ ":" ++ m.repr ++ ":" ++ n.repr ++ ": error: " ++ d.message).toList,
          "    ".toList ++ line, List.replicate (4 + n - 1) ' ' ++ ['^']] ++
          d.hint.toList.map (fun h => ("hint: " ++ h).toList) ∧
      ("    ".toList ++ line)[4 + n - 1]? = source.toList[p]?.filter (· ≠ '\n') := by
  dsimp only
  have hcourse := compile_course limit o file source
  generalize compile limit o file source = c at hcourse he
  have hpoints : e.diagnostic.Plain ∧ ∃ p, e.diagnostic.Points file source.toList p := by
    cases hcourse with
    | unstarted hr =>
      cases he
      exact fault_points (Reader.start?_error hr).2
    | unread hr hq =>
      cases he
      exact stops_points hr (Parse.program_traced.error _ _ _ hq)
    | unassembled hr hq ha =>
      cases he
      obtain ⟨us, hus, -⟩ := Parse.program_ok_follows hq
      rcases Function.assemble_error ha with rfl | rfl | ⟨fault, rfl⟩
      · rcases hs with hs | hs <;> cases hs
      · exact nesting_points hr hus
      · rcases hs with hs | hs <;> cases hs
    | assembled hr hq ha => cases he
  obtain ⟨hplain, p, hp⟩ := hpoints
  obtain ⟨m, n, line, hplace, hm, hml, hline, hn, hnl, hquoted, hfeed, hchar⟩ := hp.exists_line
  have hlocation := hplace ▸ hp.location
  refine ⟨m, n, p, line, hlocation, hp.le_length, hplace, hm, hml, hline, hn, hnl, hquoted, ?_, ?_⟩
  · exact Diagnostic.report_splitOn hplain hfile hfeed hn hlocation hquoted
  · have hindex : 4 + n - 1 = "    ".toList.length + (n - 1) := by
      rw [show "    ".toList.length = 4 from rfl]
      omega
    rw [hindex, List.getElem?_append_right (Nat.le_add_right _ _), Nat.add_sub_cancel_left, hchar]

theorem compile_report_points_fraction :
    let source := "int f()\x7b\n  return 1.5; \x7d"
    let d := Diagnostic.mk .syntactic (Complaint.fraction "1.5").message (some ⟨"a.c", 2, 10⟩)
      (Complaint.fraction "1.5").hint (some "  return 1.5; \x7d")
    (∃ e, (compile 1000 {} "a.c" source).failure = some e ∧ e.diagnostic = d ∧
      d.stage = .syntactic) ∧ '\n' ∉ "a.c".toList ∧
      ∃ header line hint, d.report.toList.splitOn '\n' =
        [header, "    ".toList ++ line, List.replicate 13 ' ' ++ ['^'], hint] := by
  dsimp only
  have h : (compile 1000 {} "a.c" "int f()\x7b\n  return 1.5; \x7d").failure =
      some (.reading (.syntactic (.fraction "1.5") ⟨"a.c", 2, 10⟩
        (some "  return 1.5; \x7d"))) := by
    decide +kernel
  refine ⟨⟨_, h, rfl, rfl⟩, by decide, ?_⟩
  obtain ⟨m, n, p, line, hlocation, -, -, -, -, -, -, -, -, hreport, -⟩ :=
    compile_report_points (by decide) h (.inr rfl)
  have hcolumn : (10 : Int) = n := congrArg Location.column (Option.some.inj hlocation)
  obtain rfl : n = 10 := by omega
  exact ⟨_, _, _, hreport⟩

end TinyC

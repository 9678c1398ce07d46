import Mathlib.Tactic.Common
import TinyC.Proofs.Source.Lines
import TinyC.Proofs.Token.Tiling

namespace TinyC

namespace Cursor

def Reaches (c d : Cursor) : Prop :=
  ∃ n, d = c.forward n

lemma take_source (c : Cursor) : c.source.take c.position = c.passed.reverse := by
  rw [source, position, ← List.length_reverse, List.take_left]

lemma drop_source (c : Cursor) : c.source.drop c.position = c.rest := by
  rw [source, position, ← List.length_reverse, List.drop_left]

lemma position_le_length (c : Cursor) : c.position ≤ c.source.length := by
  rw [position, source, List.length_append, List.length_reverse]
  omega

lemma Placed.location_eq {c : Cursor} (h : c.Placed) :
    c.location = Location.behind c.file (c.source.take c.position) := by
  rw [take_source]
  exact h

lemma position_forward (n : Nat) (c : Cursor) :
    (c.forward n).position = c.position + min n c.rest.length := by
  rw [position, passed_forward, List.length_append, List.length_reverse, List.length_take, position]
  omega

namespace Reaches

variable {c d e : Cursor}

lemma refl (c : Cursor) : c.Reaches c :=
  ⟨0, rfl⟩

lemma trans (h : c.Reaches d) (h' : d.Reaches e) : c.Reaches e := by
  obtain ⟨m, rfl⟩ := h
  obtain ⟨n, rfl⟩ := h'
  exact ⟨m + n, forward_forward m n c⟩

lemma file_eq (h : c.Reaches d) : d.file = c.file := by
  obtain ⟨n, rfl⟩ := h
  exact file_forward n c

lemma source_eq (h : c.Reaches d) : d.source = c.source := by
  obtain ⟨n, rfl⟩ := h
  exact source_forward n c

lemma placed (h : c.Reaches d) (hc : c.Placed) : d.Placed := by
  obtain ⟨n, rfl⟩ := h
  exact forward_placed n hc

lemma anchored (h : c.Reaches d) (hc : c.Anchored) : d.Anchored := by
  obtain ⟨n, rfl⟩ := h
  exact forward_anchored n hc

lemma position_le (h : c.Reaches d) : c.position ≤ d.position := by
  obtain ⟨n, rfl⟩ := h
  rw [position_forward]
  omega

end Reaches

lemma reaches_step (c : Cursor) : c.Reaches c.step :=
  ⟨1, rfl⟩

lemma reaches_skipBlanks (c : Cursor) : c.Reaches c.skipBlanks :=
  ⟨_, rfl⟩

end Cursor

structure Token.Covers (t : Token) (file : String) (s : List Char) (a b : Nat) : Prop where
  le : a ≤ b
  le_length : b ≤ s.length
  text : (s.take b).drop a = t.text.toList
  location : t.location = Location.behind file (s.take a)

inductive Spans (file : String) (s : List Char) : Nat → List Token → Nat → Prop
  | nil {a b} : a ≤ b → Spans file s a [] b
  | cons {a b c d t ts} : a ≤ b → t.Covers file s b c → Spans file s c ts d →
      Spans file s a (t :: ts) d

namespace Spans

variable {file : String} {s : List Char} {a b c : Nat} {t : Token} {ts us : List Token}

lemma le (h : Spans file s a ts b) : a ≤ b := by
  induction h with
  | nil hab => exact hab
  | cons hab ht _ ih => exact Nat.le_trans (Nat.le_trans hab ht.le) ih

lemma mono_left (hab : a ≤ b) (h : Spans file s b ts c) : Spans file s a ts c := by
  cases h with
  | nil hbc => exact .nil (Nat.le_trans hab hbc)
  | cons hbd ht hts => exact .cons (Nat.le_trans hab hbd) ht hts

lemma append (h : Spans file s a ts b) (h' : Spans file s b us c) :
    Spans file s a (ts ++ us) c := by
  induction h with
  | nil hab => exact h'.mono_left hab
  | cons hab ht _ ih => exact .cons hab ht (ih h')

lemma covers_of_mem (h : Spans file s a ts b) (ht : t ∈ ts) :
    ∃ i j, a ≤ i ∧ j ≤ b ∧ t.Covers file s i j := by
  induction h with
  | nil => cases ht
  | cons hab hu hts ih =>
    rcases List.mem_cons.mp ht with rfl | ht
    · exact ⟨_, _, hab, hts.le, hu⟩
    · obtain ⟨i, j, hi, hj, hc⟩ := ih ht
      exact ⟨i, j, Nat.le_trans (Nat.le_trans hab hu.le) hi, hj, hc⟩

end Spans

namespace Cursor

variable {c d : Cursor} {t : Token}

lemma covers_forward {l : List Char} (hc : c.Placed) (hl : l <+: c.rest) (ht : t.text.toList = l)
    (hloc : t.location = c.location) :
    t.Covers c.file c.source c.position (c.forward l.length).position := by
  have hlen := hl.length_le
  have hpos : (c.forward l.length).position = c.position + l.length := by
    rw [position_forward, Nat.min_eq_left hlen]
  refine ⟨?_, ?_, ?_, ?_⟩
  · omega
  · have := (c.forward l.length).position_le_length
    rwa [source_forward] at this
  · rw [hpos, List.drop_take, Nat.add_sub_cancel_left, drop_source, ht]
    exact (List.prefix_iff_eq_take.mp hl).symm
  · rw [hloc, hc.location_eq]

lemma next_covers (hc : c.Placed) (h : c.next = .ok t d) :
    c.Reaches d ∧ ∃ a, c.position ≤ a ∧ t.Covers c.file c.source a d.position := by
  obtain ⟨hlex, hl, rfl⟩ := Lexis.next_eq_ok_iff.mp h
  have hskip := reaches_skipBlanks c
  have hprefix : t.text.toList <+: c.skipBlanks.rest := by
    rcases hlex with ⟨-, he⟩ | hb
    · rw [Token.text, he]
      exact List.nil_prefix
    · exact hb.prefix
  refine ⟨hskip.trans ⟨_, rfl⟩, _, hskip.position_le, ?_⟩
  have hcov := covers_forward (hskip.placed hc) hprefix rfl hl
  rwa [hskip.file_eq, hskip.source_eq, String.length_toList] at hcov

lemma next_fault_location {f : LexicalFault} (h : c.next = .error f d) :
    c.Reaches d ∧ f.location = d.location ∧ f.sourceLine = d.currentLine := by
  obtain ⟨n, -, rfl, hl, hline⟩ := Lexis.next_eq_error_iff.mp h
  exact ⟨(reaches_skipBlanks c).trans ⟨n, rfl⟩, hl, hline⟩

lemma scan_reaches (c : Cursor) : c.Reaches c.scan.cursor := by
  fun_induction scan c with
  | case1 c f d h => exact (next_fault_location h).1
  | case2 c t d h ht =>
    obtain ⟨-, -, rfl⟩ := Lexis.next_eq_ok_iff.mp h
    exact (reaches_skipBlanks c).trans ⟨_, rfl⟩
  | case3 c t d h ht s ih =>
    obtain ⟨-, -, rfl⟩ := Lexis.next_eq_ok_iff.mp h
    exact ((reaches_skipBlanks c).trans ⟨_, rfl⟩).trans ih

lemma scan_spans (c : Cursor) (hc : c.Placed) :
    Spans c.file c.source c.position c.scan.tokens c.scan.cursor.position := by
  fun_induction scan c with
  | case1 c f d h => exact .nil (next_fault_location h).1.position_le
  | case2 c t d h ht =>
    obtain ⟨-, a, ha, hcov⟩ := next_covers hc h
    exact .cons ha hcov (.nil (Nat.le_refl _))
  | case3 c t d h ht s ih =>
    obtain ⟨hd, a, ha, hcov⟩ := next_covers hc h
    have hrest := ih (hd.placed hc)
    rw [hd.file_eq, hd.source_eq] at hrest
    exact .cons ha hcov hrest

lemma scan_fault_location (c : Cursor) {f : LexicalFault} (h : c.scan.fault = some f) :
    f.location = c.scan.cursor.location ∧ f.sourceLine = c.scan.cursor.currentLine := by
  fun_induction scan c with
  | case1 c f' d hn =>
    cases h
    exact (next_fault_location hn).2
  | case2 c t d hn ht => cases h
  | case3 c t d hn ht s ih => exact ih h

lemma scan_last (c : Cursor) (hc : c.Placed) (h : c.scan.fault = none) :
    ∃ t ∈ c.scan.tokens.getLast?, t.kind = .eof ∧
      ∃ a, c.position ≤ a ∧ t.Covers c.file c.source a c.scan.cursor.position := by
  fun_induction scan c with
  | case1 c f d hn => cases h
  | case2 c t d hn ht =>
    obtain ⟨-, hcov⟩ := next_covers hc hn
    exact ⟨t, rfl, ht, hcov⟩
  | case3 c t d hn ht s ih =>
    obtain ⟨hd, -⟩ := next_covers hc hn
    obtain ⟨u, hu, hk, a, ha, hcov⟩ := ih (hd.placed hc) h
    rw [hd.file_eq, hd.source_eq] at hcov
    have hlast : (t :: s.tokens).getLast? = some u := by
      rw [List.getLast?_cons, hu, Option.getD_some]
    exact ⟨u, hlast, hk, a, Nat.le_trans hd.position_le ha, hcov⟩

end Cursor

lemma Location.behind_take_precedes (file : String) {s : List Char} {a b : Nat} (hab : a < b)
    (hb : b ≤ s.length) : (behind file (s.take a)).Precedes (behind file (s.take b)) := by
  have hs : s.take b = s.take a ++ (s.drop a).take (b - a) := by
    rw [← List.take_add, Nat.add_sub_cancel' (Nat.le_of_lt hab)]
  rw [hs]
  apply behind_precedes
  apply List.ne_nil_of_length_pos
  rw [List.length_take, List.length_drop]
  omega

lemma Token.Covers.precedes {file : String} {s : List Char} {a b i j : Nat} {t u : Token}
    (ht : t.Covers file s a b) (hu : u.Covers file s i j) (hne : t.text.toList ≠ []) (hbi : b ≤ i) :
    t.location.Precedes u.location := by
  have hab : a < b := by
    have hlen := congrArg List.length ht.text
    have hpos := List.length_pos_iff.mpr hne
    rw [List.length_drop, List.length_take] at hlen
    omega
  rw [ht.location, hu.location]
  exact Location.behind_take_precedes file (by omega) (Nat.le_trans hu.le hu.le_length)

lemma Cursor.scan_ascending (c : Cursor) (hc : c.Placed) :
    c.scan.tokens.Pairwise fun t u => t.location.Precedes u.location := by
  fun_induction scan c with
  | case1 c f d h => exact .nil
  | case2 c t d h ht => exact List.pairwise_singleton _ _
  | case3 c t d h ht s ih =>
    obtain ⟨hd, a, -, hcov⟩ := next_covers hc h
    refine .cons (fun u hu => ?_) (ih (hd.placed hc))
    have hspans := scan_spans d (hd.placed hc)
    rw [hd.file_eq, hd.source_eq] at hspans
    obtain ⟨i, j, hi, -, hu⟩ := hspans.covers_of_mem hu
    obtain ⟨w, -, ⟨hne, -⟩, -⟩ := next_token hc h ht
    exact hcov.precedes hu hne hi

lemma Cursor.getElem?_location_iff {c : Cursor} (hc : c.Placed) {us vs : List Token} {t : Token}
    (h : c.scan.tokens = us ++ t :: vs) (j : Nat) :
    (c.scan.tokens.map Token.location)[j]? = some t.location ↔ j = us.length := by
  have hnodup : (c.scan.tokens.map Token.location).Nodup := by
    rw [List.Nodup, List.pairwise_map]
    exact (c.scan_ascending hc).imp Location.Precedes.ne
  have hus : (c.scan.tokens.map Token.location)[us.length]? = some t.location := by
    simp [h]
  have hlt : us.length < (c.scan.tokens.map Token.location).length := by simp [h]
  constructor
  · intro hj
    exact ((List.getElem?_inj hlt hnodup).mp (hus.trans hj.symm)).symm
  · rintro rfl
    exact hus

end TinyC

import Mathlib.Tactic.Common
import TinyC.Proofs.Expr.Value
import TinyC.Proofs.Parse.Acceptance

namespace TinyC

namespace Grammar

lemma Derives.decimal {p : Part} {ts : List Token} {e : Expr} (h : Derives p ts e)
    (hts : ∀ t ∈ ts, t.Lexical) : e.Decimal := by
  induction h with
  | literal hk hd => exact (hts _ (by simp)).isDigit_of_mem hk hd
  | unary _ _ ih => exact ih fun t ht => hts t (by simp [ht])
  | parens _ _ _ ih => exact ih fun t ht => hts t (by simp [ht])
  | factor _ ih => exact ih hts
  | product _ _ _ ihx ihy =>
    exact ⟨ihx fun t ht => hts t (by simp [ht]), ihy fun t ht => hts t (by simp [ht])⟩
  | term _ ih => exact ih hts
  | sum _ _ _ ihx ihy =>
    exact ⟨ihx fun t ht => hts t (by simp [ht]), ihy fun t ht => hts t (by simp [ht])⟩

lemma Program.plain {ts : List Token} {f : Function} (h : Program ts f)
    (hts : ∀ t ∈ ts, t.Lexical) : '\n' ∉ f.name.toList ∧ f.body.value.Decimal := by
  obtain ⟨⟨-, hname, -, -, -, ⟨-, hx, -⟩, -⟩, -⟩ := h
  exact ⟨(hts _ (by simp)).notMem_newline (by simp [hname]),
    hx.decimal fun t ht => hts t (by simp [ht])⟩

lemma Program.isWord_name {ts : List Token} {f : Function} (h : Program ts f)
    (hts : ∀ t ∈ ts, t.Lexical) : Lexis.IsWord f.name.toList := by
  obtain ⟨⟨-, hname, -, -, -, -, -⟩, -⟩ := h
  exact (hts _ (by simp)).isWord hname

end Grammar

open Grammar

variable {limit : Nat}

lemma Cursor.fault_eq_none_of_eof {c : Cursor} {t : Token} (ht : t ∈ c.scan.tokens)
    (hk : t.kind = .eof) : c.scan.fault = none := by
  fun_induction scan c with
  | case1 c f d h => cases ht
  | case2 c u d h hu => rfl
  | case3 c u d h hu s ih =>
    rcases List.mem_cons.mp ht with rfl | ht
    · exact absurd hk hu
    · exact ih ht

structure Legible (limit : Nat) (file source : String) (f : Function) : Prop where
  lexes : (Cursor.start file source).scan.fault = none
  parses : Program (Cursor.start file source).scan.tokens f
  shallow : ∀ l line, Function.parse limit file source ≠ .error (.nesting l line)

lemma exists_program_of_parse {file source : String} {f : Function}
    (h : Function.parse limit file source = .ok f) :
    ∃ r q, Reader.start? limit file source = .ok r ∧ Parse.program r = .ok f q := by
  cases hr : Reader.start? limit file source with
  | error e =>
    rw [Function.parse, hr] at h
    cases h
  | ok r =>
    obtain ⟨q, hq⟩ := (parse_eq_ok_iff hr).mp h
    exact ⟨r, q, rfl, hq⟩

lemma legible_iff {file source : String} {f : Function} :
    Legible limit file source f ↔ Function.parse limit file source = .ok f := by
  constructor
  · intro h
    obtain ⟨r, hr, hf, ht⟩ := exists_start h.lexes
    rcases Parse.program_complete hf (ht ▸ h.parses) with hok | ⟨l, line, hdeep⟩
    · exact (parse_eq_ok_iff hr).mpr hok
    · exact absurd ((parse_eq_error_iff hr).mpr hdeep) (h.shallow l line)
  · intro h
    obtain ⟨r, q, hr, hq⟩ := exists_program_of_parse h
    have hp := Parse.program_ok hq
    rw [(Reader.start?_ok hr).1] at hp
    refine ⟨?_, hp, fun l line hn => ?_⟩
    · generalize hts : (Cursor.start file source).scan.tokens = ts at hp
      obtain ⟨-, hk⟩ := hp
      exact Cursor.fault_eq_none_of_eof (by simp [hts]) hk
    · cases h.symm.trans hn

lemma Legible.decimal {file source : String} {f : Function} (h : Legible limit file source f) :
    f.body.value.Decimal :=
  (h.parses.plain (Cursor.lexical_of_mem_scan _)).2

lemma Legible.isWord_name {file source : String} {f : Function} (h : Legible limit file source f) :
    Lexis.IsWord f.name.toList :=
  h.parses.isWord_name (Cursor.lexical_of_mem_scan _)

end TinyC

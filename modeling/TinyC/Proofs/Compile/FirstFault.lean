import Mathlib.Tactic.Common
import TinyC.Proofs.Compile.Outcome
import TinyC.Proofs.Parse.Viability

namespace TinyC

open Grammar

lemma parse_error_blames {limit : Nat} {file source : String} {e : ParseFault}
    (h : Function.parse limit file source = .error e) :
    Parse.Blames programs (Cursor.start file source).scan.tokens
      (Cursor.start file source).scan.fault e := by
  cases hr : Reader.start? limit file source with
  | error f =>
    rw [Function.parse, hr] at h
    cases h
    obtain ⟨ht, hf⟩ := Reader.start?_error hr
    apply Parse.Blames.defect hf
    rw [ht]
    exact Parse.program_pinpoints.opens
  | ok r =>
    obtain ⟨ht, hf, -⟩ := Reader.start?_ok hr
    obtain ⟨q, hq⟩ := (parse_eq_error_iff hr).mp h
    rw [← ht, ← hf]
    exact Parse.program_pinpoints.blames r q e hq

lemma compile_reading {limit : Nat} {o : Options} {file source : String} {e : ParseFault}
    (h : (compile limit o file source).failure = some (.reading e)) :
    Function.parse limit file source = .error e := by
  have hv := compile_verdict limit o file source
  generalize compile limit o file source = c at h hv
  cases hv with
  | unread hp =>
    cases h
    exact hp
  | unknown => cases h
  | deep => cases h
  | done => cases h

/-- The token that a syntactic failure points at is the first with which no program goes on. -/
theorem compile_blames_first_misfit {limit : Nat} {o : Options} {file source : String}
    {c : Complaint} {l : Location} {line : Option String}
    (h : (compile limit o file source).failure = some (.reading (.syntactic c l line))) :
    ∃ before t after, (Cursor.start file source).scan.tokens = before ++ t :: after ∧
      t.location = l ∧ Viable before ∧ ¬ Viable (before ++ [t]) := by
  cases parse_error_blames (compile_reading h) with
  | misfit hts hbefore ht =>
    rw [← viable_iff] at hbefore ht
    exact ⟨_, _, _, hts, rfl, hbefore, ht⟩

theorem compile_blames_first_misfit_keyword :
    let failure := (compile 1000 {} "a.c" "int f()\x7b\n  float 1; \x7d").failure
    (∃ c line, failure = some (.reading (.syntactic c ⟨"a.c", 2, 3⟩ line))) ∧
      ∃ before t after,
        (Cursor.start "a.c" "int f()\x7b\n  float 1; \x7d").scan.tokens = before ++ t :: after ∧
          t.location = ⟨"a.c", 2, 3⟩ ∧ Viable before ∧ ¬ Viable (before ++ [t]) := by
  have h : (compile 1000 {} "a.c" "int f()\x7b\n  float 1; \x7d").failure =
      some (.reading (.syntactic (.wrongKeyword "float" "return") ⟨"a.c", 2, 3⟩
        (some "  float 1; \x7d"))) := by
    decide +kernel
  exact ⟨⟨_, _, h⟩, compile_blames_first_misfit h⟩

/-- Before a lexical failure all tokens of the text start a program, except that the last of them
may be a keyword where another keyword has to stand. -/
theorem compile_lexical_after_viable {limit : Nat} {o : Options} {file source : String}
    {f : LexicalFault}
    (h : (compile limit o file source).failure = some (.reading (.lexical f))) :
    let s := (Cursor.start file source).scan
    s.fault = some f ∧ (Viable s.tokens ∨
      ∃ before t w, s.tokens = before ++ [t] ∧ t.kind = .keyword ∧ ¬ Viable s.tokens ∧
        Viable (before ++ [⟨⟨.keyword, w⟩, t.location⟩])) := by
  dsimp only
  cases parse_error_blames (compile_reading h) with
  | defect hf hts =>
    rw [← viable_iff] at hts
    exact ⟨hf, .inl hts⟩
  | keyword hf hts hk hw ht =>
    rw [← viable_iff] at hw ht
    rw [← hts] at ht
    exact ⟨hf, .inr ⟨_, _, _, hts, hk, ht, hw⟩⟩

theorem compile_lexical_after_viable_operand :
    let s := (Cursor.start "a.c" "int f()\x7breturn (1+@").scan
    ∃ f, (compile 1000 {} "a.c" "int f()\x7breturn (1+@").failure = some (.reading (.lexical f)) ∧
      s.fault = some f ∧ Viable s.tokens := by
  dsimp only
  have h : (compile 1000 {} "a.c" "int f()\x7breturn (1+@").failure = some (.reading (.lexical
      ⟨.unrecognized '@', ⟨"a.c", 1, 19⟩, "int f()\x7breturn (1+@"⟩)) := by
    decide +kernel
  have hlast : (Cursor.start "a.c" "int f()\x7breturn (1+@").scan.tokens.getLast?.map Token.kind =
      some .operator := by
    decide +kernel
  obtain ⟨hf, hv | ⟨before, t, w, hts, hk, -⟩⟩ := compile_lexical_after_viable h
  · exact ⟨_, h, hf, hv⟩
  · simp [hts, hk] at hlast

/-- A wrong keyword is not told of where a defect stands right behind it. -/
theorem lexical_defect_hides_wrong_keyword :
    (∃ f, (compile 1000 {} "a.c" "float @").failure = some (.reading (.lexical f))) ∧
      ¬ Viable (Cursor.start "a.c" "float @").scan.tokens := by
  have hf : (compile 1000 {} "a.c" "float @").failure = some (.reading (.lexical
      ⟨.unrecognized '@', ⟨"a.c", 1, 7⟩, "float @"⟩)) := by
    decide +kernel
  have ht : (Cursor.start "a.c" "float @").scan.tokens =
      [⟨⟨.keyword, "float"⟩, ⟨"a.c", 1, 1⟩⟩] := by
    decide +kernel
  refine ⟨⟨_, hf⟩, ?_⟩
  rw [ht, viable_iff, programs, opens_headed_iff]
  rintro ⟨hint, -⟩
  revert hint
  decide

end TinyC

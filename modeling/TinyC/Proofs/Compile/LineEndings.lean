import Mathlib.Tactic.Common
import TinyC.Compile
import TinyC.Proofs.Parse.Acceptance
import TinyC.Proofs.Parse.Quotation
import TinyC.Proofs.Token.LineEndings

namespace TinyC

variable {limit : Nat}

def Outcome.unquoted (c : Outcome Failure) : Outcome Diagnostic :=
  ⟨c.file, c.success, c.assembly, c.program, c.tokens,
    c.failure.map fun e => e.diagnostic.unquoted⟩

lemma exists_alike {file file' source source' : String}
    (hfault : (Cursor.start file source).scan.fault = none)
    (hfault' : (Cursor.start file' source').scan.fault = none)
    (htokens : (Cursor.start file' source').scan.tokens = (Cursor.start file source).scan.tokens) :
    ∃ r r', Reader.start? limit file source = .ok r ∧ Reader.start? limit file' source' = .ok r' ∧
      r.Alike r' := by
  obtain ⟨r, hr, hf, ht⟩ := exists_start hfault
  obtain ⟨r', hr', hf', ht'⟩ := exists_start hfault'
  refine ⟨r, r', hr, hr', ?_, hf, hf', ?_, ?_⟩
  · rw [ht', ht, htokens]
  · rw [(Reader.start?_ok hr').2.2, (Reader.start?_ok hr).2.2]
  · rw [Reader.limit_start? hr', Reader.limit_start? hr]

lemma Function.assemble_alike (f : Function) (o : Options) {q q' : Reader} (h : q.Alike q') :
    (f.assemble o q').mapError (fun e => e.diagnostic.unquoted) =
      (f.assemble o q).mapError fun e => e.diagnostic.unquoted := by
  rw [assemble, assemble]
  cases o.settings? with
  | none => rfl
  | some s =>
    dsimp only
    rw [h.limit]
    split_ifs
    · rw [h.lookahead]
      rfl
    · rfl

lemma compile_of_tokens (o : Options) {file source source' : String}
    (hfault : (Cursor.start file source).scan.fault = none)
    (hfault' : (Cursor.start file source').scan.fault = none)
    (htokens : (Cursor.start file source').scan.tokens = (Cursor.start file source).scan.tokens) :
    (compile limit o file source').unquoted = (compile limit o file source).unquoted := by
  obtain ⟨r, r', hr, hr', halike⟩ := exists_alike hfault hfault' htokens
  have hend := Parse.Uniform.program r r' halike
  rw [compile, compile, hr, hr']
  dsimp only
  generalize Parse.program r = y, Parse.program r' = y' at hend
  cases hend with
  | error he hpulled =>
    simp only [Outcome.unquoted, Outcome.failed, Option.map_some, Failure.diagnostic, he, hpulled]
  | @ok f q q' hq =>
    have hassemble := f.assemble_alike o hq
    dsimp only
    generalize f.assemble o q = z, f.assemble o q' = z' at hassemble
    cases z with
    | error e =>
      cases z' with
      | error e' =>
        have he := Except.error.inj hassemble
        simp only [Outcome.unquoted, Outcome.failed, Option.map_some, he, hq.pulled]
      | ok text' => cases hassemble
    | ok text =>
      cases z' with
      | error e' => cases hassemble
      | ok text' =>
        obtain rfl := Except.ok.inj hassemble
        simp only [Outcome.unquoted, Option.map_none, hq.pulled]

/-- A text without defects has the same tokens at the same places when each of its line feeds gets a
carriage return before it, and it compiles to the same code, or fails with the same message at the
same place, after as many tokens. -/
theorem compile_withReturns (limit : Nat) (o : Options) {file source : String}
    (h : (Cursor.start file source).scan.fault = none) :
    let s := (Cursor.start file source).scan
    let s' := (Cursor.start file (String.ofList (Text.withReturns source.toList))).scan
    let c := compile limit o file source
    let c' := compile limit o file (String.ofList (Text.withReturns source.toList))
    s'.fault = none ∧ s'.tokens = s.tokens ∧ c'.unquoted = c.unquoted := by
  obtain ⟨hfault, htokens⟩ := (Cursor.Returned.start file source).scan h
  exact ⟨hfault, htokens, compile_of_tokens o h hfault htokens⟩

theorem compile_withReturns_brace :
    let source := "int f()\n\x7b\n\treturn '\r'\n;\n\x7d"
    let source' := "int f()\r\n\x7b\r\n\treturn '\r'\r\n;\r\n\x7d"
    (Cursor.start "a.c" source).scan.fault = none ∧
      (Cursor.start "a.c" source').scan.tokens = (Cursor.start "a.c" source).scan.tokens ∧
      (compile 1000 {} "a.c" source').unquoted = (compile 1000 {} "a.c" source).unquoted := by
  intro source source'
  have hsource : String.ofList (Text.withReturns source.toList) = source' := by
    decide +kernel
  have hfault : (Cursor.start "a.c" source).scan.fault = none := by
    decide +kernel
  obtain ⟨-, htokens, hcompile⟩ := compile_withReturns 1000 {} hfault
  rw [hsource] at htokens hcompile
  exact ⟨hfault, htokens, hcompile⟩

end TinyC

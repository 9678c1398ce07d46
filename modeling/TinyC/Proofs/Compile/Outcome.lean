import Mathlib.Tactic.Common
import TinyC.Proofs.Compile.Preservation
import TinyC.Proofs.Parse.Trace

namespace TinyC

variable {limit : Nat}

def Adds (x : Emit Unit) (last : List Line) : Prop :=
  ∀ ls, ∃ new, x ls = .ok () (ls ++ (new ++ last).toArray)

namespace Adds

variable {x y : Emit Unit} {last : List Line}

lemma bind (hx : Adds x []) (hy : Adds y last) : Adds (x >>= fun _ => y) last := by
  intro ls
  obtain ⟨new, hnew⟩ := hx ls
  obtain ⟨more, hmore⟩ := hy (ls ++ (new ++ []).toArray)
  refine ⟨new ++ more, ?_⟩
  change EStateM.bind x (fun _ => y) ls = _
  rw [EStateM.bind, hnew]
  simpa using hmore

lemma write (new last : List Line) : Adds (Emit.write (new ++ last)) last :=
  fun _ => ⟨new, rfl⟩

lemma of_emits {t : Target} {ops : List Operation} (h : Emits t x ops) : Adds x [] := by
  intro ls
  obtain ⟨new, -, hls⟩ := h ls
  exact ⟨new, by simpa using hls⟩

lemma note (s : Settings) (text : String) : Adds (Emit.note s text) [] := by
  rw [Emit.note]
  split
  · exact write [.comment text] []
  · exact fun ls => ⟨[], by simp; rfl⟩

lemma function (s : Settings) {f : Function} (h : f.body.value.Decimal) :
    Adds (Emit.tree s f.toTree) [Instruction.line s.target .ret] := by
  have hvalue : Adds (Emit.tree s f.body.value.toTree) [] := of_emits (Emits.expr s h)
  have hreturn : Adds (Emit.code s [.ret]) [Instruction.line s.target .ret] := write [] _
  have hbody := hvalue.bind ((note s "return value in %eax").bind hreturn)
  have hheader := write [.directive ".globl" [s.symbolPrefix ++ f.name],
    .label (s.symbolPrefix ++ f.name)] []
  exact (note s ("Function: " ++ f.name)).bind (hheader.bind hbody)

end Adds

lemma Listing.text_append_singleton (ls : List Line) (l : Line) :
    Listing.text (ls ++ [l]).toArray = Listing.text ls.toArray ++ l.text ++ "\n" := by
  simp [Listing.text, String.join_append, String.append_assoc]

inductive Verdict (limit : Nat) (o : Options) (file source : String) : Outcome Failure → Prop
  | unread {e n} : Function.parse limit file source = .error e →
      Verdict limit o file source (.failed file n (.reading e))
  | unknown {f n} : Function.parse limit file source = .ok f → Target.ofName? o.target = none →
      Verdict limit o file source (.failed file n (.target o.target))
  | deep {f t n l line} : Function.parse limit file source = .ok f → Target.ofName? o.target = some t →
      limit < f.body.value.emissionWeight →
      Verdict limit o file source (.failed file n (.depth l line))
  | done {f t n text} : Function.parse limit file source = .ok f → Target.ofName? o.target = some t →
      f.body.value.emissionWeight ≤ limit →
      Verdict limit o file source ⟨file, true, text ++ "\n", some f, n, none⟩

lemma compile_verdict_of_program {o : Options} {file source : String} {r q : Reader} {f : Function}
    (hr : Reader.start? limit file source = .ok r) (hq : Parse.program r = .ok f q) :
    Verdict limit o file source (compile limit o file source) := by
  have hf := (parse_eq_ok_iff hr).mpr ⟨q, hq⟩
  obtain ⟨us, hus, -⟩ := Parse.program_ok_follows hq
  rw [compile, hr]
  simp only [hq]
  rw [Function.assemble, Options.settings?, hus.limit, Reader.limit_start? hr]
  cases ht : Target.ofName? o.target with
  | none => exact .unknown hf ht
  | some t =>
    simp only [Option.map_some]
    by_cases hw : limit < f.body.value.emissionWeight
    · rw [if_pos hw]
      exact .deep hf ht hw
    · obtain ⟨new, hnew⟩ := Adds.function ⟨t, o.symbolPrefix, o.comments⟩
        (legible_iff.mpr hf).decimal #[]
      rw [if_neg hw, hnew]
      simp only [Array.empty_append, Listing.text_append_singleton]
      exact .done hf ht (Nat.le_of_not_lt hw)

lemma compile_verdict (limit : Nat) (o : Options) (file source : String) :
    Verdict limit o file source (compile limit o file source) := by
  cases hr : Reader.start? limit file source with
  | error e =>
    have hp : Function.parse limit file source = .error (.lexical e) := by rw [Function.parse, hr]
    rw [compile, hr]
    exact .unread hp
  | ok r =>
    cases hq : Parse.program r with
    | error e q =>
      have hp := (parse_eq_error_iff hr).mpr ⟨q, hq⟩
      rw [compile, hr]
      simp only [hq]
      exact .unread hp
    | ok f q => exact compile_verdict_of_program hr hq

lemma ParseFault.stage_diagnostic (e : ParseFault) :
    e.diagnostic.stage = .lexical ∨ e.diagnostic.stage = .syntactic := by
  cases e with
  | lexical f => exact .inl rfl
  | syntactic c l line => exact .inr rfl
  | nesting l line => exact .inr rfl

namespace Outcome

structure Succeeds (c : Outcome Failure) (f : Function) : Prop where
  success : c.success = true
  failure : c.failure = none
  program : c.program = some f
  assembly : c.assembly ≠ "" ∧ ∃ text, c.assembly = text ++ "\n"
  unwrap : c.unwrap = .ok c.assembly

structure FailsWith (c : Outcome Failure) (e : Failure) : Prop where
  success : c.success = false
  failure : c.failure = some e
  program : c.program = none
  assembly : c.assembly = ""
  unwrap : c.unwrap = .error e

lemma failsWith_failed (file : String) (n : Nat) (e : Failure) :
    (failed file n e).FailsWith e :=
  ⟨rfl, rfl, rfl, rfl, rfl⟩

lemma FailsWith.not_succeeds {c : Outcome Failure} {e : Failure} {f : Function}
    (h : c.FailsWith e) : ¬ c.Succeeds f := by
  intro hs
  cases h.success.symm.trans hs.success

end Outcome

namespace Verdict

variable {o : Options} {file source : String} {c : Outcome Failure}

lemma settles (h : Verdict limit o file source c) : (∃ f, c.Succeeds f) ∨ ∃ e, c.FailsWith e := by
  cases h with
  | unread => exact .inr ⟨_, Outcome.failsWith_failed _ _ _⟩
  | unknown => exact .inr ⟨_, Outcome.failsWith_failed _ _ _⟩
  | deep => exact .inr ⟨_, Outcome.failsWith_failed _ _ _⟩
  | done => exact .inl ⟨_, rfl, rfl, rfl, ⟨by simp, _, rfl⟩, rfl⟩

lemma succeeds_iff (h : Verdict limit o file source c) (f : Function) :
    c.Succeeds f ↔ Function.parse limit file source = .ok f ∧ (∃ t, Target.ofName? o.target = some t) ∧
      f.body.value.emissionWeight ≤ limit := by
  constructor
  · intro hs
    cases h with
    | unread => exact absurd hs (Outcome.failsWith_failed _ _ _).not_succeeds
    | unknown => exact absurd hs (Outcome.failsWith_failed _ _ _).not_succeeds
    | deep => exact absurd hs (Outcome.failsWith_failed _ _ _).not_succeeds
    | done hp ht hw =>
      obtain rfl := Option.some.inj hs.program
      exact ⟨hp, ⟨_, ht⟩, hw⟩
  · rintro ⟨hp, ⟨t, ht⟩, hw⟩
    cases h with
    | unread hp' => cases hp.symm.trans hp'
    | unknown _ ht' => cases ht.symm.trans ht'
    | deep hp' _ hw' =>
      cases hp.symm.trans hp'
      exact absurd hw' (Nat.not_lt.mpr hw)
    | done hp' _ _ =>
      cases hp.symm.trans hp'
      exact ⟨rfl, rfl, rfl, ⟨by simp, _, rfl⟩, rfl⟩

lemma stage_generation_iff (h : Verdict limit o file source c) {e : Failure} (he : c.failure = some e) :
    e.diagnostic.stage = .generation ↔
      (∃ f, Function.parse limit file source = .ok f) ∧ Target.ofName? o.target = none := by
  cases h with
  | @unread e' n hp =>
    cases he
    constructor
    · intro hs
      rcases e'.stage_diagnostic with hs' | hs' <;> cases hs.symm.trans hs'
    · rintro ⟨⟨f, hf⟩, -⟩
      cases hp.symm.trans hf
  | unknown hp ht =>
    cases he
    exact ⟨fun _ => ⟨⟨_, hp⟩, ht⟩, fun _ => rfl⟩
  | deep hp ht hw =>
    cases he
    constructor
    · intro hs
      cases hs
    · rintro ⟨-, ht'⟩
      cases ht.symm.trans ht'
  | done => cases he

lemma stage_of_ne_generation (h : Verdict limit o file source c) {e : Failure} (he : c.failure = some e)
    (hs : e.diagnostic.stage ≠ .generation) :
    e.diagnostic.stage = .lexical ∨ e.diagnostic.stage = .syntactic := by
  cases h with
  | @unread e' n hp =>
    cases he
    exact e'.stage_diagnostic
  | unknown =>
    cases he
    exact absurd rfl hs
  | deep =>
    cases he
    exact .inr rfl
  | done => cases he

lemma ne_emission (h : Verdict limit o file source c) {e : Failure} (he : c.failure = some e)
    (fault : EmitFault) : e ≠ .emission fault := by
  rintro rfl
  cases h <;> cases he

end Verdict

/-- Every compilation succeeds with a program and its code, or fails with one error and nothing
else. It succeeds exactly for the texts that can be read, on a known target and not nested too deep.
The error is one of generation exactly if only the target is wrong; no text makes the emission
fail. -/
theorem compile_outcome (limit : Nat) (o : Options) (file source : String) :
    let c := compile limit o file source
    ((∃ f, c.Succeeds f) ∨ ∃ e, c.FailsWith e) ∧
      (∀ f, c.Succeeds f ↔ Legible limit file source f ∧ (∃ t, Target.ofName? o.target = some t) ∧
        f.body.value.emissionWeight ≤ limit) ∧
      (∀ e, c.failure = some e →
        (e.diagnostic.stage = .generation ↔
          (∃ f, Legible limit file source f) ∧ Target.ofName? o.target = none) ∧
        (e.diagnostic.stage ≠ .generation →
          e.diagnostic.stage = .lexical ∨ e.diagnostic.stage = .syntactic) ∧
        ∀ fault, e ≠ .emission fault) ∧
      ∀ f, Legible limit file source f → ∀ s ls, ∃ ls', Emit.tree s f.toTree ls = .ok () ls' := by
  dsimp only
  have hv := compile_verdict limit o file source
  refine ⟨hv.settles, fun f => ?_, fun e he => ⟨?_, ?_, ?_⟩, fun f hf s ls => ?_⟩
  · rw [legible_iff]
    exact hv.succeeds_iff f
  · simp only [legible_iff]
    exact hv.stage_generation_iff he
  · exact hv.stage_of_ne_generation he
  · exact hv.ne_emission he
  · obtain ⟨new, hnew⟩ := Adds.function s hf.decimal ls
    exact ⟨_, hnew⟩

end TinyC

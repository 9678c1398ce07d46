import Mathlib.Tactic.Common
import TinyC.Compile
import TinyC.Proofs.Assembly.Emission
import TinyC.Proofs.Parse.Legibility

/-! From a source text to a machine: compiled code returns the value of the program. -/

namespace TinyC

lemma Function.decode?_assemble {f : Function} {o : Options} {r : Reader} {text : String}
    (hp : '\n' ∉ o.symbolPrefix.toList) (hname : '\n' ∉ f.name.toList)
    (hdecimal : f.body.value.Decimal) (h : f.assemble o r = .ok text) :
    ∃ t, Target.ofName? o.target = some t ∧
      Operation.decode? t text = some (f.body.value.code.map Instruction.operation ++ [.ret]) := by
  rw [assemble, Options.settings?] at h
  cases ht : Target.ofName? o.target with
  | none => simp [ht] at h
  | some t =>
    let s : Settings := ⟨t, o.symbolPrefix, o.comments⟩
    obtain ⟨new, hnew, hls⟩ := Emits.function (s := s) hp hname hdecimal #[]
    simp only [ht, Option.map_some] at h
    split at h
    · simp at h
    · rw [hls] at h
      obtain rfl : Listing.text (#[] ++ new.toArray) = text := by simpa using h
      exact ⟨t, rfl, Spells.decode? (by simpa using hnew)⟩

lemma compile_success {limit : Nat} {o : Options} {file source : String}
    (h : (compile limit o file source).success = true) :
    ∃ r f q text, Reader.start? limit file source = .ok r ∧ Parse.program r = .ok f q ∧
      f.assemble o q = .ok text ∧
      (compile limit o file source).program = some f ∧ (compile limit o file source).assembly = text := by
  rw [compile] at h ⊢
  cases hr : Reader.start? limit file source with
  | error e => simp [hr, Outcome.failed] at h
  | ok r =>
    cases hf : Parse.program r with
    | error e q => simp [hr, hf, Outcome.failed] at h
    | ok f q =>
      cases ha : f.assemble o q with
      | error e => simp [hr, hf, ha, Outcome.failed] at h
      | ok text => exact ⟨r, f, q, text, rfl, hf, ha, by simp [hf, ha], by simp [hf, ha]⟩

/-- The compiled code of a program ends in its only return. Whatever machine it starts on, it never
looks below the stack that it finds. It returns the value of the program and leaves that stack,
unless the program has none: then it comes to a fault in a division. -/
theorem compile_preserves {limit : Nat} {o : Options} {file source : String}
    (hp : '\n' ∉ o.symbolPrefix.toList)
    (hs : (compile limit o file source).success = true) :
    ∃ f t body, (compile limit o file source).program = some f ∧ Target.ofName? o.target = some t ∧
      Operation.decode? t (compile limit o file source).assembly = some (body ++ [.ret]) ∧ .ret ∉ body ∧
      ∀ m : Machine t,
        let r := Machine.run (body ++ [.ret]) m
        (∀ n ∈ r.visited, m.stack <:+ n.stack) ∧
          (∀ v, f.body.value.value? = some v →
            ∃ n, r.ending = .returned n ∧ n.stack = m.stack ∧ n.read .eax = v) ∧
          ((∃ d n, r.ending = .faulted (.divide d) n) ↔ f.body.value.value? = none) := by
  obtain ⟨r, f, q, text, hr, hf, ha, hprogram, hassembly⟩ := compile_success hs
  have hlexical : ∀ t ∈ r.tokens, t.Lexical := by
    rw [(Reader.start?_ok hr).1]
    exact Cursor.lexical_of_mem_scan _
  obtain ⟨hname, hdecimal⟩ := (Parse.program_ok hf).plain hlexical
  obtain ⟨t, ht, hdecode⟩ := Function.decode?_assemble hp hname hdecimal ha
  refine ⟨f, t, _, hprogram, ht, hassembly ▸ hdecode, f.body.value.ret_notMem_operations, fun m => ?_⟩
  exact (f.body.value.code_yields m).run_ret

theorem compile_preserves_quotient :
    let c := compile 1000 ⟨"x86_64", "_", true⟩ "a.c" "int f(){return !0 - 7 / 2;}"
    c.success = true ∧ ∃ body, Operation.decode? .x86_64 c.assembly = some (body ++ [.ret]) ∧
      ∀ m : Machine .x86_64, ∃ n, (Machine.run (body ++ [.ret]) m).ending = .returned n ∧
        n.stack = m.stack ∧ n.read .eax = -2 := by
  dsimp only
  have hs : (compile 1000 ⟨"x86_64", "_", true⟩ "a.c" "int f(){return !0 - 7 / 2;}").success = true := by
    decide +kernel
  have hv : ((compile 1000 ⟨"x86_64", "_", true⟩ "a.c" "int f(){return !0 - 7 / 2;}").program.map
      fun f => f.body.value.value?) = some (some (-2)) := by
    decide +kernel
  obtain ⟨f, t, body, hf, ht, hd, -, hrun⟩ := compile_preserves (by decide) hs
  obtain rfl : Target.x86_64 = t := Option.some.inj ((Target.ofName?_name .x86_64).symm.trans ht)
  refine ⟨hs, body, hd, fun m => (hrun m).2.1 _ ?_⟩
  rw [hf] at hv
  exact Option.some.inj hv

end TinyC

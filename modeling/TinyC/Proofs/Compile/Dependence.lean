import Mathlib.Tactic.Common
import TinyC.Proofs.Compile.Tally
import TinyC.Proofs.Parse.Lockstep
import TinyC.Proofs.Tree.Sameness

namespace TinyC

namespace Expr

lemma emissionWeight_unplaced (x : Expr) : x.unplaced.emissionWeight = x.emissionWeight := by
  induction x with
  | literal l digits => rfl
  | unary l op x ih => rw [unplaced, emissionWeight, emissionWeight, ih]
  | binary l op x y ihx ihy => rw [unplaced, emissionWeight, emissionWeight, ihx, ihy]

lemma unplaced_toTree (x : Expr) : x.unplaced.toTree.unplaced = x.toTree.unplaced := by
  induction x with
  | literal l digits => rfl
  | unary l op x ih => simp only [unplaced, toTree, Tree.unplaced, ih]
  | binary l op x y ihx ihy => simp only [unplaced, toTree, Tree.unplaced, ihx, ihy]

lemma tree_unplaced (s : Settings) (x : Expr) :
    Emit.tree s x.unplaced.toTree = Emit.tree s x.toTree := by
  induction x with
  | literal l digits => rfl
  | unary l op x ih => simp only [unplaced, toTree, Emit.tree, ih]
  | binary l op x y ihx ihy => simp only [unplaced, toTree, Emit.tree, ihx, ihy]

end Expr

namespace Function

variable {f f' : Function}

lemma tree_unplaced (s : Settings) (f : Function) :
    Emit.tree s f.unplaced.toTree = Emit.tree s f.toTree := by
  simp only [unplaced, toTree, Return.toTree, Emit.tree, Expr.tree_unplaced]

lemma same_of_unplaced (h : f'.unplaced = f.unplaced) : f.toTree.same f'.toTree = true := by
  have hsame : ∀ g : Function, g.unplaced.toTree.unplaced = g.toTree.unplaced := by
    intro g
    simp only [unplaced, toTree, Return.toTree, Tree.unplaced, Expr.unplaced_toTree]
  apply Tree.same_of_unplaced_eq
  rw [← hsame f, ← hsame f', h]

lemma assemble_of_unplaced (h : f'.unplaced = f.unplaced) {o : Options} {q q' : Reader}
    {text : String} (ha : f.assemble o q = .ok text) (hlimit : q'.limit = q.limit) :
    f'.assemble o q' = .ok text := by
  have hweight : f'.body.value.emissionWeight = f.body.value.emissionWeight := by
    rw [← Expr.emissionWeight_unplaced, ← f.body.value.emissionWeight_unplaced]
    exact congrArg (fun g : Function => g.body.value.emissionWeight) h
  have htree : ∀ s, Emit.tree s f'.toTree = Emit.tree s f.toTree := by
    intro s
    rw [← tree_unplaced, h, tree_unplaced]
  rw [assemble] at ha ⊢
  cases hs : o.settings? with
  | none => simp [hs] at ha
  | some s =>
    simp only [hs, hweight, htree, hlimit] at ha ⊢
    split at ha
    · cases ha
    · rename_i hw
      rw [if_neg hw]
      exact ha

end Function

lemma exists_agree {limit : Nat} {file file' source source' : String} {r : Reader} {n : Nat}
    (hn : 1 ≤ n) (hr : Reader.start? limit file source = .ok r)
    (h : ((Cursor.start file' source').scan.tokens.map Token.lexeme).take n =
      ((Cursor.start file source).scan.tokens.map Token.lexeme).take n) :
    ∃ r', Reader.start? limit file' source' = .ok r' ∧ r.Agree n r' := by
  obtain ⟨htokens, -, hpulled⟩ := Reader.start?_ok hr
  cases hr' : Reader.start? limit file' source' with
  | error f =>
    obtain ⟨ts, hts⟩ := r.tokens_eq_cons
    obtain ⟨m, rfl⟩ : ∃ m, n = m + 1 := ⟨n - 1, by omega⟩
    rw [(Reader.start?_error hr').1, ← htokens, hts] at h
    cases h
  | ok r' =>
    obtain ⟨htokens', -, hpulled'⟩ := Reader.start?_ok hr'
    have hlimit : r'.limit = r.limit := by
      rw [Reader.limit_start? hr', Reader.limit_start? hr]
    refine ⟨r', rfl, hpulled'.trans hpulled.symm, hlimit, hpulled ▸ hn, ?_⟩
    rw [hpulled, htokens, htokens', Nat.add_sub_cancel]
    exact h

/-- What comes of a text that compiles, or of one that is refused at a token, is the same for every
text with the same tokens up to the last one that was cut, however these are laid out and whatever
follows them: the same code and program, or the same complaint about the token of the same index. -/
theorem compile_depends_on_lexemes {limit : Nat} {o : Options} {file file' source source' : String}
    (h : ((Cursor.start file' source').scan.tokens.map Token.lexeme).take
        (compile limit o file source).tokens =
      ((Cursor.start file source).scan.tokens.map Token.lexeme).take
        (compile limit o file source).tokens) :
    let c := compile limit o file source
    let c' := compile limit o file' source'
    let places := (Cursor.start file source).scan.tokens.map Token.location
    let places' := (Cursor.start file' source').scan.tokens.map Token.location
    (c.success = true → c'.success = true ∧ c'.tokens = c.tokens ∧ c'.assembly = c.assembly ∧
      ∃ f f', c.program = some f ∧ c'.program = some f' ∧ f.toTree.same f'.toTree = true) ∧
    ∀ complaint l line, c.failure = some (.reading (.syntactic complaint l line)) →
      c'.tokens = c.tokens ∧
        ∃ l' line', c'.failure = some (.reading (.syntactic complaint l' line')) ∧
          ∃ i : Nat, (∀ j, places[j]? = some l ↔ j = i) ∧ ∀ j, places'[j]? = some l' ↔ j = i := by
  dsimp only
  have hcourse := compile_course limit o file source
  generalize compile limit o file source = c at h hcourse
  cases hcourse with
  | unstarted hr =>
    constructor
    · rintro ⟨⟩
    · rintro _ _ _ ⟨⟩
  | @unread r e q hr hq =>
    constructor
    · rintro ⟨⟩
    · rintro complaint l line ⟨⟩
      have hstops := Parse.program_traced.error r _ q hq
      obtain ⟨i, hi, hpulled⟩ := syntactic_counts hr hstops
      have hreach := complaint.reach_pos
      obtain ⟨r', hr', hagree⟩ := exists_agree (show 1 ≤ q.pulled by omega) hr h
      obtain ⟨l', line', q', hq', hpulled'⟩ := Parse.program_error_of_agree hagree hq
      -- The same complaint after as many tokens is about the token of the same index.
      obtain ⟨i', hi', hcount⟩ := syntactic_counts hr' (Parse.program_traced.error r' _ q' hq')
      obtain rfl : i' = i := by omega
      rw [compile_of_error hr' hq']
      exact ⟨hpulled', l', line', rfl, i', hi, hi'⟩
  | unassembled hr hq ha =>
    constructor
    · rintro ⟨⟩
    · rintro _ _ _ ⟨⟩
      have he := Function.assemble_error ha
      simp at he
  | @assembled r f q text hr hq ha =>
    refine ⟨fun _ => ?_, by rintro _ _ _ ⟨⟩⟩
    obtain ⟨us, hus, -⟩ := Parse.program_ok_follows hq
    have hpulled := hus.pulled_eq hr
    obtain ⟨r', hr', hagree⟩ := exists_agree (show 1 ≤ q.pulled by omega) hr h
    obtain ⟨f', q', hq', hf, hpulled', hlimit⟩ := Parse.program_ok_of_agree hagree hq
    rw [compile_of_ok hr' hq' (Function.assemble_of_unplaced hf ha hlimit)]
    exact ⟨rfl, hpulled', rfl, f, f', rfl, rfl, Function.same_of_unplaced hf⟩

theorem compile_depends_on_lexemes_brace :
    let c := compile 1000 {} "a.c" "int f()\x7breturn 1\x7d"
    let c' := compile 1000 {} "b.c" "int\tf ( )\n\x7b return 1\n\x7d @"
    let complaint := Complaint.expected .semicolon ⟨.closeBrace, "\x7d"⟩
    (c.failure = some (.reading (.syntactic complaint ⟨"a.c", 1, 17⟩
        (some "int f()\x7breturn 1\x7d"))) ∧
      ((Cursor.start "b.c" "int\tf ( )\n\x7b return 1\n\x7d @").scan.tokens.map
          Token.lexeme).take c.tokens =
        ((Cursor.start "a.c" "int f()\x7breturn 1\x7d").scan.tokens.map Token.lexeme).take
          c.tokens) ∧
      c'.tokens = c.tokens ∧
        ∃ l line, c'.failure = some (.reading (.syntactic complaint l line)) := by
  dsimp only
  have hf : (compile 1000 {} "a.c" "int f()\x7breturn 1\x7d").failure =
      some (.reading (.syntactic (.expected .semicolon ⟨.closeBrace, "\x7d"⟩) ⟨"a.c", 1, 17⟩
        (some "int f()\x7breturn 1\x7d"))) := by
    decide +kernel
  have hts : ((Cursor.start "b.c" "int\tf ( )\n\x7b return 1\n\x7d @").scan.tokens.map
        Token.lexeme).take (compile 1000 {} "a.c" "int f()\x7breturn 1\x7d").tokens =
      ((Cursor.start "a.c" "int f()\x7breturn 1\x7d").scan.tokens.map Token.lexeme).take
        (compile 1000 {} "a.c" "int f()\x7breturn 1\x7d").tokens := by
    decide +kernel
  obtain ⟨htokens, l, line, hl, -⟩ := (compile_depends_on_lexemes hts).2 _ _ _ hf
  exact ⟨⟨hf, hts⟩, htokens, l, line, hl⟩

end TinyC

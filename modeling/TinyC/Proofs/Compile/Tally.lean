import Mathlib.Tactic.Common
import TinyC.Compile
import TinyC.Proofs.Parse.Trace
import TinyC.Proofs.Token.Span

namespace TinyC

inductive Course (limit : Nat) (o : Options) (file source : String) : Outcome Failure → Prop
  | unstarted {f} : Reader.start? limit file source = .error f →
      Course limit o file source (.failed file 0 (.reading (.lexical f)))
  | unread {r e q} : Reader.start? limit file source = .ok r → Parse.program r = .error e q →
      Course limit o file source (.failed file q.pulled (.reading e))
  | unassembled {r f q e} : Reader.start? limit file source = .ok r → Parse.program r = .ok f q →
      f.assemble o q = .error e → Course limit o file source (.failed file q.pulled e)
  | assembled {r f q text} : Reader.start? limit file source = .ok r → Parse.program r = .ok f q →
      f.assemble o q = .ok text → Course limit o file source ⟨file, true, text, some f, q.pulled, none⟩

lemma compile_course (limit : Nat) (o : Options) (file source : String) :
    Course limit o file source (compile limit o file source) := by
  rw [compile]
  cases hr : Reader.start? limit file source with
  | error f => exact .unstarted hr
  | ok r =>
    cases hq : Parse.program r with
    | error e q =>
      simp only [hq]
      exact .unread hr hq
    | ok f q =>
      simp only [hq]
      cases ha : f.assemble o q with
      | error e => exact .unassembled hr hq ha
      | ok text => exact .assembled hr hq ha

section

variable {limit : Nat} {o : Options} {file source : String} {r q : Reader}

lemma compile_of_error {e : ParseFault} (hr : Reader.start? limit file source = .ok r)
    (hq : Parse.program r = .error e q) :
    compile limit o file source = .failed file q.pulled (.reading e) := by
  rw [compile, hr]
  simp only [hq]

lemma compile_of_ok {f : Function} {text : String} (hr : Reader.start? limit file source = .ok r)
    (hq : Parse.program r = .ok f q) (ha : f.assemble o q = .ok text) :
    compile limit o file source = ⟨file, true, text, some f, q.pulled, none⟩ := by
  rw [compile, hr]
  simp only [hq, ha]

end

lemma Function.assemble_error {f : Function} {o : Options} {q : Reader} {e : Failure}
    (h : f.assemble o q = .error e) :
    e = .target o.target ∨ e = .depth q.lookahead.location (q.lineOf? q.lookahead) ∨
      ∃ fault, e = .emission fault := by
  rw [assemble] at h
  split at h
  · cases h
    exact .inl rfl
  · split at h
    · cases h
      exact .inr (.inl rfl)
    · split at h
      · cases h
      · cases h
        exact .inr (.inr ⟨_, rfl⟩)

section

variable {limit : Nat} {file source : String} {r q : Reader}

lemma Reader.tokens_of_eof (h : q.lookahead.kind = .eof) : q.tokens = [q.lookahead] :=
  if_pos h

lemma Reader.Follows.index {us : List Token} (hr : start? limit file source = .ok r)
    (h : r.Follows us q) (j : Nat) :
    ((Cursor.start file source).scan.tokens.map Token.location)[j]? = some q.lookahead.location ↔
      j = us.length := by
  obtain ⟨ts, hts⟩ := q.tokens_eq_cons
  apply Cursor.getElem?_location_iff (Cursor.start_placed file source)
  rw [← (start?_ok hr).1, h.tokens, hts]

lemma Reader.Follows.pulled_eq {us : List Token} (hr : start? limit file source = .ok r)
    (h : r.Follows us q) : q.pulled = us.length + 1 := by
  rw [h.pulled, (start?_ok hr).2.2, Nat.add_comm]

lemma program_counts {f : Function} (hr : Reader.start? limit file source = .ok r)
    (hq : Parse.program r = .ok f q) :
    (Cursor.start file source).scan.fault = none ∧
      q.pulled = (Cursor.start file source).scan.tokens.length := by
  obtain ⟨us, hus, hk⟩ := Parse.program_ok_follows hq
  obtain ⟨htokens, hfault, -⟩ := Reader.start?_ok hr
  constructor
  · rw [← hfault, ← hus.fault, Reader.fault, if_pos hk]
  · rw [hus.pulled_eq hr, ← htokens, hus.tokens, Reader.tokens_of_eof hk, List.length_append,
      List.length_singleton]

lemma lexical_counts {words : List String} {f : LexicalFault}
    (hr : Reader.start? limit file source = .ok r) (h : Parse.Stops words r (.lexical f) q) :
    (Cursor.start file source).scan.fault = some f ∧
      q.pulled = (Cursor.start file source).scan.tokens.length := by
  obtain ⟨htokens, hfault, hpulled⟩ := Reader.start?_ok hr
  cases h with
  | defect hts hf hq =>
    refine ⟨hfault ▸ hf, ?_⟩
    rw [hq, hpulled, ← htokens, hts, List.length_append, List.length_singleton, Nat.add_comm]

lemma syntactic_counts {words : List String} {c : Complaint} {l : Location} {line : Option String}
    (hr : Reader.start? limit file source = .ok r) (h : Parse.Stops words r (.syntactic c l line) q) :
    ∃ i, (∀ j, ((Cursor.start file source).scan.tokens.map Token.location)[j]? = some l ↔ j = i) ∧
      q.pulled = i + c.reach := by
  cases h with
  | @misfit us _ _ hus hc =>
    refine ⟨us.length, hus.index hr, ?_⟩
    rw [hus.pulled_eq hr]
    cases hc with
    | expected k => rfl
    | fraction => rfl
    | noExpression => rfl
  | @keyword us t w _ hus hw =>
    refine ⟨us.length, ?_, ?_⟩
    · have hts : (Cursor.start file source).scan.tokens = us ++ t :: q.tokens := by
        rw [← (Reader.start?_ok hr).1, hus.tokens, List.append_assoc, List.singleton_append]
      exact Cursor.getElem?_location_iff (Cursor.start_placed file source) hts
    · rw [hus.pulled_eq hr, List.length_append, List.length_singleton, Complaint.reach]

end

/-- A compilation that reads its text cuts all tokens that the text has. One that fails for a defect
has cut all before it, and the text has that defect. Where a token does not fit, the tokens up to it
are cut, and one more if it is a wrong keyword; too deep a nesting of what was read is told at the
last token. No text with a defect compiles. -/
theorem compile_counts_tokens (limit : Nat) (o : Options) (file source : String) :
    let c := compile limit o file source
    let s := (Cursor.start file source).scan
    ((∀ e, c.failure ≠ some (.reading e)) → s.fault = none ∧ c.tokens = s.tokens.length) ∧
      (∀ f, c.failure = some (.reading (.lexical f)) →
        s.fault = some f ∧ c.tokens = s.tokens.length) ∧
      (∀ complaint l line, c.failure = some (.reading (.syntactic complaint l line)) →
        ∃ i, (∀ j, (s.tokens.map Token.location)[j]? = some l ↔ j = i) ∧
          c.tokens = i + complaint.reach) ∧
      (∀ l line, c.failure = some (.depth l line) →
        ∃ i, (∀ j, (s.tokens.map Token.location)[j]? = some l ↔ j = i) ∧ c.tokens = i + 1) ∧
      (s.fault ≠ none → c.failure ≠ none) := by
  dsimp only
  have hcourse := compile_course limit o file source
  generalize compile limit o file source = c at hcourse
  cases hcourse with
  | unstarted hr =>
    obtain ⟨htokens, hfault⟩ := Reader.start?_error hr
    refine ⟨fun h => absurd rfl (h _), fun f hf => ?_, ?_, ?_, ?_⟩
    · cases hf
      exact ⟨hfault, by rw [htokens]; rfl⟩
    · rintro _ _ _ ⟨⟩
    · rintro _ _ ⟨⟩
    · rintro _ ⟨⟩
  | @unread r e q hr hq =>
    have hstops := Parse.program_traced.error r e q hq
    refine ⟨fun h => absurd rfl (h _), fun f hf => ?_, fun complaint l line hf => ?_, ?_, ?_⟩
    · cases hf
      exact lexical_counts hr hstops
    · cases hf
      exact syntactic_counts hr hstops
    · rintro _ _ ⟨⟩
    · rintro _ ⟨⟩
  | @unassembled r f q e hr hq ha =>
    obtain ⟨us, hus, hk⟩ := Parse.program_ok_follows hq
    have he := Function.assemble_error ha
    refine ⟨fun _ => program_counts hr hq, ?_, ?_, fun l line hf => ?_, ?_⟩
    · rintro _ ⟨⟩
      simp at he
    · rintro _ _ _ ⟨⟩
      simp at he
    · cases hf
      obtain ⟨rfl, -⟩ : l = _ ∧ line = _ := by simpa using he
      exact ⟨us.length, hus.index hr, hus.pulled_eq hr⟩
    · rintro _ ⟨⟩
  | assembled hr hq ha =>
    have hcounts := program_counts hr hq
    refine ⟨fun _ => hcounts, ?_, ?_, ?_, fun hf => absurd hcounts.1 hf⟩
    · rintro _ ⟨⟩
    · rintro _ _ _ ⟨⟩
    · rintro _ _ ⟨⟩

end TinyC

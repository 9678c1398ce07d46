import Mathlib.Tactic.Common
import TinyC.Proofs.Parse.Stream

namespace TinyC

def Diagnostic.unquoted (d : Diagnostic) : Diagnostic :=
  { d with sourceLine := none }

structure Reader.Alike (r r' : Reader) : Prop where
  tokens : r'.tokens = r.tokens
  fault : r.fault = none
  fault' : r'.fault = none
  pulled : r'.pulled = r.pulled
  limit : r'.limit = r.limit

namespace Reader.Alike

variable {r r' q q' : Reader} {t t' : Token}

lemma lookahead (h : r.Alike r') : r'.lookahead = r.lookahead := by
  obtain ⟨ts, hts⟩ := r.tokens_eq_cons
  exact lookahead_eq (h.tokens.trans hts)

lemma step (h : r.Alike r') (hq : r.Follows [t] q) (hq' : r'.Follows [t'] q') : q.Alike q' where
  tokens := by
    have hts := h.tokens
    rw [hq.tokens, hq'.tokens] at hts
    exact (List.cons.inj hts).2
  fault := hq.fault.trans h.fault
  fault' := hq'.fault.trans h.fault'
  pulled := by rw [hq.pulled, hq'.pulled, h.pulled]; rfl
  limit := by rw [hq.limit, hq'.limit, h.limit]

end Reader.Alike

namespace Parse

variable {α β : Type}

inductive EndsAlike : EStateM.Result ParseFault Reader α → EStateM.Result ParseFault Reader α → Prop
  | ok {a q q'} : q.Alike q' → EndsAlike (.ok a q) (.ok a q')
  | error {e e' q q'} : e'.diagnostic.unquoted = e.diagnostic.unquoted → q'.pulled = q.pulled →
      EndsAlike (.error e q) (.error e' q')

def Uniform (x : Parse α) : Prop :=
  ∀ r r', r.Alike r' → EndsAlike (x r) (x r')

namespace Uniform

lemma pure (a : α) : Uniform (Pure.pure a : Parse α) :=
  fun _ _ h => .ok h

lemma complain (c : Complaint) (t : Token) : Uniform (Parse.complain c t : Parse α) :=
  fun _ _ h => .error rfl h.pulled

lemma tooDeep : Uniform (Parse.tooDeep : Parse α) := by
  intro r r' h
  refine .error ?_ h.pulled
  rw [h.lookahead]
  rfl

lemma bind {x : Parse α} {g : α → Parse β} (hx : Uniform x) (hg : ∀ a, Uniform (g a)) :
    Uniform (x >>= g) := by
  intro r r' h
  have hend := hx r r' h
  change EndsAlike (EStateM.bind x g r) (EStateM.bind x g r')
  rw [EStateM.bind, EStateM.bind]
  generalize x r = y, x r' = y' at hend
  cases hend with
  | ok hq => exact hg _ _ _ hq
  | error he hp => exact .error he hp

lemma advance : Uniform Parse.advance := by
  intro r r' h
  by_cases hk : r.lookahead.kind = .eof
  · have hk' : r'.lookahead.kind = .eof := h.lookahead ▸ hk
    rw [advance_eof hk, advance_eof hk', h.lookahead]
    exact .ok h
  · have hk' : r'.lookahead.kind ≠ .eof := h.lookahead ▸ hk
    rcases advance_spec hk with ⟨q, hq, hf⟩ | ⟨f, q, -, -, hf⟩
    · rcases advance_spec hk' with ⟨q', hq', hf'⟩ | ⟨f, q', -, -, hf'⟩
      · rw [hq, hq', h.lookahead]
        exact .ok (h.step hf hf')
      · cases h.fault'.symm.trans hf'
    · cases h.fault.symm.trans hf

lemma expect (kind : Kind) : Uniform (Parse.expect kind) := by
  intro r r' h
  by_cases hk : r.lookahead.kind = kind
  · rw [expect_of_kind hk, expect_of_kind (h.lookahead ▸ hk)]
    exact advance r r' h
  · rw [expect_of_ne hk, expect_of_ne (h.lookahead ▸ hk), h.lookahead]
    exact complain _ _ r r' h

lemma keyword (word : String) : Uniform (Parse.keyword word) := by
  refine (expect .keyword).bind fun t => ?_
  split
  · exact pure t
  · exact complain _ t

lemma resume (p : Part) (s : ExprState) : Uniform (Parse.resume p s) := by
  intro r r' h
  -- the moves depend on the lookahead, which is the same at every turn of the loop
  fun_induction Parse.resume p s r generalizing r' with
  | case1 s r x hm =>
    rw [resume_finish (h.lookahead ▸ hm)]
    exact .ok h
  | case2 s r c hm =>
    rw [resume_refuse (h.lookahead ▸ hm), h.lookahead]
    exact complain c _ r r' h
  | case3 s r u hm f q ha =>
    rcases advance_spec (ExprState.kind_of_take hm) with ⟨q', hq, -⟩ | ⟨g, q', -, -, hf⟩
    · cases ha.symm.trans hq
    · cases h.fault.symm.trans hf
  | case4 s r u hm t q ha hw =>
    have hend := advance r r' h
    generalize ha' : Parse.advance r' = y at hend
    rw [ha] at hend
    cases hend with
    | ok hq =>
      rw [resume_take (h.lookahead ▸ hm) ha', hq.limit, if_pos hw]
      exact tooDeep _ _ hq
  | case5 s r u hm t q ha hw ih =>
    have hend := advance r r' h
    generalize ha' : Parse.advance r' = y at hend
    rw [ha] at hend
    cases hend with
    | ok hq =>
      rw [resume_take (h.lookahead ▸ hm) ha', hq.limit, if_neg hw]
      exact ih _ hq

lemma program : Uniform Parse.program := by
  rw [program_eq]
  exact (keyword _).bind fun _ => (expect _).bind fun _ => (expect _).bind fun _ =>
    (expect _).bind fun _ => (expect _).bind fun _ => (keyword _).bind fun _ =>
      (resume _ _).bind fun _ => (expect _).bind fun _ => (expect _).bind fun _ =>
        (expect _).bind fun _ => pure _

end Uniform

end Parse

end TinyC

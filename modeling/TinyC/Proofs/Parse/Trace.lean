import Mathlib.Tactic.Common
import TinyC.Proofs.Parse.Stream

namespace TinyC

inductive Complaint.Concerns (t : Token) : Complaint → Prop
  | expected (k : Kind) : Concerns t (.expected k t.lexeme)
  | fraction : Concerns t (.fraction t.text)
  | noExpression : Concerns t (.noExpression t.lexeme)

def Complaint.reach : Complaint → Nat
  | wrongKeyword _ _ => 2
  | _ => 1

lemma Complaint.reach_pos (c : Complaint) : 0 < c.reach := by
  cases c with
  | _ => exact Nat.succ_pos _

lemma ExprState.concerns_of_refuse {p : Part} {s : ExprState} {t : Token} {c : Complaint}
    (h : s.move p t = .refuse c) : c.Concerns t := by
  cases s with
  | before level signs outer =>
    rw [move, moveBefore] at h
    split at h
    · cases h
    · split at h
      · cases h
      · cases h
        exact .noExpression
    · split at h
      · cases h
        exact .fraction
      · cases h
    · cases h
      exact .noExpression
  | after x level outer =>
    cases outer with
    | nil =>
      rw [move, moveAfter] at h
      split at h <;> cases h
    | cons s outer =>
      rw [move, moveAfter] at h
      split at h
      · cases h
      · split at h
        · cases h
        · cases h
          exact .expected _

namespace Parse

inductive Stops (words : List String) (r : Reader) : ParseFault → Reader → Prop
  | defect {us f q} : r.tokens = us ++ [q.lookahead] → r.fault = some f →
      q.pulled = r.pulled + us.length → Stops words r (.lexical f) q
  | misfit {us c q} : r.Follows us q → c.Concerns q.lookahead →
      Stops words r (.syntactic c q.lookahead.location (q.lineOf? q.lookahead)) q
  | keyword {us t w q} : r.Follows (us ++ [t]) q → w ∈ words →
      Stops words r (.syntactic (.wrongKeyword t.text w) t.location (q.lineOf? t)) q
  | nesting {us q} : r.Follows us q →
      Stops words r (.nesting q.lookahead.location (q.lineOf? q.lookahead)) q

variable {words : List String} {r q o : Reader} {e : ParseFault}

lemma Stops.prepend {us : List Token} (hf : r.Follows us q) (h : Stops words q e o) :
    Stops words r e o := by
  cases h with
  | @defect vs f _ hts hfault hpulled =>
    have htokens : r.tokens = (us ++ vs) ++ [o.lookahead] := by
      rw [hf.tokens, hts, List.append_assoc]
    apply Stops.defect htokens (hf.fault ▸ hfault)
    rw [hpulled, hf.pulled, List.length_append, Nat.add_assoc]
  | misfit hq hc => exact .misfit (hf.trans hq) hc
  | keyword hq hw =>
    have hr := hf.trans hq
    rw [← List.append_assoc] at hr
    exact .keyword hr hw
  | nesting hq => exact .nesting (hf.trans hq)

structure Traced {α : Type} (words : List String) (x : Parse α) : Prop where
  ok : ∀ r a q, x r = .ok a q → ∃ us, r.Follows us q
  error : ∀ r e q, x r = .error e q → Stops words r e q

lemma Traced.pure {α : Type} (a : α) : Traced words (Pure.pure a : Parse α) where
  ok r b q h := by
    cases h
    exact ⟨[], .refl r⟩
  error r e q h := by cases h

lemma Traced.bind {α β : Type} {x : Parse α} {g : α → Parse β} (hx : Traced words x)
    (hg : ∀ a, Traced words (g a)) : Traced words (x >>= g) where
  ok r b q h := by
    obtain ⟨a, o, ho, hq⟩ := bind_eq_ok.mp h
    obtain ⟨us, hus⟩ := hx.ok r a o ho
    obtain ⟨vs, hvs⟩ := (hg a).ok o b q hq
    exact ⟨us ++ vs, hus.trans hvs⟩
  error r e q h := by
    rcases bind_eq_error.mp h with h | ⟨a, o, ho, hq⟩
    · exact hx.error r e q h
    · obtain ⟨us, hus⟩ := hx.ok r a o ho
      exact ((hg a).error o e q hq).prepend hus

lemma advance_follows {t : Token} (h : advance r = .ok t q) : ∃ us, r.Follows us q := by
  by_cases hk : r.lookahead.kind = .eof
  · rw [advance_eof hk] at h
    cases h
    exact ⟨[], .refl r⟩
  · rcases advance_spec hk with ⟨o, ho, hf⟩ | ⟨f, o, ho, -⟩
    · cases h.symm.trans ho
      exact ⟨_, hf⟩
    · cases h.symm.trans ho

lemma advance_traced : Traced words advance where
  ok r t q h := advance_follows h
  error r e q h := by
    rw [advance] at h
    split at h
    · cases h
    · rename_i hk
      split at h
      · cases h
      · rename_i f d hn
        cases h
        have hts : r.tokens = [] ++ [r.lookahead] := by
          rw [Reader.tokens, if_neg hk, Cursor.scan_of_error hn, List.nil_append]
        refine .defect hts ?_ rfl
        rw [Reader.fault, if_neg hk, Cursor.scan_of_error hn]

lemma expect_traced (k : Kind) : Traced words (expect k) where
  ok r t q h := by
    by_cases hk : r.lookahead.kind = k
    · rw [expect_of_kind hk] at h
      exact advance_follows h
    · rw [expect_of_ne hk] at h
      cases h
  error r e q h := by
    by_cases hk : r.lookahead.kind = k
    · rw [expect_of_kind hk] at h
      exact advance_traced.error r e q h
    · rw [expect_of_ne hk] at h
      cases h
      exact .misfit (.refl r) (.expected k)

lemma keyword_traced {w : String} (hw : w ∈ words) : Traced words (keyword w) where
  ok r t q h := ⟨[t], (keyword_ok h).2⟩
  error r e q h := by
    rcases bind_eq_error.mp h with h | ⟨t, o, ht, h⟩
    · exact (expect_traced .keyword).error r e q h
    · have hf : r.Follows ([] ++ [t]) o := (expect_ok (by decide) ht).2
      split at h
      · cases h
      · cases h
        exact .keyword hf hw

lemma resume_traced (p : Part) (s : ExprState) : Traced words (resume p s) where
  ok r x q h := by
    have hres := resume_resumed p s r
    rw [h] at hres
    cases hres with
    | finish hf => exact ⟨_, hf⟩
  error r e q h := by
    fun_induction resume p s r with
    | case1 s r x hm => cases h
    | case2 s r c hm =>
      cases h
      exact .misfit (.refl _) (ExprState.concerns_of_refuse hm)
    | case3 s r u hm f o ha =>
      cases h
      exact advance_traced.error r _ _ ha
    | case4 s r u hm t o ha hw =>
      cases h
      obtain ⟨us, hus⟩ := advance_follows ha
      exact .nesting hus
    | case5 s r u hm t o ha hw ih =>
      obtain ⟨us, hus⟩ := advance_follows ha
      exact (ih h).prepend hus

lemma statement_traced : Traced ["int", "return"] statement :=
  (keyword_traced (by simp)).bind fun _ => (resume_traced _ _).bind fun _ =>
    (expect_traced _).bind fun _ => .pure _

lemma function_traced : Traced ["int", "return"] function :=
  (keyword_traced (by simp)).bind fun _ => (expect_traced _).bind fun _ =>
    (expect_traced _).bind fun _ => (expect_traced _).bind fun _ => (expect_traced _).bind fun _ =>
      statement_traced.bind fun _ => (expect_traced _).bind fun _ => .pure _

lemma program_traced : Traced ["int", "return"] program :=
  function_traced.bind fun _ => (expect_traced _).bind fun _ => .pure _

lemma program_ok_follows {f : Function} (h : program r = .ok f q) :
    ∃ us, r.Follows us q ∧ q.lookahead.kind = .eof := by
  obtain ⟨us, hus⟩ := program_traced.ok r f q h
  refine ⟨us, hus, ?_⟩
  obtain ⟨g, o, -, h⟩ := bind_eq_ok.mp h
  obtain ⟨t, o', ht, h⟩ := bind_eq_ok.mp h
  cases h
  obtain ⟨hk, hts, rfl⟩ := expect_eof_ok ht
  rw [Reader.lookahead_eq hts, hk]

end Parse

end TinyC

import Mathlib.Tactic.Common
import TinyC.Parse.Program
import TinyC.Proofs.Parse.Grammar
import TinyC.Proofs.Token.Tiling

namespace TinyC

namespace Reader

def tokens (r : Reader) : List Token :=
  if r.lookahead.kind = .eof then [r.lookahead] else r.lookahead :: r.cursor.scan.tokens

def fault (r : Reader) : Option LexicalFault :=
  if r.lookahead.kind = .eof then none else r.cursor.scan.fault

lemma tokens_eq_cons (r : Reader) : ∃ ts, r.tokens = r.lookahead :: ts := by
  rw [tokens]
  split
  · exact ⟨[], rfl⟩
  · exact ⟨r.cursor.scan.tokens, rfl⟩

lemma lookahead_eq {r : Reader} {t : Token} {ts : List Token} (h : r.tokens = t :: ts) :
    r.lookahead = t := by
  obtain ⟨us, hus⟩ := r.tokens_eq_cons
  exact (List.cons.inj (hus.symm.trans h)).1

lemma tokens_of_next {c d : Cursor} {t : Token} (n limit : Nat) (h : c.next = .ok t d) :
    (Reader.mk t d n limit).tokens = c.scan.tokens ∧
      (Reader.mk t d n limit).fault = c.scan.fault := by
  by_cases ht : t.kind = .eof
  · simp [tokens, fault, ht, Cursor.scan_of_eof h ht]
  · simp [tokens, fault, ht, Cursor.scan_of_token h ht]

variable {limit : Nat} {file source : String}

lemma start?_ok {r : Reader} (h : start? limit file source = .ok r) :
    r.tokens = (Cursor.start file source).scan.tokens ∧
      r.fault = (Cursor.start file source).scan.fault ∧ r.pulled = 1 := by
  rw [start?] at h
  split at h
  · rename_i t d hn
    cases h
    obtain ⟨ht, hf⟩ := tokens_of_next 1 limit hn
    exact ⟨ht, hf, rfl⟩
  · cases h

lemma limit_start? {r : Reader} (h : start? limit file source = .ok r) : r.limit = limit := by
  rw [start?] at h
  split at h
  · cases h
    rfl
  · cases h

lemma start?_error {f : LexicalFault} (h : start? limit file source = .error f) :
    (Cursor.start file source).scan.tokens = [] ∧
      (Cursor.start file source).scan.fault = some f := by
  rw [start?] at h
  split at h
  · cases h
  · rename_i f' d hn
    cases h
    rw [Cursor.scan_of_error hn]
    exact ⟨rfl, rfl⟩

structure Follows (r : Reader) (us : List Token) (q : Reader) : Prop where
  tokens : r.tokens = us ++ q.tokens
  fault : q.fault = r.fault
  pulled : q.pulled = r.pulled + us.length
  source : q.cursor.source = r.cursor.source
  limit : q.limit = r.limit

lemma Follows.refl (r : Reader) : r.Follows [] r :=
  ⟨rfl, rfl, rfl, rfl, rfl⟩

lemma Follows.trans {r q o : Reader} {us vs : List Token} (h : r.Follows us q)
    (h' : q.Follows vs o) : r.Follows (us ++ vs) o where
  tokens := by rw [h.tokens, h'.tokens, List.append_assoc]
  fault := h'.fault.trans h.fault
  pulled := by rw [h'.pulled, h.pulled, List.length_append, Nat.add_assoc]
  source := h'.source.trans h.source
  limit := h'.limit.trans h.limit

end Reader

namespace Parse

lemma advance_eof {r : Reader} (h : r.lookahead.kind = .eof) : advance r = .ok r.lookahead r := by
  rw [advance, if_pos h]

lemma advance_spec {r : Reader} (h : r.lookahead.kind ≠ .eof) :
    (∃ q, advance r = .ok r.lookahead q ∧ r.Follows [r.lookahead] q) ∨
      ∃ f q, advance r = .error (.lexical f) q ∧ r.tokens = [r.lookahead] ∧ r.fault = some f := by
  rw [advance, if_neg h]
  split
  · rename_i t c hn
    obtain ⟨ht, hf⟩ := Reader.tokens_of_next (r.pulled + 1) r.limit hn
    refine .inl ⟨⟨t, c, r.pulled + 1, r.limit⟩, rfl, ?_, ?_, rfl, Cursor.source_next hn, rfl⟩
    · rw [ht, Reader.tokens, if_neg h, List.singleton_append]
    · rw [hf, Reader.fault, if_neg h]
  · rename_i f c hn
    refine .inr ⟨f, _, rfl, ?_, ?_⟩
    · rw [Reader.tokens, if_neg h, Cursor.scan_of_error hn]
    · rw [Reader.fault, if_neg h, Cursor.scan_of_error hn]

lemma bind_eq_ok {α β : Type} {x : Parse α} {g : α → Parse β} {r q : Reader} {b : β} :
    (x >>= g) r = .ok b q ↔ ∃ a o, x r = .ok a o ∧ g a o = .ok b q := by
  change EStateM.bind x g r = .ok b q ↔ _
  rw [EStateM.bind]
  cases x r with
  | ok a o => simp
  | error e o => simp

lemma bind_eq_error {α β : Type} {x : Parse α} {g : α → Parse β} {r q : Reader} {e : ParseFault} :
    (x >>= g) r = .error e q ↔
      x r = .error e q ∨ ∃ a o, x r = .ok a o ∧ g a o = .error e q := by
  change EStateM.bind x g r = .error e q ↔ _
  rw [EStateM.bind]
  cases x r with
  | ok a o => simp
  | error e o => simp

lemma program_eq : program = do
    let start ← keyword "int"
    let name ← expect .identifier
    let _ ← expect .openParen
    let _ ← expect .closeParen
    let _ ← expect .openBrace
    let ret ← keyword "return"
    let value ← part .expression
    let _ ← expect .semicolon
    let _ ← expect .closeBrace
    let _ ← expect .eof
    return ⟨start.location, name.text, ⟨ret.location, value⟩⟩ := by
  simp only [program, function, statement, bind_assoc, pure_bind]

lemma expect_of_kind {k : Kind} {r : Reader} (h : r.lookahead.kind = k) : expect k r = advance r := by
  change (if r.lookahead.kind = k then advance else _ : Parse Token) r = _
  rw [if_pos h]

lemma expect_of_ne {k : Kind} {r : Reader} (h : r.lookahead.kind ≠ k) :
    expect k r = complain (.expected k r.lookahead.lexeme) r.lookahead r := by
  change (if r.lookahead.kind = k then advance else _ : Parse Token) r = _
  rw [if_neg h]

lemma expect_ok {k : Kind} {r q : Reader} {t : Token} (hk : k ≠ .eof) (h : expect k r = .ok t q) :
    t.kind = k ∧ r.Follows [t] q := by
  by_cases hl : r.lookahead.kind = k
  · rw [expect_of_kind hl] at h
    rcases advance_spec (hl ▸ hk) with ⟨q', ha, hf⟩ | ⟨f, q', ha, -⟩
    · cases h.symm.trans ha
      exact ⟨hl, hf⟩
    · cases h.symm.trans ha
  · rw [expect_of_ne hl] at h
    cases h

lemma expect_eof_ok {r q : Reader} {t : Token} (h : expect .eof r = .ok t q) :
    t.kind = .eof ∧ r.tokens = [t] ∧ q = r := by
  by_cases hl : r.lookahead.kind = .eof
  · rw [expect_of_kind hl, advance_eof hl] at h
    cases h
    exact ⟨hl, if_pos hl, rfl⟩
  · rw [expect_of_ne hl] at h
    cases h

lemma keyword_ok {w : String} {r q : Reader} {t : Token} (h : keyword w r = .ok t q) :
    t.lexeme = ⟨.keyword, w⟩ ∧ r.Follows [t] q := by
  obtain ⟨t', o, he, h⟩ := bind_eq_ok.mp h
  obtain ⟨hk, hf⟩ := expect_ok (by decide) he
  split at h
  · rename_i hw
    cases h
    exact ⟨congrArg₂ Lexeme.mk hk hw, hf⟩
  · cases h

lemma expect_error {k : Kind} {r q : Reader} {e : ParseFault} (hk : k ≠ .eof)
    (h : expect k r = .error e q) :
    (r.lookahead.kind ≠ k ∧
        ∃ c line, e = .syntactic c r.lookahead.location line) ∨
      r.lookahead.kind = k ∧ ∃ f, e = .lexical f ∧ r.tokens = [r.lookahead] ∧ r.fault = some f := by
  by_cases hl : r.lookahead.kind = k
  · rw [expect_of_kind hl] at h
    rcases advance_spec (hl ▸ hk) with ⟨q', ha, -⟩ | ⟨f, q', ha, ht, hf⟩
    · cases h.symm.trans ha
    · cases h.symm.trans ha
      exact .inr ⟨hl, f, rfl, ht, hf⟩
  · rw [expect_of_ne hl] at h
    cases h
    exact .inl ⟨hl, _, _, rfl⟩

lemma keyword_error {w : String} {r q : Reader} {e : ParseFault} (h : keyword w r = .error e q) :
    (r.lookahead.lexeme ≠ ⟨.keyword, w⟩ ∧
        ∃ c line, e = .syntactic c r.lookahead.location line) ∨
      r.lookahead.kind = .keyword ∧
        ∃ f, e = .lexical f ∧ r.tokens = [r.lookahead] ∧ r.fault = some f := by
  rcases bind_eq_error.mp h with h | ⟨t, o, ht, h⟩
  · rcases expect_error (by decide) h with ⟨hk, he⟩ | hf
    · exact .inl ⟨fun hl => hk (congrArg Lexeme.kind hl), he⟩
    · exact .inr hf
  · obtain ⟨-, hf⟩ := expect_ok (by decide) ht
    obtain rfl := Reader.lookahead_eq hf.tokens
    split at h
    · cases h
    · rename_i hw
      cases h
      exact .inl ⟨fun hl => hw (congrArg Lexeme.text hl), _, _, rfl⟩

inductive Resumed (p : Part) (s : ExprState) (r : Reader) : EStateM.Result ParseFault Reader Expr → Prop
  | finish {us v q x} : r.Follows us q → s.drive p r.tokens = (v, q.tokens) →
      v.move p q.lookahead = .finish x → Resumed p s r (.ok x q)
  | refuse {us v q c} : r.Follows us q → s.drive p r.tokens = (v, q.tokens) →
      v.move p q.lookahead = .refuse c →
      Resumed p s r (.error (.syntactic c q.lookahead.location (q.lineOf? q.lookahead)) q)
  | defect {f q} : r.fault = some f → (s.drive p r.tokens).2 = [] →
      Resumed p s r (.error (.lexical f) q)
  | nesting {l x q} : Resumed p s r (.error (.nesting l x) q)

lemma Resumed.step {p : Part} {s u : ExprState} {r q : Reader}
    {o : EStateM.Result ParseFault Reader Expr} (hm : s.move p r.lookahead = .take u)
    (hf : r.Follows [r.lookahead] q) (h : Resumed p u q o) : Resumed p s r o := by
  have hd : s.drive p r.tokens = u.drive p q.tokens := by
    rw [hf.tokens, List.singleton_append, ExprState.drive_take _ hm]
  cases h with
  | finish hq hv hx => exact .finish (hf.trans hq) (hd.trans hv) hx
  | refuse hq hv hx => exact .refuse (hf.trans hq) (hd.trans hv) hx
  | defect hfault hv => exact .defect (hf.fault ▸ hfault) (hd ▸ hv)
  | nesting => exact .nesting

lemma drive_stop {p : Part} {s : ExprState} {r : Reader} (h : ∀ u, s.move p r.lookahead ≠ .take u) :
    s.drive p r.tokens = (s, r.tokens) := by
  obtain ⟨ts, hts⟩ := r.tokens_eq_cons
  rw [hts, ExprState.drive_of_ne_take ts h]

lemma resume_resumed (p : Part) (s : ExprState) (r : Reader) : Resumed p s r (resume p s r) := by
  fun_induction resume p s r with
  | case1 s r x hm =>
    exact .finish (.refl r) (drive_stop (by simp [hm])) hm
  | case2 s r c hm =>
    exact .refuse (.refl r) (drive_stop (by simp [hm])) hm
  | case3 s r u hm f q ha =>
    rcases advance_spec (ExprState.kind_of_take hm) with ⟨q', ha', -⟩ | ⟨f', q', ha', ht, hf⟩
    · cases ha.symm.trans ha'
    · cases ha.symm.trans ha'
      apply Resumed.defect hf
      rw [ht, ExprState.drive_take _ hm, ExprState.drive]
  | case4 s r u hm t q ha hw => exact .nesting
  | case5 s r u hm t q ha hw ih =>
    rcases advance_spec (ExprState.kind_of_take hm) with ⟨q', ha', hf⟩ | ⟨f', q', ha', -⟩
    · cases ha.symm.trans ha'
      exact ih.step hm hf
    · cases ha.symm.trans ha'

lemma resume_take {p : Part} {s u : ExprState} {r q : Reader} {t : Token}
    (hm : s.move p r.lookahead = .take u) (ha : advance r = .ok t q) :
    resume p s r = if q.limit < u.weight then tooDeep q else resume p u q := by
  rw [resume]
  split
  · rename_i hm'
    cases hm.symm.trans hm'
  · rename_i hm'
    cases hm.symm.trans hm'
  · rename_i hm'
    cases hm.symm.trans hm'
    split
    · rename_i ha'
      cases ha.symm.trans ha'
    · rename_i ha'
      cases ha.symm.trans ha'
      rfl

lemma resume_finish {p : Part} {s : ExprState} {r : Reader} {x : Expr}
    (hm : s.move p r.lookahead = .finish x) : resume p s r = .ok x r := by
  rw [resume]
  split
  · rename_i hm'
    cases hm.symm.trans hm'
    rfl
  · rename_i hm'
    cases hm.symm.trans hm'
  · rename_i hm'
    cases hm.symm.trans hm'

lemma resume_refuse {p : Part} {s : ExprState} {r : Reader} {c : Complaint}
    (hm : s.move p r.lookahead = .refuse c) : resume p s r = complain c r.lookahead r := by
  rw [resume]
  split
  · rename_i hm'
    cases hm.symm.trans hm'
  · rename_i hm'
    cases hm.symm.trans hm'
    rfl
  · rename_i hm'
    cases hm.symm.trans hm'

lemma resume_path {p : Part} {s u : ExprState} {ts : List Token} {n : Nat}
    (h : ExprState.Path p s ts u n) :
    ∀ {r : Reader} {k : List Token}, s.weight ≤ r.limit → r.fault = none → r.tokens = ts ++ k →
      if n ≤ r.limit then ∃ q, r.Follows ts q ∧ resume p s r = resume p u q
      else ∃ l line q, resume p s r = .error (.nesting l line) q := by
  induction h with
  | nil s =>
    intro r k hs hf hr
    rw [if_pos hs]
    exact ⟨r, .refl r, rfl⟩
  | @cons s t u ts v n hm hp ih =>
    intro r k hs hf hr
    obtain rfl := Reader.lookahead_eq hr
    rcases advance_spec (ExprState.kind_of_take hm) with ⟨q, ha, hq⟩ | ⟨f, q, -, -, hfault⟩
    · rw [resume_take hm ha, hq.limit]
      by_cases hu : r.limit < u.weight
      · have hn := hp.weight_le
        rw [if_pos hu, if_neg (by omega)]
        exact ⟨_, _, q, rfl⟩
      · have hqt : q.tokens = ts ++ k := List.append_cancel_left (hq.tokens.symm.trans hr)
        have hlimit : max s.weight n ≤ r.limit ↔ n ≤ r.limit := by omega
        have hrest := ih (by rw [hq.limit]; omega) (hq.fault.trans hf) hqt
        rw [hq.limit] at hrest
        rw [if_neg hu]
        simp only [hlimit]
        split
        · rename_i hn
          rw [if_pos hn] at hrest
          obtain ⟨o, ho, he⟩ := hrest
          exact ⟨o, hq.trans ho, he⟩
        · rename_i hn
          rw [if_neg hn] at hrest
          exact hrest
    · cases hf.symm.trans hfault

end Parse

end TinyC

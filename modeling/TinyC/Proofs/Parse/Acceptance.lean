import Mathlib.Tactic.Common
import TinyC.Proofs.Parse.Stream

namespace TinyC

namespace Parse

open Grammar

lemma part_ok {p : Part} {r q : Reader} {x : Expr} (h : part p r = .ok x q) :
    ∃ ts, Derives .expression ts x ∧ r.Follows ts q := by
  have hr := resume_resumed p .start r
  change Resumed _ _ _ (part p r) at hr
  rw [h] at hr
  cases hr with
  | @finish us v _ _ hf hd hm =>
    obtain ⟨vs, hvs, hv⟩ := stateReads_start.drive hd
    obtain rfl : us = vs := List.append_cancel_right (hf.tokens.symm.trans hvs)
    exact ⟨us, hv.finish hm, hf⟩

lemma statement_ok {r q : Reader} {s : Return} (h : statement r = .ok s q) :
    ∃ ts, Statement ts s ∧ r.Follows ts q := by
  obtain ⟨t, r₁, ht, h⟩ := bind_eq_ok.mp h
  obtain ⟨x, r₂, hx, h⟩ := bind_eq_ok.mp h
  obtain ⟨e, r₃, he, h⟩ := bind_eq_ok.mp h
  cases h
  obtain ⟨htl, htf⟩ := keyword_ok ht
  obtain ⟨ts, hts, hxf⟩ := part_ok hx
  obtain ⟨hek, hef⟩ := expect_ok (by decide) he
  exact ⟨_, .ret htl hts hek, htf.trans (hxf.trans hef)⟩

lemma function_ok {r q : Reader} {f : Function} (h : function r = .ok f q) :
    ∃ ts, Definition ts f ∧ r.Follows ts q := by
  obtain ⟨t, r₁, ht, h⟩ := bind_eq_ok.mp h
  obtain ⟨name, r₂, hname, h⟩ := bind_eq_ok.mp h
  obtain ⟨o, r₃, ho, h⟩ := bind_eq_ok.mp h
  obtain ⟨c, r₄, hc, h⟩ := bind_eq_ok.mp h
  obtain ⟨b, r₅, hb, h⟩ := bind_eq_ok.mp h
  obtain ⟨s, r₆, hs, h⟩ := bind_eq_ok.mp h
  obtain ⟨e, r₇, he, h⟩ := bind_eq_ok.mp h
  cases h
  obtain ⟨htl, htf⟩ := keyword_ok ht
  obtain ⟨hnk, hnf⟩ := expect_ok (by decide) hname
  obtain ⟨hok, hof⟩ := expect_ok (by decide) ho
  obtain ⟨hck, hcf⟩ := expect_ok (by decide) hc
  obtain ⟨hbk, hbf⟩ := expect_ok (by decide) hb
  obtain ⟨ts, hst, hsf⟩ := statement_ok hs
  obtain ⟨hek, hef⟩ := expect_ok (by decide) he
  exact ⟨_, .function htl hnk hok hck hbk hst hek,
    htf.trans (hnf.trans (hof.trans (hcf.trans (hbf.trans (hsf.trans hef)))))⟩

lemma program_ok {r q : Reader} {f : Function} (h : program r = .ok f q) : Program r.tokens f := by
  obtain ⟨f', r₁, hf, h⟩ := bind_eq_ok.mp h
  obtain ⟨e, r₂, he, h⟩ := bind_eq_ok.mp h
  cases h
  obtain ⟨ts, hd, hts⟩ := function_ok hf
  obtain ⟨hk, het, rfl⟩ := expect_eof_ok he
  rw [hts.tokens, het]
  exact .program hd hk

def Takes {α : Type} (x : Parse α) (us k : List Token) (a : α) (n : Nat) : Prop :=
  ∀ r : Reader, r.fault = none → r.tokens = us ++ k →
    if n ≤ r.limit then ∃ q, x r = .ok a q ∧ r.Follows us q
    else ∃ l line q, x r = .error (.nesting l line) q

lemma Takes.bind {α β : Type} {x : Parse α} {g : α → Parse β} {us vs k : List Token} {a : α} {b : β}
    {m n : Nat} (hx : Takes x us (vs ++ k) a m) (hg : Takes (g a) vs k b n) :
    Takes (x >>= g) (us ++ vs) k b (max m n) := by
  intro r hf hr
  rw [List.append_assoc] at hr
  have hx := hx r hf hr
  by_cases hm : m ≤ r.limit
  · rw [if_pos hm] at hx
    obtain ⟨q, hq, hfol⟩ := hx
    have hqt : q.tokens = vs ++ k := List.append_cancel_left (hfol.tokens.symm.trans hr)
    have hg := hg q (hfol.fault.trans hf) hqt
    rw [hfol.limit] at hg
    have hlimit : max m n ≤ r.limit ↔ n ≤ r.limit := by omega
    simp only [hlimit]
    split
    · rename_i hn
      rw [if_pos hn] at hg
      obtain ⟨o, ho, hfol'⟩ := hg
      exact ⟨o, bind_eq_ok.mpr ⟨a, q, hq, ho⟩, hfol.trans hfol'⟩
    · rename_i hn
      rw [if_neg hn] at hg
      obtain ⟨l, line, o, ho⟩ := hg
      exact ⟨l, line, o, bind_eq_error.mpr (.inr ⟨a, q, hq, ho⟩)⟩
  · rw [if_neg hm] at hx
    obtain ⟨l, line, q, hq⟩ := hx
    rw [if_neg (by omega)]
    exact ⟨l, line, q, bind_eq_error.mpr (.inl hq)⟩

lemma Takes.of_ok {α : Type} {x : Parse α} {us k : List Token} {a : α}
    (h : ∀ r : Reader, r.fault = none → r.tokens = us ++ k → ∃ q, x r = .ok a q ∧ r.Follows us q) :
    Takes x us k a 0 := by
  intro r hf hr
  rw [if_pos (Nat.zero_le _)]
  exact h r hf hr

lemma Takes.pure {α : Type} (a : α) (k : List Token) : Takes (Pure.pure a) [] k a 0 :=
  .of_ok fun r _ _ => ⟨r, rfl, .refl r⟩

variable {k : List Token}

lemma expect_takes {kind : Kind} {t : Token} (ht : t.kind = kind) (hk : kind ≠ .eof) :
    Takes (expect kind) [t] k t 0 := by
  apply Takes.of_ok
  intro r hf hr
  obtain rfl := Reader.lookahead_eq hr
  rcases advance_spec (ht ▸ hk) with ⟨q, ha, hq⟩ | ⟨f, q, -, -, hfault⟩
  · exact ⟨q, (expect_of_kind ht).trans ha, hq⟩
  · cases hf.symm.trans hfault

lemma keyword_takes {w : String} {t : Token} (ht : t.lexeme = ⟨.keyword, w⟩) :
    Takes (keyword w) [t] k t 0 := by
  have hk : t.kind = .keyword := congrArg Lexeme.kind ht
  have hw : t.text = w := congrArg Lexeme.text ht
  have hp : Takes (if t.text = w then Pure.pure t else complain (.wrongKeyword t.text w) t)
      [] k t 0 := by
    rw [if_pos hw]
    exact .pure t k
  exact Takes.bind (expect_takes hk (by decide)) hp

lemma part_takes {ts : List Token} {t : Token} {x : Expr} {n : Nat}
    (hx : ExprState.Travels .expression ts x n) (ht : t.kind ≠ .operator) :
    Takes (part .expression) ts (t :: k) x n := by
  intro r hf hr
  obtain ⟨f, level, rfl, hpath⟩ := hx []
  rw [ExprState.outerWeight, Nat.zero_add] at hpath
  have hres := resume_path hpath (Nat.zero_le _) hf hr
  split
  · rename_i hn
    rw [if_pos hn] at hres
    obtain ⟨q, hq, he⟩ := hres
    have hqt : q.tokens = t :: k := List.append_cancel_left (hq.tokens.symm.trans hr)
    rw [← Reader.lookahead_eq hqt] at ht
    exact ⟨q, he.trans (resume_finish (ExprState.move_after_of_ne_operator f level ht)), hq⟩
  · rename_i hn
    rw [if_neg hn] at hres
    exact hres

lemma statement_takes {t e : Token} {ts : List Token} {x : Expr} {n : Nat}
    (ht : t.lexeme = ⟨.keyword, "return"⟩) (hx : ExprState.Travels .expression ts x n)
    (he : e.kind = .semicolon) :
    Takes statement (t :: (ts ++ [e])) k ⟨t.location, x⟩ n := by
  have hne : e.kind ≠ .operator := by
    rw [he]
    decide
  have h : Takes statement (t :: (ts ++ [e])) k ⟨t.location, x⟩ (max 0 (max n (max 0 0))) :=
    (keyword_takes ht).bind ((part_takes hx hne).bind
      ((expect_takes he (by decide)).bind (.pure _ k)))
  simpa using h

lemma function_takes {t name o c b e : Token} {ts : List Token} {s : Return} {n : Nat}
    (ht : t.lexeme = ⟨.keyword, "int"⟩) (hname : name.kind = .identifier)
    (ho : o.kind = .openParen) (hc : c.kind = .closeParen) (hb : b.kind = .openBrace)
    (hs : ∀ k, Takes statement ts k s n) (he : e.kind = .closeBrace) :
    Takes function (t :: name :: o :: c :: b :: (ts ++ [e])) k ⟨t.location, name.text, s⟩ n := by
  have h : Takes function (t :: name :: o :: c :: b :: (ts ++ [e])) k ⟨t.location, name.text, s⟩
      (max 0 (max 0 (max 0 (max 0 (max 0 (max n (max 0 0))))))) :=
    (keyword_takes ht).bind ((expect_takes hname (by decide)).bind
      ((expect_takes ho (by decide)).bind ((expect_takes hc (by decide)).bind
        ((expect_takes hb (by decide)).bind ((hs _).bind
          ((expect_takes he (by decide)).bind (.pure _ k)))))))
  simpa using h

lemma program_takes {ts : List Token} {e : Token} {f : Function} {n : Nat}
    (hf : ∀ k, Takes function ts k f n) (he : e.kind = .eof) : Takes program ts [e] f n := by
  have heof : Takes (expect .eof) [] [e] e 0 := by
    apply Takes.of_ok
    intro r _ hr
    obtain rfl := Reader.lookahead_eq hr
    exact ⟨r, (expect_of_kind he).trans (advance_eof he), .refl r⟩
  have h : Takes program (ts ++ ([] ++ [])) [e] f (max n (max 0 0)) :=
    (hf _).bind (heof.bind (.pure f [e]))
  simpa using h

lemma program_complete {r : Reader} {f : Function} (hf : r.fault = none)
    (h : Program r.tokens f) :
    (∃ q, program r = .ok f q) ∨ ∃ l line q, program r = .error (.nesting l line) q := by
  generalize hr : r.tokens = us at h
  obtain ⟨⟨ht, hname, ho, hc, hb, ⟨hret, hx, hs⟩, he⟩, heof⟩ := h
  obtain ⟨n, hn⟩ := ExprState.exists_travels hx
  have hp := program_takes (fun _ => function_takes ht hname ho hc hb
    (fun _ => statement_takes hret hn hs) he) heof r hf hr
  split at hp
  · obtain ⟨q, hq, -⟩ := hp
    exact .inl ⟨q, hq⟩
  · exact .inr hp

def Clean {α : Type} (x : Parse α) : Prop :=
  ∀ r : Reader, r.fault = none →
    (∀ f q, x r ≠ .error (.lexical f) q) ∧ ∀ a q, x r = .ok a q → q.fault = none

lemma Clean.bind {α β : Type} {x : Parse α} {g : α → Parse β} (hx : Clean x)
    (hg : ∀ a, Clean (g a)) : Clean (x >>= g) := by
  intro r hf
  refine ⟨fun f q h => ?_, fun b q h => ?_⟩
  · rcases bind_eq_error.mp h with h | ⟨a, o, ho, h⟩
    · exact (hx r hf).1 f q h
    · exact (hg a o ((hx r hf).2 a o ho)).1 f q h
  · obtain ⟨a, o, ho, h⟩ := bind_eq_ok.mp h
    exact (hg a o ((hx r hf).2 a o ho)).2 b q h

lemma Clean.pure {α : Type} (a : α) : Clean (Pure.pure a) := by
  intro r hf
  refine ⟨fun f q h => ?_, fun b q h => ?_⟩
  · cases h
  · cases h
    exact hf

lemma complain_clean {α : Type} (c : Complaint) (t : Token) : Clean (complain c t : Parse α) := by
  intro r hf
  constructor <;> simp [complain]

lemma advance_clean : Clean advance := by
  intro r hf
  by_cases hl : r.lookahead.kind = .eof
  · rw [advance_eof hl]
    exact Clean.pure r.lookahead r hf
  · rcases advance_spec hl with ⟨o, ho, hfol⟩ | ⟨f, o, -, -, hfault⟩
    · rw [ho]
      refine ⟨by simp, fun b q h => ?_⟩
      cases h
      exact hfol.fault.trans hf
    · cases hf.symm.trans hfault

lemma expect_clean (kind : Kind) : Clean (expect kind) := by
  intro r hf
  by_cases hl : r.lookahead.kind = kind
  · rw [expect_of_kind hl]
    exact advance_clean r hf
  · rw [expect_of_ne hl]
    exact complain_clean _ _ r hf

lemma keyword_clean (w : String) : Clean (keyword w) := by
  refine (expect_clean .keyword).bind fun t => ?_
  split
  · exact .pure t
  · exact complain_clean _ t

lemma part_clean (p : Part) : Clean (part p) := by
  intro r hf
  have hres := resume_resumed p .start r
  change Resumed _ _ _ (part p r) at hres
  refine ⟨fun f q h => ?_, fun x q h => ?_⟩
  · rw [h] at hres
    cases hres with
    | defect hfault => cases hf.symm.trans hfault
  · rw [h] at hres
    cases hres with
    | finish hfol => exact hfol.fault.trans hf

lemma statement_clean : Clean statement :=
  (keyword_clean _).bind fun _ => (part_clean _).bind fun _ => (expect_clean _).bind fun _ =>
    .pure _

lemma function_clean : Clean function :=
  (keyword_clean _).bind fun _ => (expect_clean _).bind fun _ => (expect_clean _).bind fun _ =>
    (expect_clean _).bind fun _ => (expect_clean _).bind fun _ => statement_clean.bind fun _ =>
      (expect_clean _).bind fun _ => .pure _

lemma program_clean : Clean program :=
  function_clean.bind fun _ => (expect_clean _).bind fun _ => .pure _

end Parse

open Grammar

variable {limit : Nat}

lemma exists_start {file source : String} (h : (Cursor.start file source).scan.fault = none) :
    ∃ r, Reader.start? limit file source = .ok r ∧ r.fault = none ∧
      r.tokens = (Cursor.start file source).scan.tokens := by
  cases hr : Reader.start? limit file source with
  | error f => cases h.symm.trans (Reader.start?_error hr).2
  | ok r =>
    obtain ⟨ht, hf, -⟩ := Reader.start?_ok hr
    exact ⟨r, rfl, hf.trans h, ht⟩

lemma parse_eq_ok_iff {file source : String} {r : Reader} {f : Function}
    (h : Reader.start? limit file source = .ok r) :
    Function.parse limit file source = .ok f ↔ ∃ q, Parse.program r = .ok f q := by
  rw [Function.parse]
  rw [h]
  dsimp only
  cases Parse.program r with
  | ok g q => simp
  | error e q => simp

lemma parse_eq_error_iff {file source : String} {r : Reader} {e : ParseFault}
    (h : Reader.start? limit file source = .ok r) :
    Function.parse limit file source = .error e ↔ ∃ q, Parse.program r = .error e q := by
  rw [Function.parse]
  rw [h]
  dsimp only
  cases Parse.program r with
  | ok g q => simp
  | error e q => simp

/-- A text without lexical defects, and without too deep a nesting, is read as the one program that
its tokens are derived as; all else is refused for a token that does not fit. -/
theorem parse_iff_derives {file source : String} (hs : (Cursor.start file source).scan.fault = none)
    (hn : ∀ l line, Function.parse limit file source ≠ .error (.nesting l line)) :
    let ts := (Cursor.start file source).scan.tokens
    (∀ f, Function.parse limit file source = .ok f ↔ Program ts f) ∧
      (∀ f g, Program ts f → Program ts g → f = g) ∧
      ((∀ f, ¬ Program ts f) →
        ∃ c l line, Function.parse limit file source = .error (.syntactic c l line)) := by
  dsimp only
  obtain ⟨r, hr, hf, ht⟩ := exists_start hs
  have hiff : ∀ f, Function.parse limit file source = .ok f ↔
      Program (Cursor.start file source).scan.tokens f := by
    intro f
    rw [parse_eq_ok_iff hr, ← ht]
    constructor
    · rintro ⟨q, hq⟩
      exact Parse.program_ok hq
    · intro h
      rcases Parse.program_complete hf h with hok | ⟨l, line, hdeep⟩
      · exact hok
      · exact absurd ((parse_eq_error_iff hr).mpr hdeep) (hn l line)
  refine ⟨hiff, fun f g hfd hgd => ?_, fun hnone => ?_⟩
  · exact Except.ok.inj (((hiff f).mpr hfd).symm.trans ((hiff g).mpr hgd))
  · cases hp : Function.parse limit file source with
    | ok f => exact absurd ((hiff f).mp hp) (hnone f)
    | error e =>
      cases e with
      | syntactic c l line => exact ⟨c, l, line, rfl⟩
      | nesting l line => exact absurd hp (hn l line)
      | lexical f =>
        obtain ⟨q, hq⟩ := (parse_eq_error_iff hr).mp hp
        exact absurd hq ((Parse.program_clean r hf).1 f q)

theorem parse_iff_derives_product :
    let text := "int f(){return -(1+2)*3;}"
    let ts := (Cursor.start "a.c" text).scan.tokens
    (Cursor.start "a.c" text).scan.fault = none ∧
      (∀ l line, Function.parse 1000 "a.c" text ≠ .error (.nesting l line)) ∧
      Program ts ⟨⟨"a.c", 1, 1⟩, "f", ⟨⟨"a.c", 1, 9⟩, .binary ⟨"a.c", 1, 22⟩ .multiply
        (.unary ⟨"a.c", 1, 16⟩ .negate (.binary ⟨"a.c", 1, 19⟩ .add (.literal ⟨"a.c", 1, 18⟩ "1")
          (.literal ⟨"a.c", 1, 20⟩ "2"))) (.literal ⟨"a.c", 1, 23⟩ "3")⟩⟩ := by
  dsimp only
  have hs : (Cursor.start "a.c" "int f(){return -(1+2)*3;}").scan.fault = none := by
    decide +kernel
  have hp : Function.parse 1000 "a.c" "int f(){return -(1+2)*3;}" = .ok ⟨⟨"a.c", 1, 1⟩, "f",
      ⟨⟨"a.c", 1, 9⟩, .binary ⟨"a.c", 1, 22⟩ .multiply
        (.unary ⟨"a.c", 1, 16⟩ .negate (.binary ⟨"a.c", 1, 19⟩ .add (.literal ⟨"a.c", 1, 18⟩ "1")
          (.literal ⟨"a.c", 1, 20⟩ "2"))) (.literal ⟨"a.c", 1, 23⟩ "3")⟩⟩ := by
    decide +kernel
  have hn : ∀ l line, Function.parse 1000 "a.c" "int f(){return -(1+2)*3;}" ≠
      .error (.nesting l line) := by
    intro l line h
    cases hp.symm.trans h
  exact ⟨hs, hn, ((parse_iff_derives hs hn).1 _).mp hp⟩

end TinyC

import Mathlib.Tactic.Common
import TinyC.Proofs.Parse.Acceptance
import TinyC.Proofs.Token.Tiling

namespace TinyC

namespace Grammar

/-- Tokens that some texts have can follow, so that all are the tokens of a program. -/
def Viable (ts : List Token) : Prop :=
  ∃ us f, (∀ u ∈ us, u.Lexical) ∧ Program (ts ++ us) f

def Opens (L : List Token → Prop) (ts : List Token) : Prop :=
  ∃ us, (∀ u ∈ us, u.Lexical) ∧ L (ts ++ us)

inductive Headed (P : Token → Prop) (L : List Token → Prop) : List Token → Prop
  | cons {t ts} : P t → L ts → Headed P L (t :: ts)

inductive HeadedByExpression (L : List Token → Prop) : List Token → Prop
  | append {us ts x} : Derives .expression us x → L ts → HeadedByExpression L (us ++ ts)

def closings : List Token → Prop :=
  Headed (·.kind = .semicolon) <| Headed (·.kind = .closeBrace) <| Headed (·.kind = .eof) (· = [])

def programs : List Token → Prop :=
  Headed (·.lexeme = ⟨.keyword, "int"⟩) <| Headed (·.kind = .identifier) <|
    Headed (·.kind = .openParen) <| Headed (·.kind = .closeParen) <| Headed (·.kind = .openBrace) <|
      Headed (·.lexeme = ⟨.keyword, "return"⟩) <| HeadedByExpression closings

lemma program_iff {ts : List Token} : (∃ f, Program ts f) ↔ programs ts := by
  constructor
  · rintro ⟨f, ⟨⟨ht, hname, ho, hc, hb, ⟨hret, hx, hs⟩, he⟩, heof⟩⟩
    simp only [List.cons_append, List.append_assoc]
    exact .cons ht (.cons hname (.cons ho (.cons hc (.cons hb (.cons hret
      (.append hx (.cons hs (.cons he (.cons heof rfl)))))))))
  · rintro ⟨ht, ⟨hname, ⟨ho, ⟨hc, ⟨hb, ⟨hret, ⟨hx, ⟨hs, ⟨he, ⟨heof, rfl⟩⟩⟩⟩⟩⟩⟩⟩⟩⟩
    have hp := Program.program (.function ht hname ho hc hb (.ret hret hx hs) he) heof
    simp only [List.cons_append, List.append_assoc] at hp
    exact ⟨_, hp⟩

lemma viable_iff {ts : List Token} : Viable ts ↔ Opens programs ts := by
  apply exists_congr
  intro us
  rw [exists_and_left, program_iff]

section

variable {P : Token → Prop} {L : List Token → Prop} {t : Token} {ts : List Token}

lemma opens_headed_iff : Opens (Headed P L) (t :: ts) ↔ P t ∧ Opens L ts := by
  constructor
  · rintro ⟨us, hus, h⟩
    cases h with
    | cons ht hts => exact ⟨ht, us, hus, hts⟩
  · rintro ⟨ht, us, hus, hts⟩
    exact ⟨us, hus, .cons ht hts⟩

lemma opens_headed (h : Opens L []) (hl : t.Lexical) (ht : P t) : Opens (Headed P L) [] := by
  obtain ⟨us, hus, hL⟩ := h
  exact ⟨t :: us, List.forall_mem_cons.mpr ⟨hl, hus⟩, .cons ht hL⟩

end

def somewhere (l : Lexeme) : Token :=
  ⟨l, ⟨"", 1, 1⟩⟩

lemma lexical_somewhere {l : Lexeme}
    (h : Reading.ofChars l.text.toList = .token l.kind l.text.toList) : (somewhere l).Lexical :=
  .inr (Lexis.valid_of_ofChars h)

lemma OuterReads.complete {outer : List Suspended} {os : List Token} (h : OuterReads outer os) :
    ∀ {level : Level} {ls fs : List Token} {x : Expr}, LevelReads level ls → Derives .factor fs x →
      ∃ us y, (∀ u ∈ us, u.Lexical) ∧ Derives .expression (os ++ ls ++ fs ++ us) y := by
  -- the innermost open parenthesis is closed first, and leaves one fewer
  induction h with
  | nil =>
    intro level ls fs x hl hx
    exact ⟨[], _, by simp, by simpa using hl.total hx⟩
  | cons _ hlevel hsigns ht ih =>
    intro level ls fs x hl hx
    have hclose : (somewhere ⟨.closeParen, ")"⟩).Lexical := lexical_somewhere (by decide)
    have hparens := Derives.parens (c := somewhere ⟨.closeParen, ")"⟩) ht (hl.total hx) rfl
    obtain ⟨us, y, hus, hy⟩ := ih hlevel (hsigns.derives hparens)
    exact ⟨_ :: us, y, List.forall_mem_cons.mpr ⟨hclose, hus⟩, by simpa using hy⟩

lemma StateReads.complete {s : ExprState} {ts : List Token} (h : StateReads s ts) :
    ∃ us x, (∀ u ∈ us, u.Lexical) ∧ Derives .expression (ts ++ us) x := by
  cases h with
  | before ho hl hs =>
    have hzero : (somewhere ⟨.intLiteral, "0"⟩).Lexical := lexical_somewhere (by decide)
    have hliteral := Derives.literal (t := somewhere ⟨.intLiteral, "0"⟩) rfl (by decide)
    obtain ⟨us, x, hus, hx⟩ := ho.complete hl (hs.derives hliteral)
    exact ⟨_ :: us, x, List.forall_mem_cons.mpr ⟨hzero, hus⟩, by simpa using hx⟩
  | after ho hl hx => exact ho.complete hl hx

lemma StateReads.opens {s : ExprState} {ts : List Token} {L : List Token → Prop}
    (h : StateReads s ts) (hL : Opens L []) : Opens (HeadedByExpression L) ts := by
  obtain ⟨us, x, hus, hx⟩ := h.complete
  obtain ⟨vs, hvs, hL⟩ := hL
  refine ⟨us ++ vs, List.forall_mem_append.mpr ⟨hus, hvs⟩, ?_⟩
  rw [← List.append_assoc]
  exact .append hx hL

end Grammar

namespace ExprState

lemma length_drive_le (p : Part) (s : ExprState) (ts : List Token) :
    (s.drive p ts).2.length ≤ ts.length := by
  fun_induction drive p s ts with
  | case1 s => exact Nat.le_refl _
  | case2 s t ts u hm ih => exact Nat.le_succ_of_le ih
  | case3 s t ts hm => exact Nat.le_refl _

lemma drive_append {p : Part} {s v : ExprState} {us rest : List Token}
    (h : s.drive p (us ++ rest) = (v, rest)) (k : List Token) :
    s.drive p (us ++ k) = v.drive p k := by
  induction us generalizing s with
  | nil =>
    cases rest with
    | nil =>
      cases h
      rfl
    | cons t ts =>
      rw [List.nil_append, drive] at h
      split at h
      · rename_i u hm
        have hlen := length_drive_le p u ts
        rw [h, List.length_cons] at hlen
        omega
      · cases h
        rfl
  | cons t us ih =>
    rw [List.cons_append, drive] at h
    split at h
    · rename_i u hm
      rw [List.cons_append, drive_take _ hm]
      exact ih h
    · have hlen := congrArg (fun x => x.2.length) h
      simp only [List.length_cons, List.length_append] at hlen
      omega

open Grammar in
lemma drive_derives {ts : List Token} {t : Token} {x : Expr} (hx : Derives .expression ts x)
    (ht : t.kind ≠ .operator) (k : List Token) :
    ∃ v, start.drive .expression (ts ++ t :: k) = (v, t :: k) ∧
      v.move .expression t = .finish x := by
  obtain ⟨n, hn⟩ := exists_travels hx
  obtain ⟨f, level, rfl, hpath⟩ := hn []
  have hm := move_after_of_ne_operator f level ht
  refine ⟨_, ?_, hm⟩
  exact (hpath.drive _).trans (drive_of_ne_take k (by simp [hm]))

end ExprState

namespace Parse

open Grammar

/-- What a fault says about the tokens of a text and the defect behind them: the first token that
does not fit is blamed, or the defect, all tokens before it being in order. But a defect right
behind a keyword is blamed also where another keyword has to stand. -/
inductive Blames (L : List Token → Prop) (ts : List Token) (d : Option LexicalFault) :
    ParseFault → Prop
  | misfit {us t vs c line} : ts = us ++ t :: vs → Opens L us → ¬ Opens L (us ++ [t]) →
      Blames L ts d (.syntactic c t.location line)
  | defect {f} : d = some f → Opens L ts → Blames L ts d (.lexical f)
  | keyword {us t w f} : d = some f → ts = us ++ [t] → t.kind = .keyword →
      Opens L (us ++ [⟨⟨.keyword, w⟩, t.location⟩]) → ¬ Opens L (us ++ [t]) →
      Blames L ts d (.lexical f)
  | nesting {l line} : Blames L ts d (.nesting l line)

variable {L M : List Token → Prop} {r q : Reader} {us : List Token} {e : ParseFault}

lemma opens_append (hin : ∀ ts, M ts → L (us ++ ts)) {vs : List Token} (h : Opens M vs) :
    Opens L (us ++ vs) := by
  obtain ⟨ws, hws, h⟩ := h
  refine ⟨ws, hws, ?_⟩
  rw [List.append_assoc]
  exact hin _ h

lemma not_opens_append (hout : ∀ ts, L (us ++ q.lookahead :: ts) → M (q.lookahead :: ts))
    {vs rest : List Token} {t : Token} (hq : q.tokens = vs ++ t :: rest)
    (h : ¬ Opens M (vs ++ [t])) : ¬ Opens L (us ++ (vs ++ [t])) := by
  rintro ⟨ws, hws, hL⟩
  obtain ⟨ts, hts⟩ : ∃ ts, vs ++ [t] ++ ws = q.lookahead :: ts := by
    cases vs with
    | nil => exact ⟨ws, by simp [Reader.lookahead_eq hq]⟩
    | cons v vs => exact ⟨vs ++ [t] ++ ws, by simp [Reader.lookahead_eq hq]⟩
  apply h
  refine ⟨ws, hws, ?_⟩
  rw [List.append_assoc, hts] at hL
  rw [hts]
  exact hout ts hL

lemma Blames.prepend (hf : r.Follows us q) (hin : ∀ ts, M ts → L (us ++ ts))
    (hout : ∀ ts, L (us ++ q.lookahead :: ts) → M (q.lookahead :: ts))
    (h : Blames M q.tokens q.fault e) : Blames L r.tokens r.fault e := by
  rw [hf.tokens, ← hf.fault]
  cases h with
  | @misfit vs t rest c line hq hvs ht =>
    have hr : us ++ q.tokens = us ++ vs ++ t :: rest := by rw [hq, List.append_assoc]
    have ht' := not_opens_append hout hq ht
    rw [← List.append_assoc] at ht'
    exact .misfit hr (opens_append hin hvs) ht'
  | defect hd hq => exact .defect hd (opens_append hin hq)
  | @keyword vs t w f hd hq hk hw ht =>
    have hr : us ++ q.tokens = us ++ vs ++ [t] := by rw [hq, List.append_assoc]
    have hw' := opens_append hin hw
    have ht' := not_opens_append hout hq ht
    rw [← List.append_assoc] at hw' ht'
    exact .keyword hd hr hk hw' ht'
  | nesting => exact .nesting

lemma Blames.head {P : Token → Prop} {t : Token} (hf : r.Follows [t] q) (ht : P t)
    (h : Blames L q.tokens q.fault e) : Blames (Headed P L) r.tokens r.fault e := by
  apply h.prepend hf
  · intro ts hts
    exact .cons ht hts
  · rintro ts ⟨-, hts⟩
    exact hts

lemma Blames.lookahead {P : Token → Prop} {c : Complaint} {line : Option String}
    (hP : Opens (Headed P L) []) (hl : ¬ P r.lookahead) :
    Blames (Headed P L) r.tokens r.fault (.syntactic c r.lookahead.location line) := by
  obtain ⟨ts, hts⟩ := r.tokens_eq_cons
  have hl' : ¬ Opens (Headed P L) [r.lookahead] := by
    rw [opens_headed_iff]
    exact fun h => hl h.1
  exact .misfit hts hP hl'

structure Pinpoints {α : Type} (x : Parse α) (L : List Token → Prop) : Prop where
  opens : Opens L []
  blames : ∀ r q e, x r = .error e q → Blames L r.tokens r.fault e

lemma Pinpoints.expect {α : Type} {k : Kind} {g : Token → Parse α} (text : String)
    (htext : Reading.ofChars text.toList = .token k text.toList) (hg : ∀ t, Pinpoints (g t) L) :
    Pinpoints (Parse.expect k >>= g) (Headed (·.kind = k) L) := by
  have hk : k ≠ .eof := (Lexis.ofChars_eq_token_iff.mp htext).kind_ne_eof
  have hL := (hg (somewhere ⟨k, text⟩)).opens
  have hP : Opens (Headed (·.kind = k) L) [] :=
    opens_headed hL (lexical_somewhere (l := ⟨k, text⟩) htext) rfl
  refine ⟨hP, fun r q e h => ?_⟩
  rcases bind_eq_error.mp h with h | ⟨t, o, ht, h⟩
  · rcases expect_error hk h with ⟨hl, c, line, rfl⟩ | ⟨hl, f, rfl, hts, hf⟩
    · exact .lookahead hP hl
    · apply Blames.defect hf
      rw [hts, opens_headed_iff]
      exact ⟨hl, hL⟩
  · obtain ⟨hkind, hf⟩ := expect_ok hk ht
    exact ((hg t).blames o q e h).head hf hkind

lemma Pinpoints.keyword {α : Type} {w : String} {g : Token → Parse α}
    (hw : Reading.ofChars w.toList = .token .keyword w.toList) (hg : ∀ t, Pinpoints (g t) L) :
    Pinpoints (Parse.keyword w >>= g) (Headed (·.lexeme = ⟨.keyword, w⟩) L) := by
  have hL := (hg (somewhere ⟨.keyword, w⟩)).opens
  have hP : Opens (Headed (·.lexeme = ⟨.keyword, w⟩) L) [] :=
    opens_headed hL (lexical_somewhere hw) rfl
  refine ⟨hP, fun r q e h => ?_⟩
  rcases bind_eq_error.mp h with h | ⟨t, o, ht, h⟩
  · rcases keyword_error h with ⟨hl, c, line, rfl⟩ | ⟨hk, f, rfl, hts, hf⟩
    · exact .lookahead hP hl
    · by_cases hl : r.lookahead.lexeme = ⟨.keyword, w⟩
      · apply Blames.defect hf
        rw [hts, opens_headed_iff]
        exact ⟨hl, hL⟩
      · have hts' : r.tokens = [] ++ [r.lookahead] := hts
        refine .keyword hf hts' hk (w := w) ?_ ?_
        · exact opens_headed_iff.mpr ⟨rfl, hL⟩
        · exact fun h => hl (opens_headed_iff.mp h).1
  · obtain ⟨hlexeme, hf⟩ := keyword_ok ht
    exact ((hg t).blames o q e h).head hf hlexeme

lemma Pinpoints.eof {α : Type} (a : α) :
    Pinpoints (Parse.expect .eof >>= fun _ => pure a) (Headed (·.kind = .eof) (· = [])) := by
  have hP : Opens (Headed (·.kind = .eof) (· = [])) [] :=
    opens_headed ⟨[], by simp, rfl⟩ (t := somewhere .eof) (.inl rfl) rfl
  refine ⟨hP, fun r q e h => ?_⟩
  rcases bind_eq_error.mp h with h | ⟨t, o, ht, h⟩
  · by_cases hl : r.lookahead.kind = .eof
    · rw [expect_of_kind hl, advance_eof hl] at h
      cases h
    · rw [expect_of_ne hl] at h
      cases h
      exact .lookahead hP hl
  · cases h

def Delimits (L : List Token → Prop) : Prop :=
  ∀ ts, L ts → ∃ t us, ts = t :: us ∧ t.kind ≠ .operator

lemma Delimits.cut {v : ExprState} {ts : List Token} (hL : Delimits L)
    (hd : ExprState.start.drive .expression r.tokens = (v, q.tokens)) (hf : r.Follows us q)
    (hm : ∀ u, v.move .expression q.lookahead ≠ .take u)
    (h : HeadedByExpression L (us ++ q.lookahead :: ts)) :
    L (q.lookahead :: ts) ∧ ∃ x, v.move .expression q.lookahead = .finish x := by
  generalize hws : us ++ q.lookahead :: ts = ws at h
  obtain ⟨hx, hvs⟩ := h
  obtain ⟨t, vs, rfl, ht⟩ := hL _ hvs
  obtain ⟨v', hd', hm'⟩ := ExprState.drive_derives hx ht vs
  rw [hf.tokens] at hd
  rw [← hws, ExprState.drive_append hd, ExprState.drive_of_ne_take ts hm] at hd'
  obtain ⟨rfl, hcons⟩ := Prod.mk.inj hd'
  obtain ⟨rfl, rfl⟩ := List.cons.inj hcons
  exact ⟨hvs, _, hm'⟩

lemma stateReads_of_drive {v : ExprState}
    (hd : ExprState.start.drive .expression r.tokens = (v, q.tokens)) (hf : r.Follows us q) :
    StateReads v us := by
  obtain ⟨vs, hvs, hv⟩ := stateReads_start.drive hd
  rw [List.append_cancel_right (hf.tokens.symm.trans hvs)]
  exact hv

lemma part_blames (hL : Delimits L) (ho : Opens L []) (h : part .expression r = .error e q) :
    Blames (HeadedByExpression L) r.tokens r.fault e := by
  have hres := resume_resumed .expression .start r
  change resume .expression .start r = .error e q at h
  rw [h] at hres
  cases hres with
  | @refuse us v _ c hf hd hm =>
    have hr := hf.tokens
    obtain ⟨ts, hts⟩ := q.tokens_eq_cons
    rw [hts] at hr
    refine .misfit hr ((stateReads_of_drive hd hf).opens ho) ?_
    rintro ⟨ws, -, hws⟩
    rw [List.append_assoc] at hws
    obtain ⟨-, x, hx⟩ := hL.cut hd hf (by simp [hm]) hws
    cases hm.symm.trans hx
  | @defect f _ hf hd =>
    have hd' : ExprState.start.drive .expression r.tokens = (_, []) := Prod.ext rfl hd
    obtain ⟨vs, hvs, hv⟩ := stateReads_start.drive hd'
    rw [List.append_nil] at hvs
    apply Blames.defect hf
    rw [hvs]
    exact hv.opens ho
  | nesting => exact .nesting

lemma Pinpoints.part {α : Type} {g : Expr → Parse α} (hL : Delimits L)
    (hg : ∀ x, Pinpoints (g x) L) :
    Pinpoints (Parse.part .expression >>= g) (HeadedByExpression L) := by
  have ho := (hg (.literal ⟨"", 1, 1⟩ "0")).opens
  refine ⟨stateReads_start.opens ho, fun r q e h => ?_⟩
  rcases bind_eq_error.mp h with h | ⟨x, o, hx, h⟩
  · exact part_blames hL ho h
  · have hres := resume_resumed .expression .start r
    change resume .expression .start r = .ok x o at hx
    rw [hx] at hres
    cases hres with
    | @finish us v _ _ hf hd hm =>
      apply ((hg x).blames o q e h).prepend hf
      · intro ts hts
        exact .append ((stateReads_of_drive hd hf).finish hm) hts
      · intro ts hts
        exact (hL.cut hd hf (by simp [hm]) hts).1

lemma delimits_closings : Delimits closings := by
  rintro ts ⟨ht, -⟩
  refine ⟨_, _, rfl, ?_⟩
  rw [ht]
  decide

lemma program_pinpoints : Pinpoints program programs := by
  rw [program_eq]
  exact .keyword (by decide) fun _ => .expect "f" (by decide) fun _ =>
    .expect "(" (by decide) fun _ => .expect ")" (by decide) fun _ =>
      .expect "\x7b" (by decide) fun _ => .keyword (by decide) fun _ =>
        .part delimits_closings fun _ => .expect ";" (by decide) fun _ =>
          .expect "\x7d" (by decide) fun _ => .eof _

end Parse

end TinyC

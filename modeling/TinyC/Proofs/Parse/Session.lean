import Mathlib.Tactic.Common
import TinyC.Parse.Session
import TinyC.Proofs.Parse.Acceptance
import TinyC.Proofs.Parse.Trace
import TinyC.Proofs.Token.Span

namespace TinyC

namespace Reader

inductive Consumes : Reader → List Token → Reader → Prop
  | nil (r : Reader) : Consumes r [] r
  | cons {r o q : Reader} {us : List Token} : r.lookahead.kind ≠ .eof →
      Parse.advance r = .ok r.lookahead o → Consumes o us q → Consumes r (r.lookahead :: us) q

namespace Consumes

variable {r q o : Reader} {us vs : List Token}

lemma append (h : r.Consumes us q) (h' : q.Consumes vs o) : r.Consumes (us ++ vs) o := by
  induction h with
  | nil r => exact h'
  | cons hk ha _ ih => exact .cons hk ha (ih h')

lemma follows (h : r.Consumes us q) : r.Follows us q := by
  induction h with
  | nil r => exact .refl r
  | cons hk ha _ ih =>
    rcases Parse.advance_spec hk with ⟨o', ha', hf⟩ | ⟨f, o', ha', -⟩
    · cases ha.symm.trans ha'
      exact hf.trans ih
    · cases ha.symm.trans ha'

lemma eq_of_eof (h : r.Consumes us q) (hk : r.lookahead.kind = .eof) : q = r := by
  cases h with
  | nil => rfl
  | cons hne => exact absurd hk hne

end Consumes

end Reader

namespace Parse

variable {α β : Type}

def leave (x : Parse α) (r : Reader) : Reader :=
  match x r with
  | .ok _ q => q
  | .error _ q => q

lemma leave_of_ok {x : Parse α} {r q : Reader} {a : α} (h : x r = .ok a q) : leave x r = q := by
  rw [leave, h]

lemma leave_of_error {x : Parse α} {r q : Reader} {e : ParseFault} (h : x r = .error e q) :
    leave x r = q := by
  rw [leave, h]

def Moves (x : Parse α) : Prop :=
  ∀ r : Reader, r.fault = none → ∃ us, r.Consumes us (leave x r)

namespace Moves

lemma of_leave_eq {x : Parse α} (h : ∀ r, leave x r = r) : Moves x := by
  intro r _
  rw [h r]
  exact ⟨[], .nil r⟩

lemma pure (a : α) : Moves (Pure.pure a : Parse α) :=
  of_leave_eq fun _ => rfl

lemma complain (c : Complaint) (t : Token) : Moves (Parse.complain c t : Parse α) :=
  of_leave_eq fun _ => rfl

lemma bind {x : Parse α} {g : α → Parse β} (hx : Moves x) (hg : ∀ a, Moves (g a)) :
    Moves (x >>= g) := by
  intro r hr
  obtain ⟨us, hus⟩ := hx r hr
  cases h : x r with
  | error e q =>
    rw [leave_of_error h] at hus
    exact ⟨us, leave_of_error (bind_eq_error.mpr (.inl h)) ▸ hus⟩
  | ok a q =>
    rw [leave_of_ok h] at hus
    have hq : leave (x >>= g) r = leave (g a) q := by
      change leave (EStateM.bind x g) r = _
      rw [leave, EStateM.bind, h]
      rfl
    obtain ⟨vs, hvs⟩ := hg a q (hus.follows.fault.trans hr)
    exact ⟨us ++ vs, hq ▸ hus.append hvs⟩

lemma map {x : Parse α} (f : α → β) (hx : Moves x) : Moves (f <$> x) := by
  rw [map_eq_pure_bind]
  exact hx.bind fun a => pure (f a)

lemma advance : Moves Parse.advance := by
  intro r hr
  by_cases hk : r.lookahead.kind = .eof
  · rw [leave_of_ok (advance_eof hk)]
    exact ⟨[], .nil r⟩
  · rcases advance_spec hk with ⟨q, hq, -⟩ | ⟨f, q, -, -, hf⟩
    · rw [leave_of_ok hq]
      exact ⟨[r.lookahead], .cons hk hq (.nil q)⟩
    · cases hr.symm.trans hf

lemma expect (kind : Kind) : Moves (Parse.expect kind) := by
  intro r hr
  by_cases hk : r.lookahead.kind = kind
  · rw [leave, expect_of_kind hk]
    exact advance r hr
  · rw [leave, expect_of_ne hk]
    exact ⟨[], .nil r⟩

lemma keyword (word : String) : Moves (Parse.keyword word) := by
  refine (expect .keyword).bind fun t => ?_
  split
  · exact pure t
  · exact complain _ t

lemma resume (p : Part) (s : ExprState) : Moves (Parse.resume p s) := by
  intro r hr
  rw [leave]
  fun_induction Parse.resume p s r with
  | case1 s r x hm => exact ⟨[], .nil r⟩
  | case2 s r c hm => exact ⟨[], .nil r⟩
  | case3 s r u hm f q ha => exact leave_of_error ha ▸ advance r hr
  | case4 s r u hm t q ha hw => exact leave_of_ok ha ▸ advance r hr
  | case5 s r u hm t q ha hw ih =>
    obtain ⟨us, hus⟩ := leave_of_ok ha ▸ advance r hr
    obtain ⟨vs, hvs⟩ := ih (hus.follows.fault.trans hr)
    exact ⟨us ++ vs, hus.append hvs⟩

lemma statement : Moves Parse.statement :=
  (keyword _).bind fun _ => (resume _ _).bind fun _ => (expect _).bind fun _ => pure _

lemma function : Moves Parse.function :=
  (keyword _).bind fun _ => (expect _).bind fun _ => (expect _).bind fun _ =>
    (expect _).bind fun _ => (expect _).bind fun _ => statement.bind fun _ =>
      (expect _).bind fun _ => pure _

lemma program : Moves Parse.program :=
  function.bind fun _ => (expect _).bind fun _ => pure _

lemma perform (q : ParseRequest) : Moves q.perform := by
  cases q with
  | lookahead => exact of_leave_eq fun _ => rfl
  | advance => exact advance.map _
  | check kind texts => exact of_leave_eq fun _ => rfl
  | expect kind => exact (expect kind).map _
  | keyword word => exact (keyword word).map _
  | sourceLine n => exact of_leave_eq fun _ => rfl
  | program => exact program.map _
  | function => exact function.map _
  | statement => exact statement.map _
  | part p => exact (resume p .start).map _

end Moves

lemma map_eq_ok {f : α → β} {x : Parse α} {r q : Reader} {b : β} :
    (f <$> x) r = .ok b q ↔ ∃ a, x r = .ok a q ∧ f a = b := by
  change EStateM.map f x r = .ok b q ↔ _
  rw [EStateM.map]
  cases x r with
  | ok a o =>
    simp only [EStateM.Result.ok.injEq]
    constructor
    · rintro ⟨rfl, rfl⟩
      exact ⟨a, ⟨rfl, rfl⟩, rfl⟩
    · rintro ⟨_, ⟨rfl, rfl⟩, rfl⟩
      exact ⟨rfl, rfl⟩
  | error e o => simp

lemma Traced.map {words : List String} {x : Parse α} (f : α → β) (hx : Traced words x) :
    Traced words (f <$> x) := by
  rw [map_eq_pure_bind]
  exact hx.bind fun a => .pure (f a)

lemma perform_traced (q : ParseRequest) : ∃ words, Traced words q.perform := by
  have hidle : ∀ f : Reader → ParseReply, Traced [] (do return f (← get)) := by
    intro f
    constructor
    · intro r a q h
      cases h
      exact ⟨[], .refl r⟩
    · intro r e q h
      cases h
  cases q with
  | lookahead => exact ⟨_, hidle fun r => .description r.lookahead.lexeme.describe⟩
  | advance => exact ⟨[], advance_traced.map _⟩
  | check kind texts => exact ⟨_, hidle fun r => .truth (r.check kind texts)⟩
  | expect kind => exact ⟨[], (expect_traced kind).map _⟩
  | keyword word => exact ⟨[word], (keyword_traced List.mem_cons_self).map _⟩
  | sourceLine n => exact ⟨_, hidle fun r => .line (r.sourceLine? n)⟩
  | program => exact ⟨_, program_traced.map _⟩
  | function => exact ⟨_, function_traced.map _⟩
  | statement => exact ⟨_, statement_traced.map _⟩
  | part p => exact ⟨[], (resume_traced p .start).map _⟩

end Parse

inductive ParseReply.ReadFrom : List Token → ParseReply → Prop
  | description (s : String) : ReadFrom [] (.description s)
  | truth (b : Bool) : ReadFrom [] (.truth b)
  | line (s : Option String) : ReadFrom [] (.line s)
  | token (t : Token) : ReadFrom [t] (.token t)
  | eof {t} : t.kind = .eof → ReadFrom [] (.token t)
  | expr {ts x} : Grammar.Derives .expression ts x → ReadFrom ts (.expr x)
  | statement {ts s} : Grammar.Statement ts s → ReadFrom ts (.statement s)
  | function {ts f} : Grammar.Definition ts f → ReadFrom ts (.function f)

namespace Parse

lemma advance_readFrom {r q : Reader} {t : Token} (h : advance r = .ok t q) :
    ∃ us, r.Follows us q ∧ ParseReply.ReadFrom us (.token t) := by
  by_cases hk : r.lookahead.kind = .eof
  · rw [advance_eof hk] at h
    cases h
    exact ⟨[], .refl r, .eof hk⟩
  · rcases advance_spec hk with ⟨o, ho, hf⟩ | ⟨f, o, ho, -⟩
    · cases h.symm.trans ho
      exact ⟨_, hf, .token _⟩
    · cases h.symm.trans ho

lemma expect_readFrom {kind : Kind} {r q : Reader} {t : Token} (h : expect kind r = .ok t q) :
    ∃ us, r.Follows us q ∧ ParseReply.ReadFrom us (.token t) := by
  by_cases hk : r.lookahead.kind = kind
  · exact advance_readFrom ((expect_of_kind hk).symm.trans h)
  · rw [expect_of_ne hk] at h
    cases h

lemma program_readFrom {r q : Reader} {f : Function} (h : program r = .ok f q) :
    ∃ us, r.Follows us q ∧ ParseReply.ReadFrom us (.function f) := by
  obtain ⟨g, o, hg, h⟩ := bind_eq_ok.mp h
  obtain ⟨t, o', ht, h⟩ := bind_eq_ok.mp h
  cases h
  obtain ⟨us, hd, hus⟩ := function_ok hg
  obtain ⟨-, -, rfl⟩ := expect_eof_ok ht
  exact ⟨us, hus, .function hd⟩

lemma perform_readFrom {q : ParseRequest} {r o : Reader} {a : ParseReply}
    (h : q.perform r = .ok a o) : ∃ us, r.Follows us o ∧ a.ReadFrom us := by
  cases q with
  | lookahead =>
    cases h
    exact ⟨[], .refl r, .description _⟩
  | advance =>
    obtain ⟨t, ht, rfl⟩ := map_eq_ok.mp h
    exact advance_readFrom ht
  | check kind texts =>
    cases h
    exact ⟨[], .refl r, .truth _⟩
  | expect kind =>
    obtain ⟨t, ht, rfl⟩ := map_eq_ok.mp h
    exact expect_readFrom ht
  | keyword word =>
    obtain ⟨t, ht, rfl⟩ := map_eq_ok.mp h
    exact ⟨[t], (keyword_ok ht).2, .token t⟩
  | sourceLine n =>
    cases h
    exact ⟨[], .refl r, .line _⟩
  | program =>
    obtain ⟨f, hf, rfl⟩ := map_eq_ok.mp h
    exact program_readFrom hf
  | function =>
    obtain ⟨f, hf, rfl⟩ := map_eq_ok.mp h
    obtain ⟨us, hd, hus⟩ := function_ok hf
    exact ⟨us, hus, .function hd⟩
  | statement =>
    obtain ⟨s, hs, rfl⟩ := map_eq_ok.mp h
    obtain ⟨us, hd, hus⟩ := statement_ok hs
    exact ⟨us, hus, .statement hd⟩
  | part p =>
    obtain ⟨x, hx, rfl⟩ := map_eq_ok.mp h
    obtain ⟨us, hd, hus⟩ := part_ok hx
    exact ⟨us, hus, .expr hd⟩

end Parse

namespace Reader

structure Stands (file source : String) (k : Nat) (r : Reader) : Prop where
  lookahead : (Cursor.start file source).scan.tokens[k]? = some r.lookahead
  pulled : r.pulled = k + 1
  text : r.cursor.source = source.toList
  location : r.cursor.location = Location.behind file (source.toList.take r.cursor.position)
  covers : ∃ a, r.lookahead.Covers file source.toList a r.cursor.position

structure Ahead (file source : String) (k : Nat) (r : Reader) : Prop where
  tokens : r.tokens = (Cursor.start file source).scan.tokens.drop k
  fault : r.fault = none
  pulled : r.pulled = k + 1
  reaches : (Cursor.start file source).Reaches r.cursor
  covers : ∃ a, r.lookahead.Covers file source.toList a r.cursor.position

namespace Ahead

variable {file source : String} {k : Nat} {r q : Reader} {us : List Token}

lemma placed (h : r.Ahead file source k) : r.cursor.Placed :=
  h.reaches.placed (Cursor.start_placed file source)

lemma stands (h : r.Ahead file source k) : r.Stands file source k where
  lookahead := by
    obtain ⟨ts, hts⟩ := r.tokens_eq_cons
    rw [← Nat.add_zero k, ← List.getElem?_drop, ← h.tokens, hts]
    rfl
  pulled := h.pulled
  text := h.reaches.source_eq
  location := by
    rw [h.placed.location_eq, h.reaches.file_eq, h.reaches.source_eq]
    rfl
  covers := h.covers

lemma next {c d : Cursor} {t : Token} (hc : (Cursor.start file source).Reaches c)
    (h : c.next = .ok t d) :
    (Cursor.start file source).Reaches d ∧ ∃ a, t.Covers file source.toList a d.position := by
  obtain ⟨hd, a, -, hcov⟩ := Cursor.next_covers (hc.placed (Cursor.start_placed file source)) h
  rw [hc.file_eq, hc.source_eq] at hcov
  exact ⟨hc.trans hd, a, hcov⟩

lemma start {limit : Nat} (h : (Cursor.start file source).scan.fault = none)
    (hr : start? limit file source = .ok r) : r.Ahead file source 0 := by
  obtain ⟨htokens, hfault, hpulled⟩ := start?_ok hr
  rw [start?] at hr
  split at hr
  · rename_i t d hn
    cases hr
    obtain ⟨hreaches, hcovers⟩ := next (.refl _) hn
    exact ⟨htokens, hfault.trans h, hpulled, hreaches, hcovers⟩
  · cases hr

lemma advance {t : Token} (h : r.Ahead file source k) (hk : r.lookahead.kind ≠ .eof)
    (ha : Parse.advance r = .ok t q) : q.Ahead file source (k + 1) := by
  have hf : r.Follows [r.lookahead] q := by
    rcases Parse.advance_spec hk with ⟨o, ho, hf⟩ | ⟨f, o, ho, -⟩
    · cases ha.symm.trans ho
      exact hf
    · cases ha.symm.trans ho
  have htokens : q.tokens = (Cursor.start file source).scan.tokens.drop (k + 1) := by
    rw [← List.drop_drop, ← h.tokens, hf.tokens]
    rfl
  have hpulled : q.pulled = k + 1 + 1 := hf.pulled.trans (congrArg (· + 1) h.pulled)
  rw [Parse.advance, if_neg hk] at ha
  split at ha
  · rename_i u c hn
    cases ha
    obtain ⟨hreaches, hcovers⟩ := next h.reaches hn
    exact ⟨htokens, hf.fault.trans h.fault, hpulled, hreaches, hcovers⟩
  · cases ha

lemma consumes (h : r.Ahead file source k) (hus : r.Consumes us q) :
    q.Ahead file source (k + us.length) := by
  induction hus generalizing k with
  | nil r => exact h
  | cons hk ha _ ih =>
    have hq := ih (h.advance hk ha)
    rwa [Nat.add_assoc, Nat.add_comm 1] at hq

lemma between (h : r.Ahead file source k) (hus : r.Follows us q) :
    ((Cursor.start file source).scan.tokens.take (k + us.length)).drop k = us := by
  rw [List.drop_take, ← h.tokens, hus.tokens, Nat.add_sub_cancel_left, List.take_left]

end Ahead

def after (r : Reader) (q : ParseRequest) : Reader :=
  Parse.leave q.perform r

def run (r : Reader) (qs : List ParseRequest) : Reader :=
  qs.foldl after r

namespace Ahead

variable {file source : String} {k : Nat} {r q : Reader} {us : List Token}

lemma after (h : r.Ahead file source k) (q : ParseRequest) :
    ∃ us, r.Consumes us (r.after q) ∧ (r.after q).Ahead file source (k + us.length) := by
  obtain ⟨us, hus⟩ := Parse.Moves.perform q r h.fault
  exact ⟨us, hus, h.consumes hus⟩

lemma run (h : r.Ahead file source k) (qs : List ParseRequest) :
    ∃ k', (r.run qs).Ahead file source k' := by
  induction qs generalizing r k with
  | nil => exact ⟨k, h⟩
  | cons q qs ih =>
    obtain ⟨us, -, hq⟩ := h.after q
    exact ih hq

lemma index (h : r.Ahead file source k) {t : Token} {vs : List Token}
    (ht : r.tokens = us ++ t :: vs) (j : Nat) :
    ((Cursor.start file source).scan.tokens.map Token.location)[j]? = some t.location ↔
      j = k + us.length := by
  have hk : k ≤ (Cursor.start file source).scan.tokens.length := by
    by_contra hlt
    have hnil := h.tokens
    rw [List.drop_eq_nil_of_le (by omega), ht] at hnil
    simp at hnil
  have htokens : (Cursor.start file source).scan.tokens =
      (Cursor.start file source).scan.tokens.take k ++ us ++ t :: vs := by
    rw [List.append_assoc, ← ht, h.tokens, List.take_append_drop]
  rw [Cursor.getElem?_location_iff (Cursor.start_placed file source) htokens, List.length_append,
    List.length_take, Nat.min_eq_left hk]

lemma blames (h : r.Ahead file source k) (hus : r.Consumes us q) {words : List String}
    {e : ParseFault} (hs : Parse.Stops words r e q) :
    (∃ c l line i, e = .syntactic c l line ∧
        (∀ j, ((Cursor.start file source).scan.tokens.map Token.location)[j]? = some l ↔ j = i) ∧
        k + us.length + 1 = i + c.reach) ∨ ∃ l line, e = .nesting l line := by
  have hlength : ∀ {vs : List Token}, r.Follows vs q → vs.length = us.length := by
    intro vs hvs
    exact Nat.add_left_cancel (hvs.pulled.symm.trans hus.follows.pulled)
  cases hs with
  | defect _ hfault _ => cases h.fault.symm.trans hfault
  | @misfit vs c _ hvs hc =>
    obtain ⟨ts, hts⟩ := q.tokens_eq_cons
    refine .inl ⟨c, _, _, k + vs.length, rfl, h.index (hts ▸ hvs.tokens), ?_⟩
    rw [hlength hvs]
    cases hc with
    | expected kind => rfl
    | fraction => rfl
    | noExpression => rfl
  | @keyword vs t w _ hvs hw =>
    have ht : r.tokens = vs ++ t :: q.tokens := by
      rw [hvs.tokens, List.append_assoc, List.singleton_append]
    refine .inl ⟨_, _, _, k + vs.length, rfl, h.index ht, ?_⟩
    rw [← hlength hvs, List.length_append, List.length_singleton, Complaint.reach]
    omega
  | nesting => exact .inr ⟨_, _, rfl⟩

end Ahead

/-- In a text without defects a reader stands at a token after any requests. Every further request
takes the tokens from there on up to the one at which it leaves the reader, in their order and none
of them twice; a reply is made of just these. The end of input is not passed, and a check takes
nothing. A request that fails has taken all tokens before the one it tells of, and that one too if
it is a wrong keyword. -/
theorem run_stands (limit : Nat) {file source : String}
    (h : (Cursor.start file source).scan.fault = none) :
    ∃ r, start? limit file source = .ok r ∧ ∀ qs : List ParseRequest,
      let ts := (Cursor.start file source).scan.tokens
      let s := r.run qs
      ∃ k, s.Stands file source k ∧ ∀ q : ParseRequest, ∃ k', k ≤ k' ∧
        (s.after q).Stands file source k' ∧ s.Consumes ((ts.take k').drop k) (s.after q) ∧
        (∀ a o, q.perform s = .ok a o → a.ReadFrom ((ts.take k').drop k)) ∧
        (s.lookahead.kind = .eof → s.after q = s) ∧
        (∀ kind texts, q = .check kind texts → s.after q = s) ∧
        ∀ e o, q.perform s = .error e o →
          (∃ c l line i, e = .syntactic c l line ∧
            (∀ j, (ts.map Token.location)[j]? = some l ↔ j = i) ∧ k' + 1 = i + c.reach) ∨
          ∃ l line, e = .nesting l line := by
  obtain ⟨r, hr, -, -⟩ := exists_start h
  refine ⟨r, hr, fun qs => ?_⟩
  obtain ⟨k, hk⟩ := (Ahead.start h hr).run qs
  refine ⟨k, hk.stands, fun q => ?_⟩
  obtain ⟨us, hus, hq⟩ := hk.after q
  have hbetween := hk.between hus.follows
  refine ⟨k + us.length, Nat.le_add_right _ _, hq.stands, hbetween.symm ▸ hus, fun a o ha => ?_,
    hus.eq_of_eof, ?_, fun e o he => ?_⟩
  · obtain ⟨vs, hvs, hread⟩ := Parse.perform_readFrom ha
    rw [← Parse.leave_of_ok ha] at hvs
    have hlength := Nat.add_left_cancel (hvs.pulled.symm.trans hus.follows.pulled)
    rw [← hlength, hk.between hvs]
    exact hread
  · rintro kind texts rfl
    rfl
  · obtain ⟨words, htraced⟩ := Parse.perform_traced q
    have hstops := htraced.error _ e o he
    rw [← Parse.leave_of_error he] at hstops
    exact hk.blames hus hstops

theorem run_stands_keyword :
    (Cursor.start "a.c" "int f(){float 1;}").scan.fault = none ∧
      ∃ r, start? 1000 "a.c" "int f(){float 1;}" = .ok r ∧
        (r.run [.function, .check .eof none]).Stands "a.c" "int f(){float 1;}" 6 ∧
        ((r.run [.function, .check .eof none]).after (.part .expression)).Stands "a.c"
          "int f(){float 1;}" 7 := by
  have hfault : (Cursor.start "a.c" "int f(){float 1;}").scan.fault = none := by decide +kernel
  have hcount : (start? 1000 "a.c" "int f(){float 1;}").map (fun r =>
      ((r.run [.function, .check .eof none]).pulled,
        ((r.run [.function, .check .eof none]).after (.part .expression)).pulled)) = .ok (7, 8) := by
    decide +kernel
  obtain ⟨r, hr, hrun⟩ := run_stands 1000 hfault
  obtain ⟨k, hk, hafter⟩ := hrun [.function, .check .eof none]
  obtain ⟨k', -, hk', -⟩ := hafter (.part .expression)
  rw [hr] at hcount
  obtain ⟨hbefore, hbehind⟩ := Prod.mk.inj (Except.ok.inj hcount)
  obtain rfl : k = 6 := Nat.succ.inj (hk.pulled.symm.trans hbefore)
  obtain rfl : k' = 7 := Nat.succ.inj (hk'.pulled.symm.trans hbehind)
  exact ⟨hfault, r, hr, hk, hk'⟩

end Reader

end TinyC

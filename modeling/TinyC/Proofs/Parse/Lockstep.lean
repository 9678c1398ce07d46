import Mathlib.Tactic.Common
import TinyC.Proofs.Parse.Trace

namespace TinyC

def Location.nowhere : Location :=
  ⟨"", 0, 0⟩

def Token.unplaced (t : Token) : Token :=
  ⟨t.lexeme, .nowhere⟩

lemma Token.lexeme_unplaced (t : Token) : t.unplaced.lexeme = t.lexeme := rfl

lemma Token.kind_unplaced (t : Token) : t.unplaced.kind = t.kind := rfl

lemma Token.text_unplaced (t : Token) : t.unplaced.text = t.text := rfl

def Expr.unplaced : Expr → Expr
  | literal _ digits => literal .nowhere digits
  | unary _ op x => unary .nowhere op x.unplaced
  | binary _ op x y => binary .nowhere op x.unplaced y.unplaced

def Function.unplaced (f : Function) : Function :=
  ⟨.nowhere, f.name, .nowhere, f.body.value.unplaced⟩

def Sign.unplaced (s : Sign) : Sign :=
  ⟨s.op, .nowhere⟩

def LeftOperand.unplaced (l : LeftOperand) : LeftOperand :=
  ⟨l.value.unplaced, l.op, .nowhere⟩

def Level.unplaced (l : Level) : Level :=
  ⟨l.sum.map LeftOperand.unplaced, l.product.map LeftOperand.unplaced⟩

def Suspended.unplaced (s : Suspended) : Suspended :=
  ⟨s.level.unplaced, s.signs.map Sign.unplaced⟩

def ExprState.unplaced : ExprState → ExprState
  | before level signs outer =>
    before level.unplaced (signs.map Sign.unplaced) (outer.map Suspended.unplaced)
  | after x level outer => after x.unplaced level.unplaced (outer.map Suspended.unplaced)

def Move.unplaced : Move → Move
  | take s => take s.unplaced
  | finish x => finish x.unplaced
  | refuse c => refuse c

namespace Move

variable {m : Move}

lemma exists_take {s : ExprState} (h : m.unplaced = (take s).unplaced) :
    ∃ s', m = take s' ∧ s'.unplaced = s.unplaced := by
  cases m with
  | take s' => exact ⟨s', rfl, take.inj h⟩
  | finish x => cases h
  | refuse c => cases h

lemma exists_finish {x : Expr} (h : m.unplaced = (finish x).unplaced) :
    ∃ x', m = finish x' ∧ x'.unplaced = x.unplaced := by
  cases m with
  | take s => cases h
  | finish x' => exact ⟨x', rfl, finish.inj h⟩
  | refuse c => cases h

lemma eq_refuse {c : Complaint} (h : m.unplaced = (refuse c).unplaced) : m = refuse c := by
  cases m with
  | take s => cases h
  | finish x => cases h
  | refuse c' => exact h

end Move

lemma Sign.unplaced_applyAll (signs : List Sign) (x : Expr) :
    (applyAll signs x).unplaced = applyAll (signs.map Sign.unplaced) x.unplaced := by
  induction signs generalizing x with
  | nil => rfl
  | cons s signs ih => exact ih (.unary s.location s.op x)

namespace Level

lemma unplaced_term (l : Level) (x : Expr) : (l.term x).unplaced = l.unplaced.term x.unplaced := by
  rw [term, term, unplaced]
  cases l.product with
  | none => rfl
  | some left => rfl

lemma unplaced_total (l : Level) (x : Expr) :
    (l.total x).unplaced = l.unplaced.total x.unplaced := by
  rw [total, total, ← unplaced_term, unplaced]
  cases l.sum with
  | none => rfl
  | some left => rfl

lemma unplaced_push (l : Level) (x : Expr) (op : BinaryOp) (m : Location) :
    (l.push x op m).unplaced = l.unplaced.push x.unplaced op .nowhere := by
  rw [push, push, ← unplaced_term, ← unplaced_total]
  cases op.isAdditive with
  | true => rfl
  | false => rfl

end Level

namespace ExprState

lemma unplaced_moveBefore (level : Level) (signs : List Sign) (outer : List Suspended) (t : Token) :
    (moveBefore level signs outer t).unplaced =
      moveBefore level.unplaced (signs.map Sign.unplaced) (outer.map Suspended.unplaced)
        t.unplaced := by
  rw [moveBefore, moveBefore, Token.kind_unplaced, Token.text_unplaced, Token.lexeme_unplaced]
  cases t.kind with
  | operator =>
    cases UnaryOp.ofSymbol? t.text with
    | none => rfl
    | some op => rfl
  | intLiteral =>
    by_cases h : '.' ∈ t.text.toList
    · simp only [h, if_true]
      rfl
    · simp only [h, if_false, Move.unplaced, unplaced, Sign.unplaced_applyAll]
      rfl
  | _ => rfl

lemma unplaced_moveAfter (p : Part) (x : Expr) (level : Level) (outer : List Suspended)
    (t : Token) :
    (moveAfter p x level outer t).unplaced =
      moveAfter p x.unplaced level.unplaced (outer.map Suspended.unplaced) t.unplaced := by
  have hop : ∀ p, binaryOp? p t.unplaced = binaryOp? p t := fun p => rfl
  cases outer with
  | nil =>
    rw [List.map_nil, moveAfter, moveAfter, hop, ← Level.unplaced_total]
    cases binaryOp? p t with
    | none => rfl
    | some op =>
      simp only [Move.unplaced, unplaced, Level.unplaced_push]
      rfl
  | cons s outer =>
    rw [List.map_cons, moveAfter, moveAfter, hop, ← Level.unplaced_total]
    cases binaryOp? .expression t with
    | none =>
      simp only [Token.kind_unplaced, Token.lexeme_unplaced]
      by_cases h : t.kind = .closeParen
      · simp only [h, if_true, Move.unplaced, unplaced, Sign.unplaced_applyAll]
        rfl
      · simp only [h, if_false]
        rfl
    | some op =>
      simp only [Move.unplaced, unplaced, Level.unplaced_push]
      rfl

lemma unplaced_move (p : Part) (s : ExprState) (t : Token) :
    (s.move p t).unplaced = s.unplaced.move p t.unplaced := by
  cases s with
  | before level signs outer => exact unplaced_moveBefore level signs outer t
  | after x level outer => exact unplaced_moveAfter p x level outer t

lemma outerWeight_unplaced (outer : List Suspended) :
    outerWeight (outer.map Suspended.unplaced) = outerWeight outer := by
  induction outer with
  | nil => rfl
  | cons s outer ih =>
    rw [List.map_cons, outerWeight, outerWeight, ih, Suspended.unplaced, List.length_map]

lemma weight_unplaced (s : ExprState) : s.unplaced.weight = s.weight := by
  cases s with
  | before level signs outer => simp only [unplaced, weight, outerWeight_unplaced, List.length_map]
  | after x level outer => simp only [unplaced, weight, outerWeight_unplaced]

lemma move_of_unplaced (p : Part) {s s' : ExprState} {t t' : Token}
    (hs : s'.unplaced = s.unplaced) (ht : t'.lexeme = t.lexeme) :
    (s'.move p t').unplaced = (s.move p t).unplaced := by
  rw [unplaced_move, unplaced_move, hs, Token.unplaced, Token.unplaced, ht]

end ExprState

structure Reader.Agree (n : Nat) (r r' : Reader) : Prop where
  pulled : r'.pulled = r.pulled
  limit : r'.limit = r.limit
  le : r.pulled ≤ n
  lexemes : (r'.tokens.map Token.lexeme).take (n + 1 - r.pulled) =
    (r.tokens.map Token.lexeme).take (n + 1 - r.pulled)

namespace Reader.Agree

variable {n : Nat} {r r' q q' : Reader} {t t' : Token}

lemma lookahead (h : r.Agree n r') : r'.lookahead.lexeme = r.lookahead.lexeme := by
  obtain ⟨ts, hts⟩ := r.tokens_eq_cons
  obtain ⟨ts', hts'⟩ := r'.tokens_eq_cons
  have hle := h.le
  have hcount : n + 1 - r.pulled = n - r.pulled + 1 := by omega
  have hl := h.lexemes
  rw [hts, hts', hcount] at hl
  exact (List.cons.inj hl).1

lemma kind (h : r.Agree n r') : r'.lookahead.kind = r.lookahead.kind :=
  congrArg Lexeme.kind h.lookahead

lemma lexemes_step (h : r.Agree n r') (hq : r.Follows [t] q) (hn : q.pulled ≤ n) :
    ∃ l, (r'.tokens.map Token.lexeme).take (n + 1 - q.pulled + 1) =
      l :: (q.tokens.map Token.lexeme).take (n + 1 - q.pulled) := by
  have hpulled : q.pulled = r.pulled + 1 := hq.pulled
  have hcount : n + 1 - r.pulled = n + 1 - q.pulled + 1 := by omega
  have hl := h.lexemes
  rw [hq.tokens, hcount] at hl
  exact ⟨t.lexeme, hl⟩

lemma step (h : r.Agree n r') (hq : r.Follows [t] q) (hq' : r'.Follows [t'] q')
    (hn : q.pulled ≤ n) : q.Agree n q' where
  pulled := by rw [hq.pulled, hq'.pulled, h.pulled]; rfl
  limit := by rw [hq.limit, hq'.limit, h.limit]
  le := hn
  lexemes := by
    obtain ⟨l, hl⟩ := h.lexemes_step hq hn
    rw [hq'.tokens] at hl
    exact (List.cons.inj hl).2

lemma tokens_ne (h : r.Agree n r') (hq : r.Follows [t] q) (hn : q.pulled ≤ n) :
    r'.tokens ≠ [t'] := by
  intro ht
  obtain ⟨l, hl⟩ := h.lexemes_step hq hn
  obtain ⟨ts, hts⟩ := q.tokens_eq_cons
  have hcount : n + 1 - q.pulled = n - q.pulled + 1 := by omega
  rw [ht, hts, hcount] at hl
  cases (List.cons.inj hl).2

end Reader.Agree

namespace Parse

inductive Matches {α β : Type} (view : α → β) (n : Nat) :
    EStateM.Result ParseFault Reader α → EStateM.Result ParseFault Reader α → Prop
  | ok {a a' q q'} : view a' = view a → q.Agree n q' → Matches view n (.ok a q) (.ok a' q')
  | refused {c l l' line line' q q'} : q'.pulled = q.pulled →
      Matches view n (.error (.syntactic c l line) q) (.error (.syntactic c l' line') q')
  | defect {f q z} : Matches view n (.error (.lexical f) q) z
  | nesting {l line q z} : Matches view n (.error (.nesting l line) q) z
  | ok_beyond {a q z} : n < q.pulled → Matches view n (.ok a q) z
  | error_beyond {e q z} : n < q.pulled → Matches view n (.error e q) z

variable {words : List String} {α β γ δ : Type} {view : α → γ} {r q : Reader}

lemma Stops.pulled_le {e : ParseFault} (h : Stops words r e q) : r.pulled ≤ q.pulled := by
  cases h with
  | defect _ _ hq => omega
  | misfit hq _ => exact hq.pulled ▸ Nat.le_add_right _ _
  | keyword hq _ => exact hq.pulled ▸ Nat.le_add_right _ _
  | nesting hq => exact hq.pulled ▸ Nat.le_add_right _ _

lemma Traced.beyond {x : Parse α} (hx : Traced words x) {n : Nat} (hn : n < r.pulled)
    (z : EStateM.Result ParseFault Reader α) : Matches view n (x r) z := by
  cases h : x r with
  | ok a q =>
    obtain ⟨us, hus⟩ := hx.ok r a q h
    have hpulled := hus.pulled
    exact .ok_beyond (by omega)
  | error e q =>
    have hpulled := (hx.error r e q h).pulled_le
    exact .error_beyond (by omega)

structure Parallel (words : List String) (view : α → γ) (x x' : Parse α) : Prop where
  traced : Traced words x
  run : ∀ {n r r'}, r.Agree n r' → Matches view n (x r) (x' r')

namespace Parallel

lemma pure {a a' : α} (h : view a' = view a) :
    Parallel words view (Pure.pure a) (Pure.pure a') where
  traced := .pure a
  run hr := .ok h hr

lemma bind {x x' : Parse α} {g g' : α → Parse β} {view' : β → δ} (hx : Parallel words view x x')
    (hg : ∀ a a', view a' = view a → Parallel words view' (g a) (g' a')) :
    Parallel words view' (x >>= g) (x' >>= g') where
  traced := hx.traced.bind fun a => (hg a a rfl).traced
  run {n r r'} hr := by
    have hm := hx.run hr
    change Matches view' n (EStateM.bind x g r) (EStateM.bind x' g' r')
    rw [EStateM.bind, EStateM.bind]
    generalize x r = y, x' r' = y' at hm
    cases hm with
    | ok ha hq => exact (hg _ _ ha).run hq
    | refused hp => exact .refused hp
    | defect => exact .defect
    | nesting => exact .nesting
    -- Too many tokens were cut already, and what follows cuts none less.
    | ok_beyond hn => exact (hg _ _ rfl).traced.beyond hn _
    | error_beyond hn => exact .error_beyond hn

end Parallel

lemma advance_parallel : Parallel words Token.lexeme advance advance where
  traced := advance_traced
  run {n r r'} h := by
    by_cases hk : r.lookahead.kind = .eof
    · rw [advance_eof hk, advance_eof (h.kind.trans hk)]
      exact .ok h.lookahead h
    · rcases advance_spec hk with ⟨q, hq, hf⟩ | ⟨f, q, hq, -⟩
      · rw [hq]
        by_cases hn : q.pulled ≤ n
        · have hk' : r'.lookahead.kind ≠ .eof := h.kind ▸ hk
          rcases advance_spec hk' with ⟨q', hq', hf'⟩ | ⟨f, q', -, ht, -⟩
          · rw [hq']
            exact .ok h.lookahead (h.step hf hf' hn)
          · exact absurd ht (h.tokens_ne hf hn)
        · exact .ok_beyond (Nat.lt_of_not_le hn)
      · rw [hq]
        exact .defect

lemma expect_parallel (k : Kind) : Parallel words Token.lexeme (expect k) (expect k) where
  traced := expect_traced k
  run {n r r'} h := by
    by_cases hk : r.lookahead.kind = k
    · rw [expect_of_kind hk, expect_of_kind (h.kind.trans hk)]
      have hadvance : Parallel words Token.lexeme advance advance := advance_parallel
      exact hadvance.run h
    · have hk' : r'.lookahead.kind ≠ k := h.kind ▸ hk
      rw [expect_of_ne hk, expect_of_ne hk', h.lookahead]
      exact .refused h.pulled

lemma keyword_parallel {w : String} (hw : w ∈ words) :
    Parallel words Token.lexeme (keyword w) (keyword w) where
  traced := keyword_traced hw
  run {n r r'} h := by
    have hexpect : Parallel words Token.lexeme (expect .keyword) (expect .keyword) :=
      expect_parallel .keyword
    have hm := hexpect.run h
    change Matches _ n (EStateM.bind (expect .keyword) _ r) (EStateM.bind (expect .keyword) _ r')
    rw [EStateM.bind, EStateM.bind]
    generalize expect .keyword r = y, expect .keyword r' = y' at hm
    cases hm with
    | @ok t t' q q' ht hq =>
      have htext : t'.text = t.text := congrArg Lexeme.text ht
      dsimp only
      rw [htext]
      split
      · exact .ok ht hq
      · exact .refused hq.pulled
    | refused hp => exact .refused hp
    | defect => exact .defect
    | nesting => exact .nesting
    | ok_beyond hn =>
      dsimp only
      split
      · exact .ok_beyond hn
      · exact .error_beyond hn
    | error_beyond hn => exact .error_beyond hn

lemma resume_parallel (p : Part) {s s' : ExprState} (hs : s'.unplaced = s.unplaced) :
    Parallel words Expr.unplaced (resume p s) (resume p s') where
  traced := resume_traced p s
  run {n r r'} hr := by
    -- The loop of the first run leads; the second stays in step with its state and its reader.
    fun_induction resume p s r generalizing s' r' with
    | case1 s r x hm =>
      have hmove := ExprState.move_of_unplaced p hs hr.lookahead
      obtain ⟨x', hm', hx⟩ := Move.exists_finish (hm ▸ hmove)
      rw [resume_finish hm']
      exact .ok hx hr
    | case2 s r c hm =>
      have hmove := ExprState.move_of_unplaced p hs hr.lookahead
      rw [resume_refuse (Move.eq_refuse (hm ▸ hmove))]
      exact .refused hr.pulled
    | case3 s r u hm f o ha =>
      rcases advance_spec (ExprState.kind_of_take hm) with ⟨q, hq, -⟩ | ⟨g, q, hq, -⟩
      · cases ha.symm.trans hq
      · cases ha.symm.trans hq
        exact .defect
    | case4 s r u hm t o ha hw => exact .nesting
    | case5 s r u hm t o ha hw ih =>
      have hadvance : Parallel words Token.lexeme advance advance := advance_parallel
      have htraced : Traced words (resume p u) := resume_traced p u
      have hmove := ExprState.move_of_unplaced p hs hr.lookahead
      obtain ⟨u', hm', hu⟩ := Move.exists_take (hm ▸ hmove)
      have hweight : u'.weight = u.weight := by
        rw [← u'.weight_unplaced, hu, u.weight_unplaced]
      have hstep := hadvance.run hr
      generalize ha' : advance r' = y at hstep
      rw [ha] at hstep
      cases hstep with
      | ok ht ho =>
        rw [resume_take hm' ha', hweight, ho.limit, if_neg hw]
        exact ih hu ho
      | ok_beyond hn => exact htraced.beyond hn _

lemma program_parallel : Parallel ["int", "return"] Function.unplaced program program := by
  rw [program_eq]
  refine (keyword_parallel (by simp)).bind fun _ _ _ =>
    (expect_parallel _).bind fun name name' hname => (expect_parallel _).bind fun _ _ _ =>
      (expect_parallel _).bind fun _ _ _ => (expect_parallel _).bind fun _ _ _ =>
        (keyword_parallel (by simp)).bind fun _ _ _ => (resume_parallel _ rfl).bind fun x x' hx =>
          (expect_parallel _).bind fun _ _ _ => (expect_parallel _).bind fun _ _ _ =>
            (expect_parallel _).bind fun _ _ _ => .pure ?_
  have htext : name'.text = name.text := congrArg Lexeme.text hname
  rw [Function.unplaced, Function.unplaced, htext, hx]

section

variable {r' : Reader} (h : r.Agree q.pulled r')

include h

lemma program_ok_of_agree {f : Function} (hq : program r = .ok f q) :
    ∃ f' q', program r' = .ok f' q' ∧ f'.unplaced = f.unplaced ∧ q'.pulled = q.pulled ∧
      q'.limit = q.limit := by
  have hm := program_parallel.run h
  generalize program r' = y at hm
  rw [hq] at hm
  cases hm with
  | ok hf hq' => exact ⟨_, _, rfl, hf, hq'.pulled, hq'.limit⟩
  | ok_beyond hn => exact absurd hn (Nat.lt_irrefl _)

lemma program_error_of_agree {c : Complaint} {l : Location} {line : Option String}
    (hq : program r = .error (.syntactic c l line) q) :
    ∃ l' line' q', program r' = .error (.syntactic c l' line') q' ∧ q'.pulled = q.pulled := by
  have hm := program_parallel.run h
  generalize program r' = y at hm
  rw [hq] at hm
  cases hm with
  | refused hp => exact ⟨_, _, _, rfl, hp⟩
  | error_beyond hn => exact absurd hn (Nat.lt_irrefl _)

end

end Parse

end TinyC

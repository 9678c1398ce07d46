import Mathlib.Tactic.Common
import TinyC.Parse.Expression

namespace TinyC

namespace Grammar

inductive Additive : Token → BinaryOp → Prop
  | plus (l : Location) : Additive ⟨⟨.operator, "+"⟩, l⟩ .add
  | minus (l : Location) : Additive ⟨⟨.operator, "-"⟩, l⟩ .subtract

inductive Multiplicative : Token → BinaryOp → Prop
  | times (l : Location) : Multiplicative ⟨⟨.operator, "*"⟩, l⟩ .multiply
  | over (l : Location) : Multiplicative ⟨⟨.operator, "/"⟩, l⟩ .divide

inductive Unary : Token → UnaryOp → Prop
  | minus (l : Location) : Unary ⟨⟨.operator, "-"⟩, l⟩ .negate
  | tilde (l : Location) : Unary ⟨⟨.operator, "~"⟩, l⟩ .complement
  | bang (l : Location) : Unary ⟨⟨.operator, "!"⟩, l⟩ .logicalNot

/-- The tokens of a factor, a term or an expression, and its tree. Chains of operators are joined
from the left, and parentheses leave no trace. -/
inductive Derives : Part → List Token → Expr → Prop
  | literal {t} : t.kind = .intLiteral → '.' ∉ t.text.toList →
      Derives .factor [t] (.literal t.location t.text)
  | unary {t op ts x} : Unary t op → Derives .factor ts x →
      Derives .factor (t :: ts) (.unary t.location op x)
  | parens {o c ts x} : o.kind = .openParen → Derives .expression ts x → c.kind = .closeParen →
      Derives .factor (o :: (ts ++ [c])) x
  | factor {ts x} : Derives .factor ts x → Derives .term ts x
  | product {t op ts us x y} : Derives .term ts x → Multiplicative t op → Derives .factor us y →
      Derives .term (ts ++ t :: us) (.binary t.location op x y)
  | term {ts x} : Derives .term ts x → Derives .expression ts x
  | sum {t op ts us x y} : Derives .expression ts x → Additive t op → Derives .term us y →
      Derives .expression (ts ++ t :: us) (.binary t.location op x y)

inductive Statement : List Token → Return → Prop
  | ret {t s ts x} : t.lexeme = ⟨.keyword, "return"⟩ → Derives .expression ts x →
      s.kind = .semicolon → Statement (t :: (ts ++ [s])) ⟨t.location, x⟩

inductive Definition : List Token → Function → Prop
  | function {t name o c b e ts r} : t.lexeme = ⟨.keyword, "int"⟩ → name.kind = .identifier →
      o.kind = .openParen → c.kind = .closeParen → b.kind = .openBrace → Statement ts r →
      e.kind = .closeBrace →
      Definition (t :: name :: o :: c :: b :: (ts ++ [e])) ⟨t.location, name.text, r⟩

inductive Program : List Token → Function → Prop
  | program {ts e f} : Definition ts f → e.kind = .eof → Program (ts ++ [e]) f

end Grammar

namespace ExprState

open Grammar

def drive (p : Part) : ExprState → List Token → ExprState × List Token
  | s, [] => (s, [])
  | s, t :: ts =>
    match s.move p t with
    | .take u => drive p u ts
    | _ => (s, t :: ts)

lemma drive_take {p : Part} {s u : ExprState} {t : Token} (ts : List Token)
    (h : s.move p t = .take u) : s.drive p (t :: ts) = u.drive p ts := by
  rw [drive, h]

lemma drive_of_ne_take {p : Part} {s : ExprState} {t : Token} (k : List Token)
    (h : ∀ u, s.move p t ≠ .take u) : s.drive p (t :: k) = (s, t :: k) := by
  rw [drive]
  split
  · rename_i u hu
    exact absurd hu (h u)
  · rfl

lemma binaryOp?_additive {t : Token} {op : BinaryOp} (h : Additive t op) :
    binaryOp? .expression t = some op ∧ op.isAdditive = true := by
  cases h <;> exact ⟨rfl, rfl⟩

lemma binaryOp?_multiplicative {t : Token} {op : BinaryOp} (h : Multiplicative t op) :
    binaryOp? .expression t = some op ∧ op.isAdditive = false := by
  cases h <;> exact ⟨rfl, rfl⟩

lemma move_after_binary {t : Token} {op : BinaryOp} (f : Expr) (level : Level)
    (outer : List Suspended) (h : binaryOp? .expression t = some op) :
    move .expression (after f level outer) t =
      .take (before (level.push f op t.location) [] outer) := by
  cases outer with
  | nil => simp only [move, moveAfter, h]
  | cons s outer => simp only [move, moveAfter, h]

lemma move_after_of_ne_operator {t : Token} (f : Expr) (level : Level) (ht : t.kind ≠ .operator) :
    move .expression (after f level []) t = .finish (level.total f) := by
  simp [move, moveAfter, binaryOp?, ht]

lemma move_before_unary {p : Part} {t : Token} {op : UnaryOp} (level : Level) (signs : List Sign)
    (outer : List Suspended) (h : Unary t op) :
    move p (before level signs outer) t =
      .take (before level (⟨op, t.location⟩ :: signs) outer) := by
  cases h <;> rfl

inductive Path (p : Part) : ExprState → List Token → ExprState → Nat → Prop
  | nil (s : ExprState) : Path p s [] s s.weight
  | cons {s t u ts v n} : s.move p t = .take u → Path p u ts v n →
      Path p s (t :: ts) v (max s.weight n)

namespace Path

variable {p : Part} {s u v : ExprState} {t : Token} {ts us : List Token} {m n : Nat}

lemma weight_le (h : Path p s ts v n) : s.weight ≤ n := by
  cases h with
  | nil => exact Nat.le_refl _
  | cons => exact Nat.le_max_left _ _

lemma append (h : Path p s ts u m) (h' : Path p u us v n) : Path p s (ts ++ us) v (max m n) := by
  induction h with
  | nil s =>
    rw [Nat.max_eq_right h'.weight_le]
    exact h'
  | cons hm _ ih =>
    rw [Nat.max_assoc]
    exact .cons hm (ih h')

lemma single (hm : s.move p t = .take u) : Path p s [t] u (max s.weight u.weight) :=
  .cons hm (.nil u)

lemma drive (h : Path p s ts u n) (k : List Token) : s.drive p (ts ++ k) = u.drive p k := by
  induction h with
  | nil s => rfl
  | cons hm _ ih =>
    rw [List.cons_append, drive_take _ hm]
    exact ih

end Path

def Travels : Part → List Token → Expr → Nat → Prop
  | .factor, ts, x, n => ∀ level signs outer,
      Path .expression (before level signs outer) ts (after (Sign.applyAll signs x) level outer)
        (signs.length + outerWeight outer + n)
  | .term, ts, x, n => ∀ sum outer, ∃ f product, Level.term ⟨sum, product⟩ f = x ∧
      Path .expression (before ⟨sum, none⟩ [] outer) ts (after f ⟨sum, product⟩ outer)
        (outerWeight outer + n)
  | .expression, ts, x, n => ∀ outer, ∃ f level, Level.total level f = x ∧
      Path .expression (before {} [] outer) ts (after f level outer) (outerWeight outer + n)

namespace Travels

variable {t o c : Token} {ts us : List Token} {x y : Expr} {m n : Nat}

lemma literal (hk : t.kind = .intLiteral) (hp : '.' ∉ t.text.toList) :
    Travels .factor [t] (.literal t.location t.text) 0 := by
  intro level signs outer
  have hm : move .expression (before level signs outer) t =
      .take (after (Sign.applyAll signs (.literal t.location t.text)) level outer) := by
    simp only [move, moveBefore, hk, hp, if_false]
  have hw : max (signs.length + outerWeight outer) (outerWeight outer) =
      signs.length + outerWeight outer + 0 := by omega
  exact hw ▸ Path.single hm

lemma unary {op : UnaryOp} (ht : Unary t op) (h : Travels .factor ts x n) :
    Travels .factor (t :: ts) (.unary t.location op x) (n + 1) := by
  intro level signs outer
  have hpath := Path.cons (move_before_unary level signs outer ht) (h level _ outer)
  have hw : max (signs.length + outerWeight outer)
      (signs.length + 1 + outerWeight outer + n) = signs.length + outerWeight outer + (n + 1) := by
    omega
  exact hw ▸ hpath

lemma parens (ho : o.kind = .openParen) (h : Travels .expression ts x n)
    (hc : c.kind = .closeParen) : Travels .factor (o :: (ts ++ [c])) x (n + 5) := by
  intro level signs outer
  have hopen : move .expression (before level signs outer) o =
      .take (before {} [] (⟨level, signs⟩ :: outer)) := by
    simp only [move, moveBefore, ho]
  obtain ⟨f, inner, rfl, hpath⟩ := h (⟨level, signs⟩ :: outer)
  have hclose : move .expression (after f inner (⟨level, signs⟩ :: outer)) c =
      .take (after (Sign.applyAll signs (inner.total f)) level outer) := by
    simp [move, moveAfter, binaryOp?, hc]
  have hw : max (signs.length + outerWeight outer) (max (signs.length + 5 + outerWeight outer + n)
      (max (signs.length + 5 + outerWeight outer) (outerWeight outer))) =
        signs.length + outerWeight outer + (n + 5) := by omega
  exact hw ▸ Path.cons hopen (hpath.append (.single hclose))

lemma factor (h : Travels .factor ts x n) : Travels .term ts x n := by
  intro sum outer
  have hpath := h ⟨sum, none⟩ [] outer
  rw [List.length_nil, Nat.zero_add] at hpath
  exact ⟨x, none, rfl, hpath⟩

lemma product {op : BinaryOp} (h : Travels .term ts x m) (ht : Multiplicative t op)
    (h' : Travels .factor us y n) :
    Travels .term (ts ++ t :: us) (.binary t.location op x y) (max m n) := by
  intro sum outer
  obtain ⟨f, product, rfl, hpath⟩ := h sum outer
  obtain ⟨hop, hadd⟩ := binaryOp?_multiplicative ht
  have hm := move_after_binary f ⟨sum, product⟩ outer hop
  rw [Level.push, hadd] at hm
  have hw : max (outerWeight outer + m)
      (max (outerWeight outer) (0 + outerWeight outer + n)) = outerWeight outer + max m n := by
    omega
  exact ⟨y, _, rfl, hw ▸ hpath.append (.cons hm (h' _ [] outer))⟩

lemma term (h : Travels .term ts x n) : Travels .expression ts x n := by
  intro outer
  obtain ⟨f, product, rfl, hpath⟩ := h none outer
  exact ⟨f, ⟨none, product⟩, rfl, hpath⟩

lemma sum {op : BinaryOp} (h : Travels .expression ts x m) (ht : Additive t op)
    (h' : Travels .term us y n) :
    Travels .expression (ts ++ t :: us) (.binary t.location op x y) (max m n) := by
  intro outer
  obtain ⟨f, level, rfl, hpath⟩ := h outer
  obtain ⟨hop, hadd⟩ := binaryOp?_additive ht
  have hm := move_after_binary f level outer hop
  rw [Level.push, hadd] at hm
  obtain ⟨g, product, rfl, hpath'⟩ := h' (some ⟨level.total f, op, t.location⟩) outer
  have hw : max (outerWeight outer + m)
      (max (outerWeight outer) (outerWeight outer + n)) = outerWeight outer + max m n := by
    omega
  exact ⟨g, _, rfl, hw ▸ hpath.append (.cons hm hpath')⟩

end Travels

lemma exists_travels {p : Part} {ts : List Token} {x : Expr} (h : Derives p ts x) :
    ∃ n, Travels p ts x n := by
  induction h with
  | literal hk hp => exact ⟨_, .literal hk hp⟩
  | unary ht _ ih =>
    obtain ⟨n, hn⟩ := ih
    exact ⟨_, hn.unary ht⟩
  | parens ho _ hc ih =>
    obtain ⟨n, hn⟩ := ih
    exact ⟨_, hn.parens ho hc⟩
  | factor _ ih =>
    obtain ⟨n, hn⟩ := ih
    exact ⟨n, hn.factor⟩
  | product _ ht _ ihx ihy =>
    obtain ⟨m, hm⟩ := ihx
    obtain ⟨n, hn⟩ := ihy
    exact ⟨_, hm.product ht hn⟩
  | term _ ih =>
    obtain ⟨n, hn⟩ := ih
    exact ⟨n, hn.term⟩
  | sum _ ht _ ihx ihy =>
    obtain ⟨m, hm⟩ := ihx
    obtain ⟨n, hn⟩ := ihy
    exact ⟨_, hm.sum ht hn⟩

end ExprState

namespace Grammar

inductive Waits (p : Part) (IsOp : Token → BinaryOp → Prop) : Option LeftOperand → List Token → Prop
  | none : Waits p IsOp none []
  | some {t op ts x} : Derives p ts x → IsOp t op →
      Waits p IsOp (some ⟨x, op, t.location⟩) (ts ++ [t])

def LevelReads (level : Level) (ts : List Token) : Prop :=
  ∃ us vs, ts = us ++ vs ∧ Waits .expression Additive level.sum us ∧
    Waits .term Multiplicative level.product vs

inductive SignsRead : List Sign → List Token → Prop
  | nil : SignsRead [] []
  | snoc {t op signs ts} : SignsRead signs ts → Unary t op →
      SignsRead (⟨op, t.location⟩ :: signs) (ts ++ [t])

inductive OuterReads : List Suspended → List Token → Prop
  | nil : OuterReads [] []
  | cons {t level signs outer os ls ss} : OuterReads outer os → LevelReads level ls →
      SignsRead signs ss → t.kind = .openParen →
      OuterReads (⟨level, signs⟩ :: outer) (os ++ ls ++ ss ++ [t])

inductive StateReads : ExprState → List Token → Prop
  | before {level signs outer os ls ss} : OuterReads outer os → LevelReads level ls →
      SignsRead signs ss → StateReads (.before level signs outer) (os ++ ls ++ ss)
  | after {x level outer os ls fs} : OuterReads outer os → LevelReads level ls →
      Derives .factor fs x → StateReads (.after x level outer) (os ++ ls ++ fs)

lemma levelReads_start : LevelReads {} [] :=
  ⟨[], [], rfl, .none, .none⟩

lemma stateReads_start : StateReads .start [] :=
  .before .nil levelReads_start .nil

lemma SignsRead.derives {signs : List Sign} {ss : List Token} (h : SignsRead signs ss) :
    ∀ {fs : List Token} {x : Expr}, Derives .factor fs x →
      Derives .factor (ss ++ fs) (Sign.applyAll signs x) := by
  induction h with
  | nil => exact id
  | @snoc t op signs ts _ ht ih =>
    intro fs x hx
    rw [List.append_assoc]
    exact ih (.unary ht hx)

lemma Waits.term {level : Level} {vs fs : List Token} {x : Expr}
    (h : Waits .term Multiplicative level.product vs) (hx : Derives .factor fs x) :
    Derives .term (vs ++ fs) (level.term x) := by
  obtain ⟨sum, product⟩ := level
  cases h with
  | none => exact .factor hx
  | some hd hop =>
    rw [List.append_assoc]
    exact .product hd hop hx

lemma LevelReads.total {level : Level} {ls fs : List Token} {x : Expr} (h : LevelReads level ls)
    (hx : Derives .factor fs x) : Derives .expression (ls ++ fs) (level.total x) := by
  obtain ⟨us, vs, rfl, hs, hp⟩ := h
  have ht := hp.term hx
  obtain ⟨sum, product⟩ := level
  rw [List.append_assoc]
  cases hs with
  | none => exact .term ht
  | some hd hop =>
    rw [List.append_assoc]
    exact .sum hd hop ht

lemma lexeme_of_binaryOp? {p : Part} {t : Token} {op : BinaryOp}
    (h : ExprState.binaryOp? p t = some op) : t.lexeme = ⟨.operator, op.symbol⟩ := by
  obtain ⟨⟨kind, text⟩, location⟩ := t
  rw [ExprState.binaryOp?] at h
  split at h
  · rename_i hk
    have hs := List.find?_some (Option.eq_some_of_filter_eq_some h)
    exact congrArg₂ Lexeme.mk hk (of_decide_eq_true hs).symm
  · cases h

lemma additive_or_multiplicative {t : Token} {op : BinaryOp}
    (ht : t.lexeme = ⟨.operator, op.symbol⟩) :
    op.isAdditive = true ∧ Additive t op ∨ op.isAdditive = false ∧ Multiplicative t op := by
  obtain ⟨lexeme, location⟩ := t
  dsimp only at ht
  subst ht
  cases op with
  | add => exact .inl ⟨rfl, .plus location⟩
  | subtract => exact .inl ⟨rfl, .minus location⟩
  | multiply => exact .inr ⟨rfl, .times location⟩
  | divide => exact .inr ⟨rfl, .over location⟩

lemma unary_of_lexeme {t : Token} {op : UnaryOp} (ht : t.lexeme = ⟨.operator, op.symbol⟩) :
    Unary t op := by
  obtain ⟨lexeme, location⟩ := t
  dsimp only at ht
  subst ht
  cases op with
  | negate => exact .minus location
  | complement => exact .tilde location
  | logicalNot => exact .bang location

lemma unary_of_ofSymbol? {t : Token} {op : UnaryOp} (hk : t.kind = .operator)
    (h : UnaryOp.ofSymbol? t.text = some op) : Unary t op := by
  rw [UnaryOp.ofSymbol?] at h
  have hs := List.find?_some h
  exact unary_of_lexeme (congrArg₂ Lexeme.mk hk (of_decide_eq_true hs).symm)

lemma LevelReads.push {p : Part} {level : Level} {ls fs : List Token} {x : Expr} {t : Token}
    {op : BinaryOp} (h : LevelReads level ls) (hx : Derives .factor fs x)
    (hop : ExprState.binaryOp? p t = some op) :
    LevelReads (level.push x op t.location) (ls ++ fs ++ [t]) := by
  rw [Level.push]
  rcases additive_or_multiplicative (lexeme_of_binaryOp? hop) with ⟨ha, hop⟩ | ⟨ha, hop⟩
  · rw [ha]
    exact ⟨ls ++ fs ++ [t], [], by simp, .some (h.total hx) hop, .none⟩
  · rw [ha]
    obtain ⟨us, vs, rfl, hs, hp⟩ := h
    exact ⟨us, vs ++ fs ++ [t], by simp, hs, .some (hp.term hx) hop⟩

lemma StateReads.moveBefore {level : Level} {signs : List Sign} {outer : List Suspended}
    {ts : List Token} {t : Token} {u : ExprState}
    (h : StateReads (.before level signs outer) ts)
    (hm : ExprState.moveBefore level signs outer t = .take u) : StateReads u (ts ++ [t]) := by
  cases h with
  | @before _ _ _ os ls ss ho hl hs =>
    rw [ExprState.moveBefore] at hm
    split at hm
    · rename_i hk
      cases hm
      simpa using StateReads.before (ho.cons hl hs hk) levelReads_start .nil
    · rename_i hk
      split at hm
      · rename_i op hop
        cases hm
        simpa using StateReads.before ho hl (hs.snoc (unary_of_ofSymbol? hk hop))
      · cases hm
    · rename_i hk
      split at hm
      · cases hm
      · rename_i hp
        cases hm
        simpa using StateReads.after ho hl (hs.derives (.literal hk hp))
    · cases hm

lemma StateReads.moveAfter {p : Part} {x : Expr} {level : Level} {outer : List Suspended}
    {ts : List Token} {t : Token} {u : ExprState} (h : StateReads (.after x level outer) ts)
    (hm : ExprState.moveAfter p x level outer t = .take u) : StateReads u (ts ++ [t]) := by
  cases h with
  | @after _ _ _ os ls fs ho hl hx =>
    cases outer with
    | nil =>
      rw [ExprState.moveAfter] at hm
      split at hm
      · rename_i op hop
        cases hm
        simpa using StateReads.before ho (hl.push hx hop) .nil
      · cases hm
    | cons s outer =>
      rw [ExprState.moveAfter] at hm
      split at hm
      · rename_i op hop
        cases hm
        simpa using StateReads.before ho (hl.push hx hop) .nil
      · split at hm
        · rename_i hc
          cases hm
          cases ho with
          | @cons o level' signs _ os' ls' ss' ho' hl' hs' hop =>
            have hf := hs'.derives (.parens hop (hl.total hx) hc)
            simpa using StateReads.after ho' hl' hf
        · cases hm

lemma StateReads.move {p : Part} {s u : ExprState} {ts : List Token} {t : Token}
    (h : StateReads s ts) (hm : s.move p t = .take u) : StateReads u (ts ++ [t]) := by
  cases s with
  | before level signs outer => exact h.moveBefore hm
  | after x level outer => exact h.moveAfter hm

lemma StateReads.drive {p : Part} {s v : ExprState} {us ts rest : List Token}
    (h : StateReads s us) (hd : s.drive p ts = (v, rest)) :
    ∃ vs, ts = vs ++ rest ∧ StateReads v (us ++ vs) := by
  induction ts generalizing s us with
  | nil =>
    cases hd
    exact ⟨[], rfl, by simpa using h⟩
  | cons t ts ih =>
    rw [ExprState.drive] at hd
    split at hd
    · rename_i u hm
      obtain ⟨vs, rfl, hv⟩ := ih (h.move hm) hd
      exact ⟨t :: vs, rfl, by simpa using hv⟩
    · cases hd
      exact ⟨[], rfl, by simpa using h⟩

lemma StateReads.finish {p : Part} {s : ExprState} {ts : List Token} {t : Token} {x : Expr}
    (h : StateReads s ts) (hm : s.move p t = .finish x) : Derives .expression ts x := by
  cases h with
  | @before level signs outer os ls ss _ _ _ =>
    simp only [ExprState.move, ExprState.moveBefore] at hm
    repeat' split at hm
    all_goals cases hm
  | @after y level outer os ls fs ho hl hx =>
    simp only [ExprState.move] at hm
    cases ho with
    | nil =>
      rw [ExprState.moveAfter] at hm
      split at hm
      · cases hm
      · cases hm
        simpa using hl.total hx
    | cons =>
      rw [ExprState.moveAfter] at hm
      repeat' split at hm
      all_goals cases hm

end Grammar

end TinyC

import Mathlib.Tactic.Common
import TinyC.Proofs.Parse.Legibility
import TinyC.Proofs.Token.Span

namespace TinyC

def Token.isParen (t : Token) : Bool :=
  t.kind = .openParen || t.kind = .closeParen

def Expr.tokens : Expr → List Token
  | literal l digits => [⟨⟨.intLiteral, digits⟩, l⟩]
  | unary l op x => ⟨⟨.operator, op.symbol⟩, l⟩ :: x.tokens
  | binary l op x y => x.tokens ++ ⟨⟨.operator, op.symbol⟩, l⟩ :: y.tokens

namespace Grammar

variable {t : Token} {op : BinaryOp}

lemma Unary.token_eq {op : UnaryOp} (h : Unary t op) :
    t = ⟨⟨.operator, op.symbol⟩, t.location⟩ := by
  cases h <;> rfl

lemma Additive.token_eq (h : Additive t op) : t = ⟨⟨.operator, op.symbol⟩, t.location⟩ := by
  cases h <;> rfl

lemma Multiplicative.token_eq (h : Multiplicative t op) :
    t = ⟨⟨.operator, op.symbol⟩, t.location⟩ := by
  cases h <;> rfl

lemma filter_operator {symbol : String} (h : t = ⟨⟨.operator, symbol⟩, t.location⟩)
    (ts us : List Token) :
    (ts ++ t :: us).filter (!·.isParen) =
      ts.filter (!·.isParen) ++ ⟨⟨.operator, symbol⟩, t.location⟩ :: us.filter (!·.isParen) := by
  have ht : t.isParen = false := by
    rw [h]
    rfl
  rw [List.filter_append, List.filter_cons_of_pos (by rw [ht, Bool.not_false]), ← h]

lemma Derives.tokens_eq {p : Part} {ts : List Token} {x : Expr} (h : Derives p ts x) :
    x.tokens = ts.filter (!·.isParen) := by
  induction h with
  | @literal t hk hp =>
    obtain ⟨⟨kind, text⟩, location⟩ := t
    obtain rfl : kind = .intLiteral := hk
    rfl
  | @unary t op ts x ht _ ih =>
    rw [Expr.tokens, ih]
    exact (filter_operator ht.token_eq [] ts).symm
  | @parens o c ts x ho _ hc ih =>
    have ho : o.isParen = true := by simp [Token.isParen, ho]
    have hc : c.isParen = true := by simp [Token.isParen, hc]
    rw [ih, List.filter_cons_of_neg (by simp [ho]), List.filter_append,
      List.filter_cons_of_neg (by simp [hc]), List.filter_nil, List.append_nil]
  | factor _ ih => exact ih
  | product _ ht _ ihx ihy => rw [Expr.tokens, ihx, ihy, filter_operator ht.token_eq]
  | term _ ih => exact ih
  | sum _ ht _ ihx ihy => rw [Expr.tokens, ihx, ihy, filter_operator ht.token_eq]

end Grammar

/-- The nodes of a program that was read carry the texts and places of their tokens. From left to
right, those of the expression are the tokens between the word before it and the semicolon behind
it, without the parentheses, so that their places ascend. -/
theorem parse_keeps_tokens {limit : Nat} {file source : String} {f : Function}
    (h : Function.parse limit file source = .ok f) :
    ∃ (start name o c b ret : Token) (ts : List Token) (s e last : Token),
      (Cursor.start file source).scan.tokens =
        start :: name :: o :: c :: b :: ret :: (ts ++ [s, e, last]) ∧
      start.lexeme = ⟨.keyword, "int"⟩ ∧ name.kind = .identifier ∧ o.kind = .openParen ∧
      c.kind = .closeParen ∧ b.kind = .openBrace ∧ ret.lexeme = ⟨.keyword, "return"⟩ ∧
      s.kind = .semicolon ∧ e.kind = .closeBrace ∧ last.kind = .eof ∧
      f.location = start.location ∧ f.name = name.text ∧ f.body.location = ret.location ∧
      f.body.value.tokens = ts.filter (!·.isParen) ∧
      f.body.value.tokens.Pairwise fun t u => t.location.Precedes u.location := by
  have hp := (legible_iff.mpr h).parses
  have hascending := (Cursor.start file source).scan_ascending (Cursor.start_placed file source)
  generalize (Cursor.start file source).scan.tokens = us at hp hascending
  obtain ⟨@⟨start, name, o, c, b, e, _, _, ht, hname, ho, hc, hb,
    @⟨ret, s, ts, x, hret, hx, hs⟩, he⟩, hlast⟩ := hp
  rename_i last
  have hinfix : ts <:+: start :: name :: o :: c :: b :: (ret :: (ts ++ [s]) ++ [e]) ++ [last] :=
    ⟨[start, name, o, c, b, ret], [s, e, last], by simp⟩
  refine ⟨start, name, o, c, b, ret, ts, s, e, last, by simp, ht, hname, ho, hc, hb, hret, hs, he,
    hlast, rfl, rfl, rfl, hx.tokens_eq, ?_⟩
  rw [hx.tokens_eq]
  exact hascending.sublist (List.filter_sublist.trans hinfix.sublist)

theorem parse_keeps_tokens_sign :
    Function.parse 1000 "a.c" "int f(){return -(1+2)*3;}" = .ok ⟨⟨"a.c", 1, 1⟩, "f", ⟨⟨"a.c", 1, 9⟩,
        .binary ⟨"a.c", 1, 22⟩ .multiply (.unary ⟨"a.c", 1, 16⟩ .negate
          (.binary ⟨"a.c", 1, 19⟩ .add (.literal ⟨"a.c", 1, 18⟩ "1") (.literal ⟨"a.c", 1, 20⟩ "2")))
          (.literal ⟨"a.c", 1, 23⟩ "3")⟩⟩ ∧
      ∃ ts : List Token, ts.filter (!·.isParen) =
        [⟨⟨.operator, "-"⟩, ⟨"a.c", 1, 16⟩⟩, ⟨⟨.intLiteral, "1"⟩, ⟨"a.c", 1, 18⟩⟩,
          ⟨⟨.operator, "+"⟩, ⟨"a.c", 1, 19⟩⟩, ⟨⟨.intLiteral, "2"⟩, ⟨"a.c", 1, 20⟩⟩,
          ⟨⟨.operator, "*"⟩, ⟨"a.c", 1, 22⟩⟩, ⟨⟨.intLiteral, "3"⟩, ⟨"a.c", 1, 23⟩⟩] ∧
      ts <:+: (Cursor.start "a.c" "int f(){return -(1+2)*3;}").scan.tokens := by
  have hp : Function.parse 1000 "a.c" "int f(){return -(1+2)*3;}" = .ok ⟨⟨"a.c", 1, 1⟩, "f",
      ⟨⟨"a.c", 1, 9⟩, .binary ⟨"a.c", 1, 22⟩ .multiply
        (.unary ⟨"a.c", 1, 16⟩ .negate (.binary ⟨"a.c", 1, 19⟩ .add (.literal ⟨"a.c", 1, 18⟩ "1")
          (.literal ⟨"a.c", 1, 20⟩ "2"))) (.literal ⟨"a.c", 1, 23⟩ "3")⟩⟩ := by
    decide +kernel
  obtain ⟨start, name, o, c, b, ret, ts, s, e, last, hts, -, -, -, -, -, -, -, -, -, -, -, -,
    hvalue, -⟩ := parse_keeps_tokens hp
  exact ⟨hp, ts, hvalue.symm, hts ▸ ⟨[start, name, o, c, b, ret], [s, e, last], by simp⟩⟩

end TinyC

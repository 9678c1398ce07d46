import Mathlib.Tactic.Common
import TinyC.Proofs.Assembly.Emission
import TinyC.Proofs.Tree.Sameness

namespace TinyC

namespace Tree

def isExpression : Tree → Bool
  | literal _ v => v.toList.all Char.isDigit
  | unary _ (some (.unary _)) x => x.isExpression
  | binary _ (some (.binary _)) x y => x.isExpression && y.isExpression
  | _ => false

def reduced : Tree → Tree
  | foreign v => foreign v
  | blank l => blank l
  | literal l v => literal l (literalValue v).toNat.repr
  | unary l op x => unary l op x.reduced
  | binary l op x y => binary l op x.reduced y.reduced
  | ret l x => ret l x.reduced
  | function l name body => function l name body.reduced

end Tree

/-- What the registers and the stack hold, as trees. `compared` is what the zero flag tells about. -/
structure Rebuilder where
  accumulator : Tree
  scratch : Tree
  compared : Tree
  stack : List Tree

namespace Rebuilder

def unary (op : UnaryOp) (x : Tree) : Tree :=
  .unary none (some (.unary op)) x

def binary (op : BinaryOp) (x y : Tree) : Tree :=
  .binary none (some (.binary op)) x y

def step (m : Rebuilder) : Instruction → Rebuilder
  | .load v => { m with accumulator := .literal none v.toNat.repr }
  | .negate => { m with accumulator := unary .negate m.accumulator }
  | .complement => { m with accumulator := unary .complement m.accumulator }
  | .compareZero => { m with compared := m.accumulator }
  -- the zero that the accumulator was cleared to is no literal of the expression
  | .setIfZero => { m with accumulator := unary .logicalNot m.compared }
  | .spill => { m with stack := m.accumulator :: m.stack }
  | .reload => { m with scratch := m.stack.headD (.blank none), stack := m.stack.tail }
  | .add => { m with accumulator := binary .add m.scratch m.accumulator }
  | .subtract => { m with accumulator := binary .subtract m.accumulator m.scratch }
  | .multiply => { m with accumulator := binary .multiply m.scratch m.accumulator }
  | .signExtend => m
  | .divide => { m with accumulator := binary .divide m.accumulator m.scratch }
  | .ret => m

def run (is : List Instruction) (m : Rebuilder) : Rebuilder :=
  is.foldl step m

def Rebuilds (is : List Instruction) (t : Tree) : Prop :=
  ∀ m, (run is m).accumulator = t ∧ (run is m).stack = m.stack

lemma run_append (a b : List Instruction) (m : Rebuilder) : run (a ++ b) m = run b (run a m) :=
  List.foldl_append

lemma run_unary (op : UnaryOp) (m : Rebuilder) :
    (run op.code m).accumulator = unary op m.accumulator ∧ (run op.code m).stack = m.stack := by
  cases op <;> exact ⟨rfl, rfl⟩

lemma run_binary (op : BinaryOp) (m : Rebuilder) :
    (run op.code m).accumulator =
        (if op.leftFirst then binary op m.scratch m.accumulator
        else binary op m.accumulator m.scratch) ∧
      (run op.code m).stack = m.stack := by
  cases op <;> exact ⟨rfl, rfl⟩

lemma Rebuilds.unary {is : List Instruction} {t : Tree} (h : Rebuilds is t) (op : UnaryOp) :
    Rebuilds (is ++ op.code) (Rebuilder.unary op t) := by
  intro m
  obtain ⟨ht, hs⟩ := h m
  obtain ⟨hacc, hstack⟩ := run_unary op (run is m)
  rw [run_append, hacc, hstack, ht]
  exact ⟨rfl, hs⟩

lemma Rebuilds.binary {a b : List Instruction} {x y : Tree} (hx : Rebuilds a x)
    (hy : Rebuilds b y) (op : BinaryOp) :
    Rebuilds (a ++ [.spill] ++ b ++ .reload :: op.code)
      (if op.leftFirst then Rebuilder.binary op x y else Rebuilder.binary op y x) := by
  intro m
  obtain ⟨hxa, hxs⟩ := hx m
  -- the tree that was rebuilt first waits on the stack
  let n := (run a m).step .spill
  obtain ⟨hya, hys⟩ := hy n
  let o := (run b n).step .reload
  have hrun : run (a ++ [.spill] ++ b ++ .reload :: op.code) m = run op.code o := by
    rw [run_append, run_append, run_append]
    rfl
  have hscratch : o.scratch = x := by
    change (run b n).stack.headD (.blank none) = x
    rw [hys]
    exact hxa
  have hstack : o.stack = m.stack := by
    change (run b n).stack.tail = m.stack
    rw [hys]
    exact hxs
  obtain ⟨hacc, hs⟩ := run_binary op o
  have hy' : o.accumulator = y := hya
  rw [hrun, hacc, hs, hscratch, hy']
  exact ⟨rfl, hstack⟩

end Rebuilder

lemma Expr.code_rebuilds (e : Expr) : Rebuilder.Rebuilds e.code e.toTree.reduced.unplaced := by
  induction e with
  | literal l digits => exact fun m => ⟨rfl, rfl⟩
  | unary l op x ih => exact ih.unary op
  | binary l op x y ihx ihy =>
    have hleft := ihx.binary ihy op
    have hright := ihy.binary ihx op
    rw [code]
    cases hfirst : op.leftFirst with
    | true =>
      rw [hfirst] at hleft
      exact hleft
    | false =>
      rw [hfirst] at hright
      exact hright

lemma literalValue_repr (w : Word) : literalValue w.toNat.repr = w := by
  rw [literalValue, Nat.repr_eq_ofList_toDigits, String.toList_ofList,
    Nat.ofDigitChars_ten_toDigits, BitVec.ofNat_toNat, BitVec.setWidth_eq]

lemma Expr.code_eq_of_reduced {e e' : Expr}
    (h : e.toTree.reduced.unplaced = e'.toTree.reduced.unplaced) : e.code = e'.code := by
  induction e generalizing e' with
  | literal l digits =>
    cases e' with
    | literal l' digits' =>
      simp only [toTree, Tree.reduced, Tree.unplaced, Tree.literal.injEq, true_and] at h
      -- the digits differ, but the texts of their words are read back to one word
      have hvalue := congrArg literalValue h
      rw [literalValue_repr, literalValue_repr] at hvalue
      rw [code, code, hvalue]
    | unary l' op' x' => cases h
    | binary l' op' x' y' => cases h
  | unary l op x ih =>
    cases e' with
    | literal l' digits' => cases h
    | unary l' op' x' =>
      simp only [toTree, Tree.reduced, Tree.unplaced, Tree.unary.injEq, true_and,
        Option.some.injEq, Operator.unary.injEq] at h
      rw [code, code, h.1, ih h.2]
    | binary l' op' x' y' => cases h
  | binary l op x y ihx ihy =>
    cases e' with
    | literal l' digits' => cases h
    | unary l' op' x' => cases h
    | binary l' op' x' y' =>
      simp only [toTree, Tree.reduced, Tree.unplaced, Tree.binary.injEq, true_and,
        Option.some.injEq, Operator.binary.injEq] at h
      rw [code, code, h.1, ihx h.2.1, ihy h.2.2]

namespace Tree

variable {t : Tree}

lemma unplaced_reduced (t : Tree) : t.reduced.unplaced = t.unplaced.reduced := by
  induction t with
  | foreign v => rfl
  | blank l => rfl
  | literal l v => rfl
  | unary l op x ih => rw [reduced, unplaced, unplaced, reduced, ih]
  | binary l op x y ihx ihy => rw [reduced, unplaced, unplaced, reduced, ihx, ihy]
  | ret l x ih => rw [reduced, unplaced, unplaced, reduced, ih]
  | function l name body ih => rw [reduced, unplaced, unplaced, reduced, ih]

lemma foreigns_reduced (h : t.isExpression = true) : t.reduced.foreigns = [] := by
  fun_induction isExpression t with
  | case1 l v => rfl
  | case2 l op x ih => exact ih h
  | case3 l op x y ihx ihy =>
    obtain ⟨hx, hy⟩ := Bool.and_eq_true_iff.mp h
    rw [reduced, foreigns, ihx hx, ihy hy, List.append_nil]
  | case4 t => cases h

lemma exists_expr (h : t.isExpression = true) :
    ∃ e : Expr, e.Decimal ∧ e.toTree.unplaced = t.unplaced ∧
      ∀ s, Emit.tree s t = Emit.tree s e.toTree := by
  fun_induction isExpression t with
  | case1 l v => exact ⟨.literal ⟨"", 0, 0⟩ v, List.all_eq_true.mp h, rfl, fun s => rfl⟩
  | case2 l op x ih =>
    obtain ⟨e, hdecimal, hsame, htree⟩ := ih h
    refine ⟨.unary ⟨"", 0, 0⟩ op e, hdecimal, ?_, fun s => ?_⟩
    · rw [Expr.toTree, unplaced, unplaced, hsame]
    · rw [Expr.toTree, Emit.tree, Emit.tree, htree]
  | case3 l op x y ihx ihy =>
    obtain ⟨hx, hy⟩ := Bool.and_eq_true_iff.mp h
    obtain ⟨e, hdecimal, hsame, htree⟩ := ihx hx
    obtain ⟨e', hdecimal', hsame', htree'⟩ := ihy hy
    refine ⟨.binary ⟨"", 0, 0⟩ op e e', ⟨hdecimal, hdecimal'⟩, ?_, fun s => ?_⟩
    · rw [Expr.toTree, unplaced, unplaced, hsame, hsame']
    · rw [Expr.toTree, Emit.tree, Emit.tree, htree, htree']
  | case4 t => cases h

end Tree

namespace Instruction

def ofOperation? : Operation → Option Instruction
  | .move (.immediate v) .eax => some (load ⟨v⟩)
  | .negate .eax => some negate
  | .complement .eax => some complement
  | .compare (.immediate 0) .eax => some compareZero
  | .setIfZero => some setIfZero
  | .push .eax => some spill
  | .pop .ecx => some reload
  | .add (.register .ecx) .eax => some add
  | .subtract (.register .ecx) .eax => some subtract
  | .multiply (.register .ecx) .eax => some multiply
  | .signExtend => some signExtend
  | .divide .ecx => some divide
  | .ret => some ret
  | _ => none

lemma ofOperation?_operation (i : Instruction) : ofOperation? i.operation = some i := by
  cases i <;> rfl

lemma eq_of_text_eq {t : Target} {i j : Instruction} (h : (i.line t).text = (j.line t).text) :
    i = j := by
  have hdecode : ∀ k : Instruction,
      (Line.fields? (k.line t).text.toList).bind (Operation.ofFields? t) = some k.operation := by
    intro k
    obtain ⟨mnemonic, operands, hline, hm, hlength, ho, hop⟩ := k.line_spells t
    rw [hline, Line.fields?_instruction hm hlength ho]
    exact hop
  have hop : i.operation = j.operation := by
    rw [← Option.some.injEq, ← hdecode i, ← hdecode j, h]
  rw [← Option.some.injEq, ← ofOperation?_operation i, ← ofOperation?_operation j, hop]

end Instruction

/-- Code of the same target has the same lines exactly if it comes from the same expression, up to
the words that its literals stand for. -/
theorem emitted_lines_eq_iff {a b : Tree} (ha : a.isExpression = true)
    (hb : b.isExpression = true) (t : Target) (symbolPrefix symbolPrefix' : String) :
    ∃ p q, Emit.Appends (Emit.tree ⟨t, symbolPrefix, false⟩ a) p none ∧
      Emit.Appends (Emit.tree ⟨t, symbolPrefix', false⟩ b) q none ∧
      (p.map Line.text = q.map Line.text ↔ a.reduced.same b.reduced = true) := by
  obtain ⟨e, he, hae, htree⟩ := Tree.exists_expr ha
  obtain ⟨e', he', hbe, htree'⟩ := Tree.exists_expr hb
  refine ⟨e.code.map (Instruction.line t), e'.code.map (Instruction.line t), ?_, ?_, ?_⟩
  · rw [htree, Emit.tree_expr rfl he]
    exact .code _ _
  · rw [htree', Emit.tree_expr rfl he']
    exact .code _ _
  · have hreduced : a.reduced.same b.reduced = true ↔
        e.toTree.reduced.unplaced = e'.toTree.reduced.unplaced := by
      rw [Tree.same_iff (Tree.foreigns_reduced ha) (Tree.foreigns_reduced hb)]
      simp only [Tree.unplaced_reduced, hae, hbe]
    rw [hreduced, List.map_map, List.map_map]
    constructor
    · intro h
      have hcode : e.code = e'.code :=
        (List.map_inj_right fun i j hij => Instruction.eq_of_text_eq hij).mp h
      let m : Rebuilder := ⟨.blank none, .blank none, .blank none, []⟩
      rw [← (e.code_rebuilds m).1, ← (e'.code_rebuilds m).1, hcode]
    · intro h
      rw [Expr.code_eq_of_reduced h]

theorem emitted_lines_eq_iff_difference :
    let number := Tree.literal none
    let minus := Tree.binary none (some (.binary .subtract))
    let a := minus (number "1") (minus (number "4294967298") (number "3"))
    let b := minus (number "01") (minus (number "2") (number "3"))
    let c := minus (minus (number "1") (number "2")) (number "3")
    (∃ p q, Emit.Appends (Emit.tree {} a) p none ∧ Emit.Appends (Emit.tree {} b) q none ∧
        p.map Line.text = q.map Line.text) ∧
      ∃ p q, Emit.Appends (Emit.tree {} b) p none ∧ Emit.Appends (Emit.tree {} c) q none ∧
        p.map Line.text ≠ q.map Line.text := by
  intro number minus a b c
  have ha : a.isExpression = true := by decide +kernel
  have hb : b.isExpression = true := by decide +kernel
  have hc : c.isExpression = true := by decide +kernel
  have hab : a.reduced.same b.reduced = true := by decide +kernel
  have hbc : ¬ b.reduced.same c.reduced = true := by decide +kernel
  obtain ⟨p, q, hp, hq, hpq⟩ := emitted_lines_eq_iff ha hb .x86_64 "" ""
  obtain ⟨p', q', hp', hq', hpq'⟩ := emitted_lines_eq_iff hb hc .x86_64 "" ""
  exact ⟨⟨p, q, hp, hq, hpq.mpr hab⟩, p', q', hp', hq', mt hpq'.mp hbc⟩

end TinyC

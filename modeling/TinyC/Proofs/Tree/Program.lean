import Mathlib.Tactic.Common
import TinyC.Proofs.Parse.Legibility
import TinyC.Proofs.Text.Lines
import TinyC.Proofs.Text.Plain
import TinyC.Proofs.Tree.Outline
import TinyC.Proofs.Tree.Sameness

namespace TinyC

open Text

namespace Text.Graphic

variable {s : String}

lemma indented (depth : Nat) (h : Graphic s) : Graphic (Tree.indented depth s) := by
  apply append _ h
  simp [Graphic, isPrintable]

lemma of_isWord (h : Lexis.IsWord s.toList) : Graphic s := by
  have hmarks : ∀ c ∈ ['_', ':', '<', '>'], isPrintable c = true :=
    List.all_eq_true.mp rfl
  intro c hc
  rcases h.2 c hc with hc | hc | hc
  · exact isPrintable_of_isAlpha hc
  · exact isPrintable_of_isDigit hc
  · exact hmarks c hc

end Text.Graphic

namespace Tree

lemma outlineAt_unplaced (t : Tree) (depth : Nat) :
    t.unplaced.outlineAt depth = t.outlineAt depth := by
  induction t generalizing depth with
  | foreign v => rfl
  | blank l => rfl
  | literal l v => rfl
  | unary l op x ih => simp only [unplaced, outlineAt, ih]
  | binary l op x y ihx ihy => simp only [unplaced, outlineAt, ihx, ihy]
  | ret l x ih => simp only [unplaced, outlineAt, ih]
  | function l name x ih => simp only [unplaced, outlineAt, ih]

lemma outline_unplaced (t : Tree) : t.unplaced.outline = t.outline := by
  cases t with
  | foreign v => rfl
  | _ => exact congrArg ("\n".intercalate <$> ·) (outlineAt_unplaced _ 0)

lemma indented_inj {depth : Nat} {s t : String} : indented depth s = indented depth t ↔ s = t :=
  String.append_right_inj _

lemma indented_ne {depth : Nat} {s t : String} (h : s.toList.head? ≠ t.toList.head?) :
    indented depth s ≠ indented depth t := by
  rw [ne_eq, indented_inj]
  rintro rfl
  exact h rfl

end Tree

lemma UnaryOp.symbol_injective {op op' : UnaryOp} (h : op.symbol = op'.symbol) : op = op' := by
  rw [← Option.some_inj, ← ofSymbol?_symbol, h, ofSymbol?_symbol]

lemma BinaryOp.symbol_injective {op op' : BinaryOp} (h : op.symbol = op'.symbol) : op = op' := by
  rw [← Option.some_inj, ← ofSymbol?_symbol, h, ofSymbol?_symbol]

namespace Expr

def lines (depth : Nat) : Expr → List String
  | literal _ digits => [Tree.indented depth ("Int " ++ digits)]
  | unary _ op x => Tree.indented depth ("Unary " ++ op.symbol) :: x.lines (depth + 1)
  | binary _ op x y =>
    Tree.indented depth ("Binary " ++ op.symbol) :: (x.lines (depth + 1) ++ y.lines (depth + 1))

lemma outlineAt_toTree (e : Expr) (depth : Nat) :
    e.toTree.outlineAt depth = .ok (e.lines depth) := by
  induction e generalizing depth with
  | literal l digits => rfl
  | unary l op x ih =>
    rw [toTree, Tree.outlineAt_unary, ih]
    rfl
  | binary l op x y ihx ihy =>
    rw [toTree, Tree.outlineAt_binary, ihx, ihy]
    rfl

lemma graphic_lines {e : Expr} (h : e.Decimal) (depth : Nat) : ∀ l ∈ e.lines depth, Graphic l := by
  induction e generalizing depth with
  | literal l digits =>
    exact List.forall_mem_singleton.mpr (.indented depth (.append (by decide) (.of_digits h)))
  | unary l op x ih =>
    have hop : Graphic ("Unary " ++ op.symbol) := by
      cases op <;> decide
    exact List.forall_mem_cons.mpr ⟨.indented depth hop, ih h (depth + 1)⟩
  | binary l op x y ihx ihy =>
    have hop : Graphic ("Binary " ++ op.symbol) := by
      cases op <;> decide
    exact List.forall_mem_cons.mpr ⟨.indented depth hop,
      List.forall_mem_append.mpr ⟨ihx h.1 (depth + 1), ihy h.2 (depth + 1)⟩⟩

lemma lines_append_inj {e e' : Expr} {depth : Nat} {r s : List String}
    (h : e.lines depth ++ r = e'.lines depth ++ s) :
    e.toTree.unplaced = e'.toTree.unplaced ∧ r = s := by
  -- the first letter of a line tells how many expressions stand below it, so `r` and `s` stay free
  induction e generalizing e' depth r s with
  | literal l digits =>
    cases e' with
    | literal l' digits' =>
      obtain ⟨hline, hrs⟩ := List.cons.inj h
      rw [Tree.indented_inj, String.append_right_inj] at hline
      rw [hline]
      exact ⟨rfl, hrs⟩
    | _ => exact absurd (List.cons.inj h).1 (Tree.indented_ne (by simp))
  | unary l op x ih =>
    cases e' with
    | unary l' op' x' =>
      obtain ⟨hline, hrest⟩ := List.cons.inj h
      rw [Tree.indented_inj, String.append_right_inj] at hline
      obtain ⟨hx, hrs⟩ := ih hrest
      rw [toTree, toTree, Tree.unplaced, Tree.unplaced, hx, UnaryOp.symbol_injective hline]
      exact ⟨rfl, hrs⟩
    | _ => exact absurd (List.cons.inj h).1 (Tree.indented_ne (by simp))
  | binary l op x y ihx ihy =>
    cases e' with
    | binary l' op' x' y' =>
      rw [lines, lines, List.cons_append, List.cons_append, List.append_assoc,
        List.append_assoc] at h
      obtain ⟨hline, hrest⟩ := List.cons.inj h
      rw [Tree.indented_inj, String.append_right_inj] at hline
      obtain ⟨hx, hrest⟩ := ihx hrest
      obtain ⟨hy, hrs⟩ := ihy hrest
      rw [toTree, toTree, Tree.unplaced, Tree.unplaced, hx, hy, BinaryOp.symbol_injective hline]
      exact ⟨rfl, hrs⟩
    | _ => exact absurd (List.cons.inj h).1 (Tree.indented_ne (by simp))

end Expr

namespace Function

def lines (f : Function) : List String :=
  Tree.indented 0 ("Function: " ++ f.name) :: Tree.indented 1 "Return" :: f.body.value.lines 2

lemma outline_toTree (f : Function) : f.toTree.outline = .ok ("\n".intercalate f.lines) := by
  rw [Tree.outline_of_isNode rfl, toTree, Return.toTree, Tree.outlineAt_function,
    Tree.outlineAt_ret, Expr.outlineAt_toTree]
  rfl

lemma unplaced_toTree_of_lines {f g : Function} (h : f.lines = g.lines) :
    f.toTree.unplaced = g.toTree.unplaced := by
  obtain ⟨htitle, hrest⟩ := List.cons.inj h
  rw [Tree.indented_inj, String.append_right_inj] at htitle
  have hbody : f.body.value.lines 2 ++ [] = g.body.value.lines 2 ++ [] := by
    rw [(List.cons.inj hrest).2]
  have hvalue := (Expr.lines_append_inj hbody).1
  simp only [toTree, Return.toTree, Tree.unplaced, htitle, hvalue]

end Function

namespace Legible

variable {limit : Nat} {file source : String} {f : Function}

lemma graphic_lines (h : Legible limit file source f) : ∀ l ∈ f.lines, Graphic l := by
  have htitle : Graphic ("Function: " ++ f.name) := .append (by decide) (.of_isWord h.isWord_name)
  exact List.forall_mem_cons.mpr ⟨.indented 0 htitle,
    List.forall_mem_cons.mpr ⟨.indented 1 (by decide), Expr.graphic_lines h.decimal 2⟩⟩

lemma splitOn_outline (h : Legible limit file source f) :
    ("\n".intercalate f.lines).toList.splitOn '\n' = f.lines.map String.toList :=
  splitOn_intercalate (fun l hl => (h.graphic_lines l hl).notMem_newline) (List.cons_ne_nil _ _)

end Legible

/-- Programs that were read have the same printed text exactly if they are the same but for their
locations. -/
theorem Printer.answer_eq_iff_same {limit limit' : Nat} {file file' source source' : String}
    {f g : Function} (hf : Function.parse limit file source = .ok f)
    (hg : Function.parse limit' file' source' = .ok g) (p q : Printer) :
    ∃ a b, (p.answer f.toTree).1 = .ok a ∧ (q.answer g.toTree).1 = .ok b ∧
      (a = b ↔ f.toTree.same g.toTree = true) := by
  refine ⟨"\n".intercalate f.lines, "\n".intercalate g.lines, ?_, ?_, ?_⟩
  · rw [answer_eq_outline, Function.outline_toTree]
  · rw [answer_eq_outline, Function.outline_toTree]
  · rw [Tree.same_iff f.foreigns_toTree g.foreigns_toTree]
    constructor
    · intro h
      have hcut := (legible_iff.mpr hf).splitOn_outline.symm.trans
        (h ▸ (legible_iff.mpr hg).splitOn_outline)
      apply Function.unplaced_toTree_of_lines
      exact (List.map_inj_right fun _ _ => String.toList_injective).mp hcut
    · intro h
      have houtline := congrArg Tree.outline h
      rw [Tree.outline_unplaced, Tree.outline_unplaced, Function.outline_toTree,
        Function.outline_toTree] at houtline
      exact Except.ok.inj houtline

theorem Printer.answer_eq_of_parentheses :
    ∃ f g, Function.parse 1000 "a.c" "int f(){return -1-2;}" = .ok f ∧
      Function.parse 1000 "b.c" "int f()\n{return ((-1)-(2));}" = .ok g ∧
      ∃ text, (({} : Printer).answer f.toTree).1 = .ok text ∧
        (({} : Printer).answer g.toTree).1 = .ok text := by
  have hf : Function.parse 1000 "a.c" "int f(){return -1-2;}" = .ok ⟨⟨"a.c", 1, 1⟩, "f",
      ⟨⟨"a.c", 1, 9⟩, .binary ⟨"a.c", 1, 18⟩ .subtract
        (.unary ⟨"a.c", 1, 16⟩ .negate (.literal ⟨"a.c", 1, 17⟩ "1"))
        (.literal ⟨"a.c", 1, 19⟩ "2")⟩⟩ := by
    decide +kernel
  have hg : Function.parse 1000 "b.c" "int f()\n{return ((-1)-(2));}" = .ok ⟨⟨"b.c", 1, 1⟩, "f",
      ⟨⟨"b.c", 2, 2⟩, .binary ⟨"b.c", 2, 14⟩ .subtract
        (.unary ⟨"b.c", 2, 11⟩ .negate (.literal ⟨"b.c", 2, 12⟩ "1"))
        (.literal ⟨"b.c", 2, 16⟩ "2")⟩⟩ := by
    decide +kernel
  obtain ⟨a, b, ha, hb, hab⟩ := answer_eq_iff_same hf hg {} {}
  obtain rfl := hab.mpr (by decide)
  exact ⟨_, _, hf, hg, a, ha, hb⟩

end TinyC

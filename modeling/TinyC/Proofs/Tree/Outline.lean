import Mathlib.Tactic.Common
import TinyC.Proofs.Tree.Preorder
import TinyC.Tree.Printer

namespace TinyC

namespace Tree

variable (depth : Nat) (l : Option Location) (op : Operator) (name : String) (x y : Tree)

lemma outlineAt_unary : (unary l (some op) x).outlineAt depth =
    (indented depth ("Unary " ++ op.symbol) :: ·) <$> x.outlineAt (depth + 1) := by
  rw [outlineAt, symbolOf]
  exact bind_pure_comp (m := Except TreeFault) _ _

lemma outlineAt_binary : (binary l (some op) x y).outlineAt depth =
    (indented depth ("Binary " ++ op.symbol) :: ·) <$>
      (do return (← x.outlineAt (depth + 1)) ++ (← y.outlineAt (depth + 1))) := by
  rw [outlineAt, symbolOf]
  simp only [map_bind, map_pure]
  rfl

lemma outlineAt_ret : (ret l x).outlineAt depth =
    (indented depth "Return" :: ·) <$> x.outlineAt (depth + 1) :=
  bind_pure_comp _ _

lemma outlineAt_function : (function l name x).outlineAt depth =
    (indented depth ("Function: " ++ name) :: ·) <$> x.outlineAt (depth + 1) :=
  bind_pure_comp _ _

lemma outline_of_isNode {t : Tree} (ht : t.isNode = true) :
    t.outline = "\n".intercalate <$> t.outlineAt 0 := by
  cases t with
  | foreign v => cases ht
  | _ => rfl

end Tree

namespace Printer

def Writes {α : Type} (x : Visiting Printer α) (depth : Nat) :
    Except TreeFault (List String) → Prop
  | .ok ls => ∀ output, ∃ a, x ⟨output, depth⟩ = .ok a ⟨output ++ ls, depth⟩
  | .error f => ∀ output, ∃ q, x ⟨output, depth⟩ = .error f q

namespace Writes

variable {α β : Type} {x : Visiting Printer α} {depth : Nat} {r s : Except TreeFault (List String)}

lemma pure (a : α) : Writes (Pure.pure a) depth (.ok []) := by
  intro output
  rw [List.append_nil]
  exact ⟨a, rfl⟩

lemma emit (text : String) : Writes (emit text) depth (.ok [Tree.indented depth text]) :=
  fun _ => ⟨(), rfl⟩

lemma bind {g : α → Visiting Printer β} (hx : Writes x depth r) (hg : ∀ a, Writes (g a) depth s) :
    Writes (x >>= g) depth (do return (← r) ++ (← s)) := by
  cases r with
  | error f =>
    intro output
    obtain ⟨q, hq⟩ := hx output
    refine ⟨q, ?_⟩
    change EStateM.bind x g _ = _
    rw [EStateM.bind, hq]
  | ok us =>
    have hbind : ∀ output, ∃ a, (x >>= g) ⟨output, depth⟩ = g a ⟨output ++ us, depth⟩ := by
      intro output
      obtain ⟨a, ha⟩ := hx output
      refine ⟨a, ?_⟩
      change EStateM.bind x g _ = _
      rw [EStateM.bind, ha]
    cases s with
    | error f =>
      intro output
      obtain ⟨a, ha⟩ := hbind output
      rw [ha]
      exact hg a (output ++ us)
    | ok vs =>
      intro output
      obtain ⟨a, ha⟩ := hbind output
      rw [ha, ← List.append_assoc]
      exact hg a (output ++ us)

lemma map (f : α → β) (hx : Writes x depth r) : Writes (f <$> x) depth r := by
  have h := hx.bind fun a => Writes.pure (f a)
  rw [bind_pure_comp] at h
  cases r with
  | error f => exact h
  | ok us =>
    change Writes _ depth (.ok (us ++ [])) at h
    rwa [List.append_nil] at h

lemma nested {below : Visiting Printer Unit} (text : String) (h : Writes below (depth + 1) r) :
    Writes (nested text below) depth ((Tree.indented depth text :: ·) <$> r) := by
  have hnested : ∀ output, Printer.nested text below ⟨output, depth⟩ =
      EStateM.bind below (fun _ => modify fun p => { p with indentLevel := p.indentLevel - 1 })
        ⟨output ++ [Tree.indented depth text], depth + 1⟩ := fun _ => rfl
  cases r with
  | error f =>
    intro output
    obtain ⟨q, hq⟩ := h (output ++ [Tree.indented depth text])
    rw [hnested, EStateM.bind, hq]
    exact ⟨q, rfl⟩
  | ok ls =>
    intro output
    -- `below` comes back to the level that it started at, so one less is the level before it
    obtain ⟨a, ha⟩ := h (output ++ [Tree.indented depth text])
    rw [hnested, EStateM.bind, ha, List.append_assoc]
    exact ⟨(), rfl⟩

lemma enter {visit : Visiting Printer (Option Unit)} {t : Tree}
    (h : t.isNode = true → Writes visit depth (t.outlineAt depth)) :
    Writes (Visitor.enter t visit) depth (t.outlineAt depth) := by
  rw [Visitor.enter]
  split
  · rename_i ht
    exact (h ht).map _
  · rename_i ht
    cases t with
    | foreign v => exact .pure ()
    | _ => exact absurd rfl ht

end Writes

lemma visit_writes (t : Tree) (ht : t.isNode = true) (depth : Nat) :
    Writes (visitor.visit t) depth (t.outlineAt depth) := by
  induction t generalizing depth with
  | foreign v => cases ht
  | blank l => exact Writes.pure none
  | literal l v => exact (Writes.emit _).map some
  | unary l op x ih =>
    have hx := Writes.enter fun hx => ih hx (depth + 1)
    cases op with
    | none => exact fun output => ⟨_, rfl⟩
    | some op =>
      rw [Tree.outlineAt_unary]
      exact (hx.nested ("Unary " ++ op.symbol)).map some
  | binary l op x y ihx ihy =>
    have hx := Writes.enter fun hx => ihx hx (depth + 1)
    have hy := Writes.enter fun hy => ihy hy (depth + 1)
    cases op with
    | none => exact fun output => ⟨_, rfl⟩
    | some op =>
      rw [Tree.outlineAt_binary]
      exact ((hx.bind fun _ => hy).nested ("Binary " ++ op.symbol)).map some
  | ret l x ih =>
    have hx := Writes.enter fun hx => ih hx (depth + 1)
    rw [Tree.outlineAt_ret]
    exact (hx.nested "Return").map some
  | function l name x ih =>
    have hx := Writes.enter fun hx => ih hx (depth + 1)
    rw [Tree.outlineAt_function]
    exact (hx.nested ("Function: " ++ name)).map some

lemma answer_eq_outline (p : Printer) (t : Tree) : (p.answer t).1 = t.outline := by
  cases ht : t.isNode with
  | false =>
    cases t with
    | foreign v => rfl
    | _ => cases ht
  | true =>
    have hprint : print t p = EStateM.bind (visitor.visit t)
        (fun _ => do return "\n".intercalate (← get).output) ⟨[], 0⟩ := rfl
    have h := visit_writes t ht 0
    rw [answer, hprint, EStateM.bind, Tree.outline_of_isNode ht]
    cases hr : t.outlineAt 0 with
    | error f =>
      rw [hr] at h
      obtain ⟨q, hq⟩ := h []
      rw [hq]
      rfl
    | ok ls =>
      rw [hr] at h
      obtain ⟨a, ha⟩ := h []
      rw [ha]
      rfl

lemma printAll_eq (p : Printer) (ts : List Tree) : p.printAll ts = ts.map Tree.outline := by
  induction ts generalizing p with
  | nil => rfl
  | cons t ts ih => rw [printAll, answer_eq_outline, ih, List.map_cons]

end Printer

namespace Tree

def heading? : Tree → Option String
  | foreign _ => none
  | blank _ => none
  | literal _ v => some ("Int " ++ v)
  | unary _ op _ => op.map fun op => "Unary " ++ op.symbol
  | binary _ op _ _ => op.map fun op => "Binary " ++ op.symbol
  | ret _ _ => some "Return"
  | function _ name _ => some ("Function: " ++ name)

def lacksOperator : Tree → Bool
  | unary _ op _ => op.isNone
  | binary _ op _ _ => op.isNone
  | _ => false

def line? (depth : Nat) (a : List Nat × Tree) : Option String :=
  a.2.heading?.map (indented (depth + a.1.length))

def lines (depth : Nat) (as : List (List Nat × Tree)) : Except TreeFault (List String) :=
  if as.any (·.2.lacksOperator) then .error .noOperator else .ok (as.filterMap (line? depth))

lemma lines_under (depth i : Nat) (as : List (List Nat × Tree)) :
    lines depth (as.map (under i)) = lines (depth + 1) as := by
  have hline : line? depth ∘ under i = line? (depth + 1) := by
    funext a
    simp only [Function.comp, line?, under, List.length_cons]
    congr 2
    omega
  rw [lines, lines, List.any_map, List.filterMap_map, hline]
  rfl

lemma lines_append (depth : Nat) (as bs : List (List Nat × Tree)) :
    lines depth (as ++ bs) = do return (← lines depth as) ++ (← lines depth bs) := by
  simp only [lines, List.any_append, List.filterMap_append]
  cases as.any (·.2.lacksOperator) with
  | true => rfl
  | false =>
    cases bs.any (·.2.lacksOperator) with
    | true => rfl
    | false => rfl

lemma lines_cons (depth : Nat) {t : Tree} {text : String} (as : List (List Nat × Tree))
    (ht : t.heading? = some text) (hop : t.lacksOperator = false) :
    lines depth (([], t) :: as) = (indented depth text :: ·) <$> lines depth as := by
  have hline : line? depth ([], t) = some (indented depth text) := by
    rw [line?, ht]
    rfl
  simp only [lines, List.any_cons, hop, Bool.false_or, List.filterMap_cons, hline]
  cases as.any (·.2.lacksOperator) with
  | true => rfl
  | false => rfl

def nodes (t : Tree) : List (List Nat × Tree) :=
  t.preorder fun _ => true

lemma mem_nodes_iff {t n : Tree} {p : List Nat} : (p, n) ∈ t.nodes ↔ t.node? p = some n := by
  simp [nodes, mem_preorder_iff]

lemma outlineAt_eq_lines (depth : Nat) (t : Tree) : t.outlineAt depth = lines depth t.nodes := by
  induction t generalizing depth with
  | foreign v => rfl
  | blank l => rfl
  | literal l v => rfl
  | unary l op x ih =>
    cases op with
    | none => rfl
    | some op =>
      have hnodes : (unary l (some op) x).nodes = ([], _) :: x.nodes.map (under 0) := rfl
      rw [outlineAt_unary, ih, hnodes, lines_cons _ _ rfl rfl, lines_under]
  | binary l op x y ihx ihy =>
    cases op with
    | none => rfl
    | some op =>
      have hnodes : (binary l (some op) x y).nodes =
          ([], _) :: (x.nodes.map (under 0) ++ y.nodes.map (under 1)) := rfl
      rw [outlineAt_binary, ihx, ihy, hnodes, lines_cons _ _ rfl rfl, lines_append, lines_under,
        lines_under]
  | ret l x ih =>
    have hnodes : (ret l x).nodes = ([], _) :: x.nodes.map (under 0) := rfl
    rw [outlineAt_ret, ih, hnodes, lines_cons _ _ rfl rfl, lines_under]
  | function l name x ih =>
    have hnodes : (function l name x).nodes = ([], _) :: x.nodes.map (under 0) := rfl
    rw [outlineAt_function, ih, hnodes, lines_cons _ _ rfl rfl, lines_under]

def headed : List String :=
  ["Function", "Return", "BinaryOperation", "UnaryOperation", "IntLiteral"]

lemma isSome_heading?_iff {n : Tree} (hop : n.lacksOperator = false) :
    n.heading?.isSome = true ↔ n.typeName ∈ headed := by
  cases n with
  | foreign v => cases v <;> simp [heading?, typeName, Foreign.typeName, headed]
  | unary l op x =>
    cases op with
    | none => cases hop
    | some op => simp [heading?, typeName, headed]
  | binary l op x y =>
    cases op with
    | none => cases hop
    | some op => simp [heading?, typeName, headed]
  | _ => simp [heading?, typeName, headed]

variable {t : Tree}

lemma any_lacksOperator_iff : t.nodes.any (·.2.lacksOperator) = true ↔
    ∃ p n, t.node? p = some n ∧ n.lacksOperator = true := by
  simp [List.any_eq_true, mem_nodes_iff]

lemma outline_eq_error_iff : (∃ f, t.outline = .error f) ↔
    t.isNode = false ∨ ∃ p n, t.node? p = some n ∧ n.lacksOperator = true := by
  cases ht : t.isNode with
  | false =>
    cases t with
    | foreign v => simp [outline]
    | _ => cases ht
  | true =>
    rw [outline_of_isNode ht, outlineAt_eq_lines, lines, ← any_lacksOperator_iff]
    cases t.nodes.any (·.2.lacksOperator) with
    | true => simp
    | false => simp

lemma outline_eq_ok {text : String} (h : t.outline = .ok text) :
    ∃ (as : List (List Nat × Tree)) (ls : List String), text = "\n".intercalate ls ∧
      (as.Pairwise fun a b => List.Lex (· < ·) a.1 b.1) ∧
      (∀ p n, (p, n) ∈ as ↔ t.node? p = some n ∧ n.typeName ∈ headed) ∧
      as.map (fun a => a.2.heading?.map (indented a.1.length)) = ls.map some := by
  have hcomplete : ¬ (t.isNode = false ∨ ∃ p n, t.node? p = some n ∧ n.lacksOperator = true) := by
    rw [← outline_eq_error_iff, h]
    simp
  obtain ⟨ht, hop⟩ := not_or.mp hcomplete
  have hline : ∀ a : List Nat × Tree, a.2.heading?.map (indented a.1.length) = line? 0 a := by
    intro a
    rw [line?, Nat.zero_add]
  rw [outline_of_isNode (eq_true_of_ne_false ht), outlineAt_eq_lines, lines,
    if_neg (any_lacksOperator_iff.not.mpr hop)] at h
  refine ⟨t.nodes.filter fun a => a.2.heading?.isSome, t.nodes.filterMap (line? 0),
    (Except.ok.inj h).symm, (t.preorder_ascending _).filter _, fun p n => ?_, ?_⟩
  · rw [List.mem_filter, mem_nodes_iff]
    refine and_congr_right fun hn => isSome_heading?_iff ?_
    exact eq_false_of_ne_true fun hlacks => hop ⟨p, n, hn, hlacks⟩
  · rw [List.map_filterMap_some_eq_filter_map_isSome, List.filter_map]
    simp only [hline]
    congr 2
    funext a
    rw [Function.comp, line?, Option.isSome_map]

end Tree

/-- A printer answers each tree of a sequence as a new one would, whatever it printed before and
however that failed. It fails exactly for what is no node and for trees in which an operation has no
operator. All other trees give a line for each node that is not blank, in preorder and two blanks
further in for each node around it. -/
theorem Printer.printAll_outlines (printer : Printer) (ts : List Tree) :
    printer.printAll ts = ts.map (fun t => (({} : Printer).answer t).1) ∧
      ∀ t : Tree,
        ((∃ f, (({} : Printer).answer t).1 = .error f) ↔
          t.isNode = false ∨ ∃ p n, t.node? p = some n ∧ n.lacksOperator = true) ∧
        ∀ text, (({} : Printer).answer t).1 = .ok text →
          ∃ (as : List (List Nat × Tree)) (ls : List String), text = "\n".intercalate ls ∧
            (as.Pairwise fun a b => List.Lex (· < ·) a.1 b.1) ∧
            (∀ p n, (p, n) ∈ as ↔ t.node? p = some n ∧ n.typeName ∈ Tree.headed) ∧
            as.map (fun a => a.2.heading?.map (Tree.indented a.1.length)) = ls.map some := by
  refine ⟨?_, fun t => ⟨?_, fun text h => ?_⟩⟩
  · simp only [printAll_eq, answer_eq_outline]
  · rw [answer_eq_outline]
    exact Tree.outline_eq_error_iff
  · rw [answer_eq_outline] at h
    exact Tree.outline_eq_ok h

end TinyC

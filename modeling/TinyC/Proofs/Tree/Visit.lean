import Mathlib.Tactic.Common
import TinyC.Proofs.Tree.Preorder

namespace TinyC

lemma Visitor.visit_of_isNode {σ α : Type} (v : Visitor σ α) {t : Tree} (ht : t.isNode = true) :
    v.visit t = v.dispatch t (t.children.forM fun c => enter c (v.visit c)) := by
  cases t with
  | foreign f => cases ht
  | blank l => rfl
  | literal l d => rfl
  | unary l op x => simp [visit, Tree.children]
  | binary l op x y => simp [visit, Tree.children]
  | ret l x => simp [visit, Tree.children]
  | function l name x => simp [visit, Tree.children]

def Records {α : Type} (x : Visiting (List Tree) α) (a : α) (new : List Tree) : Prop :=
  ∀ seen, x seen = .ok a (seen ++ new)

namespace Records

variable {α β : Type} {a : α} {new more : List Tree}

lemma pure (a : α) : Records (Pure.pure a) a [] := by
  intro seen
  rw [List.append_nil]
  rfl

lemma node (t : Tree) : Records (modify (· ++ [t])) () [t] :=
  fun _ => rfl

lemma bind {x : Visiting (List Tree) Unit} {y : Visiting (List Tree) α} (hx : Records x () new)
    (hy : Records y a more) : Records (x >>= fun _ => y) a (new ++ more) := by
  intro seen
  change EStateM.bind x (fun _ => y) seen = _
  rw [EStateM.bind, hx seen, ← List.append_assoc]
  exact hy (seen ++ new)

lemma bind_pure {x : Visiting (List Tree) Unit} (hx : Records x () new) (a : α) :
    Records (x >>= fun _ => Pure.pure a) a new := by
  have h := hx.bind (pure a)
  rwa [List.append_nil] at h

lemma map {x : Visiting (List Tree) α} (f : α → β) (hx : Records x a new) :
    Records (f <$> x) (f a) new := by
  intro seen
  change EStateM.map f x seen = _
  rw [EStateM.map, hx seen]

end Records

namespace Visit

def enters (v : Visit) (t : Tree) : Bool :=
  !v.handles t || v.descended.contains t.typeName

def recorded (v : Visit) (t : Tree) : List Tree :=
  ((t.preorder v.enters).map Prod.snd).filter v.handles

variable (v : Visit) {t : Tree}

lemma recorded_of_not_isNode (ht : t.isNode = false) : v.recorded t = [] := by
  rw [recorded, Tree.preorder_of_not_isNode ht]
  rfl

lemma recorded_of_isNode (ht : t.isNode = true) :
    v.recorded t = (if v.handles t then [t] else []) ++
      if v.enters t then t.children.flatMap v.recorded else [] := by
  have hbelow : (if v.enters t then t.children.flatMap fun c => (c.preorder v.enters).map Prod.snd
      else []).filter v.handles = if v.enters t then t.children.flatMap v.recorded else [] := by
    split
    · exact List.filter_flatMap
    · rfl
  rw [recorded, Tree.map_snd_preorder ht, List.filter_cons, hbelow]
  split
  · rfl
  · rfl

lemma children_records {cs : List Tree}
    (h : ∀ c ∈ cs, c.isNode = true → ∃ a, Records (v.visitor.visit c) a (v.recorded c)) :
    Records (cs.forM fun c => Visitor.enter c (v.visitor.visit c)) () (cs.flatMap v.recorded) := by
  induction cs with
  | nil => exact .pure ()
  | cons c cs ih =>
    have hc : Records (Visitor.enter c (v.visitor.visit c)) () (v.recorded c) := by
      rw [Visitor.enter]
      split
      · rename_i hnode
        obtain ⟨a, ha⟩ := h c List.mem_cons_self hnode
        exact ha.map _
      · rename_i hnode
        rw [v.recorded_of_not_isNode (Bool.eq_false_iff.mpr hnode)]
        exact .pure ()
    rw [List.forM_eq_forM, List.forM_cons, List.flatMap_cons]
    exact hc.bind (ih fun d hd => h d (List.mem_cons_of_mem c hd))

lemma handle_records {below : Visiting (List Tree) Unit} {new : List Tree} (t : Tree)
    (h : Records below () new) :
    Records (v.handle t below) t.typeName
      (t :: if v.descended.contains t.typeName then new else []) := by
  rw [handle]
  split
  · exact (Records.node t).bind (h.bind_pure t.typeName)
  · exact (Records.node t).bind_pure t.typeName

lemma dispatch_records {below : Visiting (List Tree) Unit} {new : List Tree} (t : Tree)
    (h : Records below () new) :
    Records (v.visitor.dispatch t below) (if v.handles t then some t.typeName else none)
      ((if v.handles t then [t] else []) ++ if v.enters t then new else []) := by
  rw [enters]
  cases hh : v.handles t with
  | false =>
    have hd : v.visitor.dispatch t below = below >>= fun _ => Pure.pure none := by
      simp [Visitor.dispatch, visitor, hh]
    rw [hd]
    exact h.bind_pure none
  | true =>
    have hd : v.visitor.dispatch t below = some <$> v.handle t below := by
      simp [Visitor.dispatch, visitor, hh]
    rw [hd]
    exact (v.handle_records t h).map some

lemma visit_records (t : Tree) (ht : t.isNode = true) :
    Records (v.visitor.visit t) (if v.handles t then some t.typeName else none) (v.recorded t) := by
  induction t using Tree.childInduction with
  | h t ih =>
    have hbelow := v.children_records fun c hc hnode => ⟨_, ih c hc hnode⟩
    rw [Visitor.visit_of_isNode _ ht, v.recorded_of_isNode ht]
    exact v.dispatch_records t hbelow

/-- A visit records the nodes of the handled sorts all of whose proper ancestors are of other sorts
or of those whose handlers go on. It records each once, a node before all that is below it and what
is below one child before the next child, and never looks at what is no node. -/
theorem run_records (v : Visit) {t : Tree} (ht : t.isNode = true) :
    ∃ seen : List (List Nat × Tree),
      v.run t = (.ok (if v.handles t then some t.typeName else none), seen.map Prod.snd) ∧
      (seen.Pairwise fun a b => List.Lex (· < ·) a.1 b.1) ∧
      (∀ a ∈ seen, a.2.isNode = true) ∧
      ∀ p n, (p, n) ∈ seen ↔ t.node? p = some n ∧ n.typeName ∈ v.handled ∧
        ∀ q m, q <+: p → q ≠ p → t.node? q = some m →
          m.typeName ∉ v.handled ∨ m.typeName ∈ v.descended := by
  have hmem : ∀ p n, (p, n) ∈ (t.preorder v.enters).filter (fun a => v.handles a.2) ↔
      t.node? p = some n ∧ n.typeName ∈ v.handled ∧
        ∀ q m, q <+: p → q ≠ p → t.node? q = some m →
          m.typeName ∉ v.handled ∨ m.typeName ∈ v.descended := by
    intro p n
    rw [List.mem_filter, Tree.mem_preorder_iff]
    simp [handles, enters, and_right_comm, and_assoc]
  refine ⟨(t.preorder v.enters).filter fun a => v.handles a.2, ?_,
    (t.preorder_ascending v.enters).filter _, ?_, hmem⟩
  · have hrun := v.visit_records t ht []
    rw [run, hrun, recorded, List.filter_map]
    rfl
  · rintro ⟨p, n⟩ ha
    exact Tree.isNode_of_node? ((hmem p n).mp ha).1

theorem run_records_sum :
    let sign := Tree.unary none none (.literal none "1")
    let sum := Tree.binary none none sign (.foreign (.text "2"))
    let v : Visit :=
      ⟨["BinaryOperation", "UnaryOperation", "IntLiteral", "str"], ["BinaryOperation"]⟩
    (Tree.ret none sum).isNode = true ∧
      ∃ seen : List (List Nat × Tree), v.run (.ret none sum) = (.ok none, seen.map Prod.snd) ∧
        ([0], sum) ∈ seen ∧ ∀ n, ([0, 0, 0], n) ∉ seen ∧ ([0, 1], n) ∉ seen := by
  intro sign sum v
  obtain ⟨seen, hrun, -, -, hmem⟩ := run_records v (t := .ret none sum) rfl
  refine ⟨rfl, seen, hrun, (hmem _ _).mpr ⟨rfl, by decide, ?_⟩, fun n => ⟨fun h => ?_, fun h => ?_⟩⟩
  · intro q m hq hne hm
    rcases List.prefix_cons_iff.mp hq with rfl | ⟨q, rfl, hq'⟩
    · cases hm
      exact .inl (by decide)
    · exact absurd (congrArg (0 :: ·) (List.prefix_nil.mp hq')) hne
  · obtain ⟨-, -, habove⟩ := (hmem _ _).mp h
    have hsign := habove [0, 0] sign (by decide) (by decide) rfl
    revert hsign
    decide
  · cases ((hmem _ _).mp h).1

end Visit

end TinyC

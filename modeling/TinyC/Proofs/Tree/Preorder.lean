import Mathlib.Tactic.Common
import TinyC.Tree.Visit

namespace TinyC

namespace Tree

lemma childInduction {P : Tree → Prop} (h : ∀ t, (∀ c ∈ t.children, P c) → P t) (t : Tree) :
    P t := by
  induction t with
  | foreign v => exact h _ (by simp [children])
  | blank l => exact h _ (by simp [children])
  | literal l v => exact h _ (by simp [children])
  | unary l op x ih => exact h _ (by simpa [children] using ih)
  | binary l op x y ihx ihy => exact h _ (by simp [children, ihx, ihy])
  | ret l x ih => exact h _ (by simpa [children] using ih)
  | function l name body ih => exact h _ (by simpa [children] using ih)

/-- The node to which the positions of children lead. A value that is no node is none, and has
none below it. -/
def node? : Tree → List Nat → Option Tree
  | t, [] => if t.isNode then some t else none
  | t, i :: p => t.children[i]?.bind fun c => c.node? p

def under (i : Nat) (a : List Nat × Tree) : List Nat × Tree :=
  (i :: a.1, a.2)

/-- The nodes of a tree with the ways to them, each before the nodes below it, and these only if it
is one of those that are entered. -/
def preorder (enters : Tree → Bool) : Tree → List (List Nat × Tree)
  | foreign _ => []
  | blank l => [([], blank l)]
  | literal l v => [([], literal l v)]
  | unary l op x =>
    ([], unary l op x) :: if enters (unary l op x) then (x.preorder enters).map (under 0) else []
  | binary l op x y =>
    ([], binary l op x y) ::
      if enters (binary l op x y) then
        (x.preorder enters).map (under 0) ++ (y.preorder enters).map (under 1)
      else []
  | ret l x => ([], ret l x) :: if enters (ret l x) then (x.preorder enters).map (under 0) else []
  | function l name body =>
    ([], function l name body) ::
      if enters (function l name body) then (body.preorder enters).map (under 0) else []

variable {enters : Tree → Bool} {t n : Tree} {i : Nat} {p : List Nat}

lemma isNode_of_node? (h : t.node? p = some n) : n.isNode = true := by
  induction p generalizing t with
  | nil =>
    rw [node?] at h
    split at h
    · rename_i ht
      cases h
      exact ht
    · cases h
  | cons i p ih =>
    obtain ⟨c, -, hc⟩ := Option.bind_eq_some_iff.mp h
    exact ih hc

lemma isNode_of_getElem? {c : Tree} (h : t.children[i]? = some c) : t.isNode = true := by
  cases t with
  | foreign v => simp [children] at h
  | _ => rfl

lemma preorder_of_not_isNode (ht : t.isNode = false) : t.preorder enters = [] := by
  cases t with
  | foreign v => rfl
  | _ => cases ht

lemma preorder_of_isNode (ht : t.isNode = true) :
    t.preorder enters = ([], t) ::
      if enters t then
        t.children.zipIdx.flatMap fun c => (c.1.preorder enters).map (under c.2)
      else [] := by
  cases t with
  | foreign v => cases ht
  | blank l => simp [preorder, children]
  | literal l v => simp [preorder, children]
  | unary l op x => simp [preorder, children]
  | binary l op x y => simp [preorder, children]
  | ret l x => simp [preorder, children]
  | function l name body => simp [preorder, children]

lemma map_snd_preorder (ht : t.isNode = true) :
    (t.preorder enters).map Prod.snd = t ::
      if enters t then t.children.flatMap fun c => (c.preorder enters).map Prod.snd else [] := by
  rw [preorder_of_isNode ht, List.map_cons]
  split
  · have hbelow : t.children = t.children.zipIdx.map Prod.fst := (List.zipIdx_map_fst 0 _).symm
    conv_rhs => rw [hbelow, List.flatMap_map]
    rw [List.map_flatMap]
    simp only [List.map_map]
    rfl
  · rfl

lemma mem_preorder_nil : ([], n) ∈ t.preorder enters ↔ t.isNode = true ∧ t = n := by
  cases ht : t.isNode with
  | false => simp [preorder_of_not_isNode ht]
  | true =>
    rw [preorder_of_isNode ht]
    split
    · simp [under, eq_comm]
    · simp [eq_comm]

lemma mem_preorder_cons : (i :: p, n) ∈ t.preorder enters ↔
    enters t = true ∧ ∃ c, t.children[i]? = some c ∧ (p, n) ∈ c.preorder enters := by
  cases ht : t.isNode with
  | false =>
    have hchild : ∀ c, t.children[i]? ≠ some c := by
      intro c hc
      rw [isNode_of_getElem? hc] at ht
      cases ht
    simp [preorder_of_not_isNode ht, hchild]
  | true =>
    rw [preorder_of_isNode ht]
    split
    · rename_i he
      simp [he, under, List.mem_flatMap, List.mk_mem_zipIdx_iff_getElem?]
    · rename_i he
      simp [he]

lemma mem_preorder_iff : (p, n) ∈ t.preorder enters ↔
    t.node? p = some n ∧ ∀ q m, q <+: p → q ≠ p → t.node? q = some m → enters m = true := by
  induction p generalizing t with
  | nil =>
    have habove : ∀ q m, q <+: [] → q ≠ [] → t.node? q = some m → enters m = true :=
      fun q m hq hne => absurd (List.prefix_nil.mp hq) hne
    rw [mem_preorder_nil, node?]
    simpa using fun _ _ => habove
  | cons i p ih =>
    rw [mem_preorder_cons, node?, Option.bind_eq_some_iff]
    constructor
    · rintro ⟨he, c, hc, hp⟩
      obtain ⟨hn, habove⟩ := ih.mp hp
      refine ⟨⟨c, hc, hn⟩, fun q m hq hne hm => ?_⟩
      rcases List.prefix_cons_iff.mp hq with rfl | ⟨q, rfl, hq'⟩
      · rw [node?, if_pos (isNode_of_getElem? hc)] at hm
        cases hm
        exact he
      · rw [node?, hc] at hm
        exact habove q m hq' (fun h => hne (h ▸ rfl)) hm
    · rintro ⟨⟨c, hc, hn⟩, habove⟩
      refine ⟨?_, c, hc, ih.mpr ⟨hn, fun q m hq hne hm => ?_⟩⟩
      · apply habove [] t List.nil_prefix (by simp)
        rw [node?, if_pos (isNode_of_getElem? hc)]
      · apply habove (i :: q) m (List.cons_prefix_cons.mpr ⟨rfl, hq⟩) (by simpa using hne)
        rw [node?, hc]
        exact hm

lemma preorder_ascending (enters : Tree → Bool) (t : Tree) :
    (t.preorder enters).Pairwise fun a b => List.Lex (· < ·) a.1 b.1 := by
  induction t using childInduction with
  | h t ih =>
    cases ht : t.isNode with
    | false =>
      rw [preorder_of_not_isNode ht]
      exact .nil
    | true =>
      rw [preorder_of_isNode ht]
      split
      · -- the node and what is below it, then below one child, then below two different ones
        refine .cons ?_ (List.pairwise_flatMap.mpr ⟨?_, ?_⟩)
        · intro a ha
          obtain ⟨c, -, hc⟩ := List.mem_flatMap.mp ha
          obtain ⟨b, -, rfl⟩ := List.mem_map.mp hc
          exact .nil
        · rintro ⟨c, i⟩ hc
          rw [List.pairwise_map]
          exact (ih c (List.fst_mem_of_mem_zipIdx hc)).imp .cons
        · have hindex : (t.children.zipIdx.map Prod.snd).Pairwise (· < ·) := by
            rw [List.zipIdx_map_snd]
            exact List.pairwise_lt_range'
          refine (List.pairwise_map.mp hindex).imp fun {c d} hlt a ha b hb => ?_
          obtain ⟨a, -, rfl⟩ := List.mem_map.mp ha
          obtain ⟨b, -, rfl⟩ := List.mem_map.mp hb
          exact .rel hlt
      · exact List.pairwise_singleton _ _

end Tree

end TinyC

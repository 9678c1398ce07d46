import Mathlib.Tactic.Common
import TinyC.Proofs.Assembly.Defects

namespace TinyC

inductive Interleaves {α : Type} : List α → List α → List α → Prop
  | nil : Interleaves [] [] []
  | left {x : α} {a b c : List α} : Interleaves a b c → Interleaves (x :: a) b (x :: c)
  | right {x : α} {a b c : List α} : Interleaves a b c → Interleaves a (x :: b) (x :: c)

namespace Interleaves

variable {α β : Type} {a b c a' b' c' : List α}

lemma append (h : Interleaves a b c) (h' : Interleaves a' b' c') :
    Interleaves (a ++ a') (b ++ b') (c ++ c') := by
  induction h with
  | nil => exact h'
  | left _ ih => exact .left ih
  | right _ ih => exact .right ih

lemma map (f : α → β) (h : Interleaves a b c) :
    Interleaves (a.map f) (b.map f) (c.map f) := by
  induction h with
  | nil => exact .nil
  | left _ ih => exact .left ih
  | right _ ih => exact .right ih

lemma self (a : List α) : Interleaves a [] a := by
  induction a with
  | nil => exact .nil
  | cons x a ih => exact .left ih

end Interleaves

namespace Tree

def note? : Tree → Option String
  | binary _ op _ _ => op.map fun o => "binary " ++ o.symbol
  | ret _ _ => some "return value in %eax"
  | function _ name _ => some ("Function: " ++ name)
  | _ => none

def notes (t : Tree) : List String :=
  t.emissionOrder.filterMap note?

variable (l : Option Location) (x y : Tree)

lemma notes_unary (op : Option Operator) : (unary l op x).notes = x.notes := by
  simp [notes, emissionOrder, note?]

lemma notes_binary (op : BinaryOp) : (binary l (some (.binary op)) x y).notes =
    ["binary " ++ op.symbol] ++
      ((if op.leftFirst then x else y).notes ++ (if op.leftFirst then y else x).notes) := by
  simp [notes, emissionOrder_binary, note?, Operator.symbol]

lemma notes_ret : (ret l x).notes = x.notes ++ ["return value in %eax"] := by
  simp [notes, emissionOrder, note?]

lemma notes_function (name : String) :
    (function l name x).notes = ["Function: " ++ name] ++ x.notes := by
  simp [notes, emissionOrder, note?]

end Tree

def Annotates (x y : Emit Unit) (notes : List String) : Prop :=
  ∃ a c, Emit.Appends x a none ∧ Emit.Appends y c none ∧
    Interleaves a (notes.map Line.comment) c

namespace Annotates

variable {x y x' y' : Emit Unit} {m n : List String}

lemma bind (h : Annotates x y m) (h' : Annotates x' y' n) :
    Annotates (x >>= fun _ => x') (y >>= fun _ => y') (m ++ n) := by
  obtain ⟨a, c, hx, hy, hac⟩ := h
  obtain ⟨a', c', hx', hy', hac'⟩ := h'
  refine ⟨a ++ a', c ++ c', hx.bind hx', hy.bind hy', ?_⟩
  rw [List.map_append]
  exact hac.append hac'

lemma write (new : List Line) : Annotates (Emit.write new) (Emit.write new) [] :=
  ⟨new, new, .write new, .write new, .self new⟩

lemma bind_write (h : Annotates x y m) (new : List Line) :
    Annotates (x >>= fun _ => Emit.write new) (y >>= fun _ => Emit.write new) m := by
  simpa using h.bind (write new)

lemma write_bind (h : Annotates x y m) (new : List Line) :
    Annotates (Emit.write new >>= fun _ => x) (Emit.write new >>= fun _ => y) m :=
  (write new).bind h

variable (s : Settings)

lemma note (text : String) :
    Annotates (Emit.note { s with comments := false } text)
      (Emit.note { s with comments := true } text) [text] :=
  ⟨_, _, .note _ text, .note _ text, .right .nil⟩

lemma literal {v : String} (h : ∀ c ∈ v.toList, (Text.digitValue? c).isSome) :
    Annotates (Emit.literal { s with comments := false } v)
      (Emit.literal { s with comments := true } v) [] := by
  rw [Emit.literal, Emit.literal, wordOfDigits_eq_ok h]
  exact write _

lemma spilled (h : Annotates x y m) (h' : Annotates x' y' n) (op : BinaryOp) :
    Annotates
      (do
        Emit.noteBinary { s with comments := false } (some (.binary op))
        x
        Emit.code { s with comments := false } [.spill]
        x'
        Emit.code { s with comments := false } (.reload :: op.code))
      (do
        Emit.noteBinary { s with comments := true } (some (.binary op))
        y
        Emit.code { s with comments := true } [.spill]
        y'
        Emit.code { s with comments := true } (.reload :: op.code))
      (["binary " ++ op.symbol] ++ (m ++ n)) :=
  (note s _).bind (h.bind ((h'.bind_write _).write_bind _))

lemma tree {t : Tree} (h : t.WellFormed) :
    Annotates (Emit.tree { s with comments := false } t)
      (Emit.tree { s with comments := true } t) t.notes := by
  induction t with
  | foreign v => exact h.sound.elim
  | blank l => exact h.sound.elim
  | literal l v => exact literal s h.sound
  | unary l op x ih =>
    obtain ⟨hx, u, rfl⟩ := Tree.wellFormed_unary.mp h
    rw [Tree.notes_unary]
    exact (ih hx).bind_write _
  | binary l op x y ihx ihy =>
    obtain ⟨⟨b, rfl⟩, hx, hy⟩ := Tree.wellFormed_binary.mp h
    rw [Tree.notes_binary, Emit.tree_binary, Emit.tree_binary]
    cases b.leftFirst with
    | true => exact spilled s (ihx hx) (ihy hy) b
    | false => exact spilled s (ihy hy) (ihx hx) b
  | ret l x ih =>
    rw [Tree.notes_ret]
    exact (ih (Tree.wellFormed_ret.mp h)).bind ((note s _).bind_write _)
  | function l name body ih =>
    rw [Tree.notes_function]
    exact (note s _).bind ((ih (Tree.wellFormed_function.mp h)).write_bind _)

end Annotates

lemma Tree.length_notes {t : Tree} (h : t.WellFormed) :
    t.notes.length = t.emissionOrder.countP fun x =>
      x.typeName ∈ ["Function", "Return", "BinaryOperation"] := by
  rw [notes, List.length_filterMap_eq_countP]
  apply List.countP_congr
  intro x hx
  have hsound := h x hx
  cases x with
  | foreign v => exact hsound.elim
  | binary l op x y =>
    obtain ⟨b, rfl⟩ := hsound
    simp [note?, typeName]
  | _ => simp [note?, typeName]

/-- Whether a tree has code does not hang on the comments. If it has, the lines with comments are those
without them, in their order, and in between one comment for each function, return and binary
operation. -/
theorem comments_interleave (s : Settings) (t : Tree) (ls : Listing) :
    let plain := Emit.tree { s with comments := false } t
    let annotated := Emit.tree { s with comments := true } t
    ((∃ out, annotated ls = .ok () out) ↔ ∃ out, plain ls = .ok () out) ∧
      ∀ out, annotated ls = .ok () out → ∃ a c : List Line, plain ls = .ok () (ls ++ a.toArray) ∧
        out = ls ++ c.toArray ∧
        Interleaves (a.map Line.text) (t.notes.map fun note => "        # " ++ note)
          (c.map Line.text) ∧
        t.notes.length = t.emissionOrder.countP fun x =>
          x.typeName ∈ ["Function", "Return", "BinaryOperation"] := by
  intro plain annotated
  refine ⟨Emit.tree_ok_iff.trans Emit.tree_ok_iff.symm, fun out hout => ?_⟩
  have ht : t.WellFormed := Emit.tree_ok_iff.mp ⟨out, hout⟩
  obtain ⟨a, c, hplain, hannotated, hac⟩ := Annotates.tree s ht
  have hlines := hac.map Line.text
  rw [List.map_map] at hlines
  refine ⟨a, c, hplain ls, ?_, hlines, Tree.length_notes ht⟩
  have heq := hout.symm.trans (hannotated ls)
  injection heq

end TinyC

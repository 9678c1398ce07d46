import Mathlib.Tactic.Common
import TinyC.Proofs.Text.Double
import TinyC.Tree

namespace TinyC

namespace Foreign

variable {v w : Foreign}

lemma same_iff :
    v.same w = true ↔ v = w ∨ ∃ x, v.number? = some x ∧ w.number? = some x := by
  rw [same]
  split
  · rename_i x y hx hy
    rw [decide_eq_true_iff, hx, hy]
    constructor
    · rintro rfl
      exact .inr ⟨x, rfl, rfl⟩
    · rintro (rfl | ⟨z, hxz, hyz⟩)
      · exact Option.some.inj (hx.symm.trans hy)
      · exact (Option.some.inj hxz).trans (Option.some.inj hyz).symm
  · rename_i hnone
    rw [decide_eq_true_iff]
    constructor
    · exact .inl
    · rintro (h | ⟨x, hx, hy⟩)
      · exact h
      · exact absurd hy (hnone x x hx)

def isNegativeZero : Foreign → Bool
  | float d => d.isNegativeZero
  | _ => false

lemma eq_of_number? {x : Int} (hv : v.number? = some x) (hw : w.number? = some x)
    (htype : v.typeName = w.typeName) (hzero : v.isNegativeZero = w.isNegativeZero) : v = w := by
  have hunit : ((1 <<< Double.places : Nat) : Int) ≠ 0 := by
    rw [Nat.one_shiftLeft]
    exact Int.natCast_ne_zero.mpr (Nat.two_pow_pos _).ne'
  have hvw := hv.trans hw.symm
  cases v with
  | integer n =>
    cases w with
    | integer m => rw [Int.eq_of_mul_eq_mul_right hunit (Option.some.inj hvw)]
    | _ => simp [typeName] at htype
  | float d =>
    cases w with
    | float e => rw [Double.eq_of_value? hv hw hzero]
    | _ => simp [typeName] at htype
  | truth b =>
    cases w with
    | truth c =>
      cases b <;> cases c
      · rfl
      · exact absurd (Option.some.inj hvw).symm hunit
      · exact absurd (Option.some.inj hvw) hunit
      · rfl
    | _ => simp [typeName] at htype
  | _ => cases hv

lemma eq_iff_same : v = w ↔
    v.same w = true ∧ v.typeName = w.typeName ∧ v.isNegativeZero = w.isNegativeZero := by
  constructor
  · rintro rfl
    exact ⟨same_iff.mpr (.inl rfl), rfl, rfl⟩
  · rintro ⟨hsame, htype, hzero⟩
    rcases same_iff.mp hsame with h | ⟨x, hv, hw⟩
    · exact h
    · exact eq_of_number? hv hw htype hzero

end Foreign

namespace Tree

variable {a b : Tree}

def foreigns : Tree → List Foreign
  | foreign v => [v]
  | blank _ => []
  | literal _ _ => []
  | unary _ _ x => x.foreigns
  | binary _ _ x y => x.foreigns ++ y.foreigns
  | ret _ x => x.foreigns
  | function _ _ body => body.foreigns

def foreignTypes (a : Tree) : List String :=
  a.foreigns.map Foreign.typeName

def negativeZeros (a : Tree) : List Bool :=
  a.foreigns.map Foreign.isNegativeZero

lemma length_foreigns (h : a.same b = true) : a.foreigns.length = b.foreigns.length := by
  fun_induction same a b with
  | case1 v w => rfl
  | case2 => rfl
  | case3 => rfl
  | case4 l op x l' op' x' ih => exact ih (Bool.and_eq_true_iff.mp h).2
  | case5 l op x y l' op' x' y' ihx ihy =>
    simp only [Bool.and_eq_true] at h
    simp only [foreigns, List.length_append, ihx h.1.2, ihy h.2]
  | case6 l x l' x' ih => exact ih h
  | case7 l name x l' name' x' ih => exact ih (Bool.and_eq_true_iff.mp h).2
  | case8 => cases h

lemma unplaced_eq_iff : a.unplaced = b.unplaced ↔
    a.same b = true ∧ a.foreignTypes = b.foreignTypes ∧ a.negativeZeros = b.negativeZeros := by
  simp only [foreignTypes, negativeZeros]
  induction a generalizing b with
  | foreign v =>
    cases b with
    | foreign w => simp [unplaced, same, foreigns, Foreign.eq_iff_same]
    | _ => simp [unplaced, same]
  | blank l =>
    cases b with
    | blank l' => simp [unplaced, same, foreigns]
    | _ => simp [unplaced, same]
  | literal l v =>
    cases b with
    | literal l' w => simp [unplaced, same, foreigns]
    | _ => simp [unplaced, same]
  | unary l op x ih =>
    cases b with
    | unary l' op' x' => simp [unplaced, same, foreigns, ih, and_assoc]
    | _ => simp [unplaced, same]
  | binary l op x y ihx ihy =>
    cases b with
    | binary l' op' x' y' =>
      simp only [unplaced, same, foreigns, binary.injEq, true_and, Bool.and_eq_true,
        decide_eq_true_eq, ihx, ihy, List.map_append]
      constructor
      · rintro ⟨hop, ⟨hx, htx, hzx⟩, hy, hty, hzy⟩
        exact ⟨⟨⟨hop, hx⟩, hy⟩, by rw [htx, hty], by rw [hzx, hzy]⟩
      · rintro ⟨⟨⟨hop, hx⟩, hy⟩, htypes, hzeros⟩
        have hlength := length_foreigns hx
        obtain ⟨htx, hty⟩ := List.append_inj htypes (by simpa using hlength)
        obtain ⟨hzx, hzy⟩ := List.append_inj hzeros (by simpa using hlength)
        exact ⟨hop, ⟨hx, htx, hzx⟩, hy, hty, hzy⟩
    | _ => simp [unplaced, same]
  | ret l x ih =>
    cases b with
    | ret l' x' => simp [unplaced, same, foreigns, ih]
    | _ => simp [unplaced, same]
  | function l name body ih =>
    cases b with
    | function l' name' body' => simp [unplaced, same, foreigns, ih, and_assoc]
    | _ => simp [unplaced, same]

lemma same_unplaced (a b : Tree) : a.unplaced.same b.unplaced = a.same b := by
  induction a generalizing b with
  | foreign v => cases b <;> rfl
  | blank l => cases b <;> rfl
  | literal l v => cases b <;> rfl
  | unary l op x ih =>
    cases b with
    | unary l' op' x' => simp only [unplaced, same, ih]
    | _ => rfl
  | binary l op x y ihx ihy =>
    cases b with
    | binary l' op' x' y' => simp only [unplaced, same, ihx, ihy]
    | _ => rfl
  | ret l x ih =>
    cases b with
    | ret l' x' => exact ih x'
    | _ => rfl
  | function l name x ih =>
    cases b with
    | function l' name' x' => simp only [unplaced, same, ih]
    | _ => rfl

lemma same_of_unplaced_eq (h : a.unplaced = b.unplaced) : a.same b = true :=
  (unplaced_eq_iff.mp h).1

lemma same_iff (ha : a.foreigns = []) (hb : b.foreigns = []) :
    a.same b = true ↔ a.unplaced = b.unplaced := by
  rw [unplaced_eq_iff, foreignTypes, foreignTypes, negativeZeros, negativeZeros, ha, hb,
    and_iff_left ⟨rfl, rfl⟩]

end Tree

lemma Expr.foreigns_toTree (e : Expr) : e.toTree.foreigns = [] := by
  induction e with
  | literal l digits => rfl
  | unary l op x ih => exact ih
  | binary l op x y ihx ihy => rw [toTree, Tree.foreigns, ihx, ihy, List.append_nil]

lemma Function.foreigns_toTree (f : Function) : f.toTree.foreigns = [] :=
  f.body.value.foreigns_toTree

end TinyC

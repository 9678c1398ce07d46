import Mathlib.Tactic.Common
import TinyC.Text.Escape
import TinyC.Text.Printable

namespace TinyC.Text

lemma notMem_append {c : Char} {s t : String} :
    c ∉ (s ++ t).toList ↔ c ∉ s.toList ∧ c ∉ t.toList := by
  rw [String.toList_append, List.mem_append, not_or]

lemma isDigit_of_mem_repr {n : Nat} {c : Char} (h : c ∈ n.repr.toList) : c.isDigit = true := by
  rw [Nat.repr_eq_ofList_toDigits, String.toList_ofList] at h
  exact Nat.isDigit_of_mem_toDigits (by decide) (by decide) h

lemma isDigit_or_of_mem_repr {n : Int} {c : Char} (h : c ∈ n.repr.toList) :
    c.isDigit = true ∨ c = '-' := by
  cases n with
  | ofNat n => exact .inl (isDigit_of_mem_repr h)
  | negSucc n =>
    change c ∈ ("-" ++ n.succ.repr).toList at h
    rw [String.toList_append, List.mem_append] at h
    rcases h with h | h
    · exact .inr (List.mem_singleton.mp h)
    · exact .inl (isDigit_of_mem_repr h)

lemma withoutControls_of_notMem {s : List Char} (h : '\x1b' ∉ s) : withoutControls s = s := by
  induction s with
  | nil => rw [withoutControls]
  | cons c s ih =>
    have hc : c ≠ '\x1b' := fun hc => h (hc ▸ List.mem_cons_self)
    have hnone : afterControl? (c :: s) = none := by
      unfold afterControl?
      split
      · rename_i heq
        exact absurd (List.cons.inj heq).1 hc
      · rfl
    rw [withoutControls]
    split
    · rename_i t ht
      cases hnone.symm.trans ht
    · rw [ih fun hs => h (List.mem_cons_of_mem c hs)]

def Uncontrolled (s : String) : Prop :=
  '\x1b' ∉ s.toList

lemma isPrintable_of_ascii {c : Char} (h : 0x20 ≤ c.toNat) (h' : c.toNat < 0x7F) :
    isPrintable c = true := by
  rw [isPrintable, if_pos h', decide_eq_true h]

lemma isPrintable_of_isDigit {c : Char} (h : c.isDigit = true) : isPrintable c = true := by
  have hbounds : 48 ≤ c.toNat ∧ c.toNat ≤ 57 := Char.isDigit_iff_toNat.mp h
  exact isPrintable_of_ascii (by omega) (by omega)

lemma isPrintable_of_isAlpha {c : Char} (h : c.isAlpha = true) : isPrintable c = true := by
  have hbounds : 65 ≤ c.toNat ∧ c.toNat ≤ 90 ∨ 97 ≤ c.toNat ∧ c.toNat ≤ 122 := by
    rcases Bool.or_eq_true_iff.mp h with h | h
    · exact .inl (of_decide_eq_true h)
    · obtain ⟨hlow, hhigh⟩ := Bool.and_eq_true_iff.mp h
      exact .inr ⟨of_decide_eq_true hlow, of_decide_eq_true hhigh⟩
  exact isPrintable_of_ascii (by omega) (by omega)

/-- All characters are printable, so that no line ends in the text and no control sequence starts. -/
def Graphic (s : String) : Prop :=
  ∀ c ∈ s.toList, isPrintable c = true

instance : DecidablePred Graphic :=
  fun s => decidable_of_iff (s.toList.all isPrintable = true) List.all_eq_true

namespace Graphic

variable {s t : String}

lemma notMem {c : Char} (h : Graphic s) (hc : isPrintable c = false) : c ∉ s.toList := by
  intro hs
  cases hc.symm.trans (h c hs)

lemma notMem_newline (h : Graphic s) : '\n' ∉ s.toList :=
  h.notMem rfl

lemma uncontrolled (h : Graphic s) : Uncontrolled s :=
  h.notMem rfl

lemma append (hs : Graphic s) (ht : Graphic t) : Graphic (s ++ t) := by
  rw [Graphic, String.toList_append]
  exact List.forall_mem_append.mpr ⟨hs, ht⟩

lemma of_digits (h : ∀ c ∈ s.toList, c.isDigit) : Graphic s :=
  fun c hc => isPrintable_of_isDigit (h c hc)

lemma int (n : Int) : Graphic n.repr := by
  intro c hc
  rcases isDigit_or_of_mem_repr hc with h | rfl
  · exact isPrintable_of_isDigit h
  · rfl

end Graphic

end TinyC.Text

import Mathlib.Data.Nat.Digits.Defs
import Mathlib.Data.Nat.ModEq
import Mathlib.Tactic.Common
import TinyC.Proofs.Assembly.Defects
import TinyC.Proofs.Text.Written

namespace TinyC

namespace Text

def number (s : List Char) : Nat :=
  Nat.ofDigits 10 (s.filterMap digitValue?).reverse

lemma foldl_digits (ds : List Nat) :
    ds.foldl (fun k d => 10 * k + d) 0 = Nat.ofDigits 10 ds.reverse := by
  rw [Nat.ofDigits_eq_foldr, List.foldr_reverse]
  simp only [Nat.cast_id, Nat.add_comm]

lemma exists_first_noDigit {s : List Char} (h : ∃ c ∈ s, digitValue? c = none) :
    ∃ before c after, s = before ++ c :: after ∧ (∀ d ∈ before, (digitValue? d).isSome) ∧
      digitValue? c = none := by
  obtain ⟨c, hc⟩ : ∃ c, s.find? (fun c => (digitValue? c).isNone) = some c :=
    Option.isSome_iff_exists.mp (by simpa using h)
  obtain ⟨hnone, before, after, hs, hbefore⟩ := List.find?_eq_some_iff_append.mp hc
  exact ⟨before, c, after, hs, by simpa using hbefore, by simpa using hnone⟩

end Text

namespace Emit

open Text

variable {s : Settings} {l : Option Location} {v : String}

lemma tree_literal (h : ∀ c ∈ v.toList, (digitValue? c).isSome) (ls : Listing) :
    tree s (.literal l v) ls =
      .ok () (ls.push (.instruction "movl" ["$" ++ (number v.toList % 2 ^ 32).repr, "%eax"])) := by
  rw [tree, literal, wordOfDigits_eq_ok h, foldl_digits, ← UInt32.toNat_ofNat']
  rfl

lemma tree_literal_error {before after : List Char} {c : Char}
    (hv : v.toList = before ++ c :: after) (h : ∀ d ∈ before, (digitValue? d).isSome)
    (hc : digitValue? c = none) (ls : Listing) :
    tree s (.literal l v) ls = .error (.noDigit c) ls := by
  rw [tree, literal, hv, wordOfDigits_error h hc]
  rfl

/-- A literal of digits is loaded as their number modulo the size of a word, in decimal text. Two
such literals are loaded by the same line exactly if their numbers are congruent. Of any other
literal the first character that is no digit is reported, and nothing is written. -/
theorem literal_emission (s : Settings) (l : Option Location) (v : String) (ls : Listing) :
    ((∀ c ∈ v.toList, (digitValue? c).isSome) →
      ∃ k, k = number v.toList % 2 ^ 32 ∧ k < 2 ^ 32 ∧ Nat.ofDigitChars 10 k.repr.toList 0 = k ∧
        tree s (.literal l v) ls =
          .ok () (ls.push (.instruction "movl" ["$" ++ k.repr, "%eax"]))) ∧
    (∀ (s' : Settings) (l' : Option Location) (v' : String),
      (∀ c ∈ v.toList, (digitValue? c).isSome) → (∀ c ∈ v'.toList, (digitValue? c).isSome) →
      (number v.toList ≡ number v'.toList [MOD 2 ^ 32] ↔
        tree s (.literal l v) ls = tree s' (.literal l' v') ls)) ∧
    ((∃ c ∈ v.toList, digitValue? c = none) →
      ∃ before c after, v.toList = before ++ c :: after ∧
        (∀ d ∈ before, (digitValue? d).isSome) ∧ digitValue? c = none ∧
        tree s (.literal l v) ls = .error (.noDigit c) ls) := by
  refine ⟨fun h => ?_, fun s' l' v' h h' => ?_, fun h => ?_⟩
  · exact ⟨_, rfl, Nat.mod_lt _ (by decide), ofDigitChars_repr _, tree_literal h ls⟩
  · rw [tree_literal h, tree_literal h', Nat.ModEq]
    constructor
    · intro hmod
      rw [hmod]
    · intro htree
      injection htree with _ hls
      have hrepr : (number v.toList % 2 ^ 32).repr = (number v'.toList % 2 ^ 32).repr := by
        simpa using Array.push_inj_right.mp hls
      exact natRepr_injective hrepr
  · obtain ⟨before, c, after, hv, hbefore, hc⟩ := exists_first_noDigit h
    exact ⟨before, c, after, hv, hbefore, hc, tree_literal_error hv hbefore hc ls⟩

theorem literal_emission_arabic :
    tree {} (.literal none "٤٢٩٤٩٦٧٣٠٣") #[] =
      .ok () #[.instruction "movl" ["$" ++ Nat.repr 7, "%eax"]] ∧
    tree {} (.literal none "٤٢٩٤٩٦٧٣٠٣") #[] = tree {} (.literal none "07") #[] ∧
    ∃ before c after, "1x2y".toList = before ++ c :: after ∧
      (∀ d ∈ before, (digitValue? d).isSome) ∧ digitValue? c = none ∧
      tree {} (.literal none "1x2y") #[] = .error (.noDigit c) #[] := by
  have harabic : ∀ c ∈ "٤٢٩٤٩٦٧٣٠٣".toList, (digitValue? c).isSome :=
    List.all_eq_true.mp (by decide)
  have hlatin : ∀ c ∈ "07".toList, (digitValue? c).isSome :=
    List.all_eq_true.mp (by decide)
  have hnumber : number "٤٢٩٤٩٦٧٣٠٣".toList = 2 ^ 32 + 7 := by decide +kernel
  refine ⟨?_, ?_, ?_⟩
  · obtain ⟨k, rfl, -, -, hk⟩ := (literal_emission {} none "٤٢٩٤٩٦٧٣٠٣" #[]).1 harabic
    rw [hk, hnumber]
    rfl
  · apply ((literal_emission {} none "٤٢٩٤٩٦٧٣٠٣" #[]).2.1 {} none "07" harabic hlatin).mp
    decide +kernel
  · exact (literal_emission {} none "1x2y" #[]).2.2 ⟨'x', by decide⟩

end Emit

end TinyC

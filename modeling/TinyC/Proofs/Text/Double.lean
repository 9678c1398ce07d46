import Mathlib.Order.Monotone.Basic
import Mathlib.Tactic.Common
import TinyC.Double
import TinyC.Proofs.Text.Written

namespace TinyC

open Text

def Text.isIntegral (c : Char) : Bool :=
  c.isDigit || c = '-'

def Text.isNumeral (c : Char) : Bool :=
  isIntegral c || c ∈ ['+', '.', 'e', 'i', 'n', 'f']

namespace Numeral

variable {m n : Numeral} {digits : List Char} {c : Char}

def scaled (n : Numeral) : Nat :=
  Nat.ofDigitChars 10 (n.whole ++ n.fraction) 0 *
    10 ^ (Double.places + n.exponent.getD 0 - n.fraction.length).toNat

structure Proper (n : Numeral) : Prop where
  whole_ne_nil : n.whole ≠ []
  isDigit_whole : ∀ c ∈ n.whole, c.isDigit = true
  isDigit_fraction : ∀ c ∈ n.fraction, c.isDigit = true
  marked : n.fraction ≠ [] ∨ n.exponent.isSome = true

lemma isDigit_of_mem_zeros {k : Nat} (h : c ∈ List.replicate k '0') : c.isDigit = true := by
  rw [List.eq_of_mem_replicate h]
  rfl

lemma proper_ofDigits (hne : digits ≠ []) (h : ∀ c ∈ digits, c.isDigit = true) (point : Int) :
    (ofDigits digits point).Proper := by
  have hzeros (k : Nat) : ∀ c ∈ List.replicate k '0', c.isDigit = true :=
    fun _ => isDigit_of_mem_zeros
  rw [ofDigits]
  split
  · refine ⟨?_, fun c hc => h c (List.mem_of_mem_take hc),
      fun c hc => h c (List.mem_of_mem_drop hc), .inr rfl⟩
    simpa using hne
  · split
    · refine ⟨List.cons_ne_nil _ _, hzeros 1, List.forall_mem_append.mpr ⟨hzeros _, h⟩, .inl ?_⟩
      exact List.append_ne_nil_of_right_ne_nil _ hne
    · have hpadded := List.forall_mem_append.mpr
        ⟨h, hzeros (point.toNat + 1 - digits.length)⟩
      refine ⟨?_, fun c hc => hpadded c (List.mem_of_mem_take hc),
        fun c hc => hpadded c (List.mem_of_mem_drop hc), .inl ?_⟩
      · simp only [ne_eq, List.take_eq_nil_iff, List.append_eq_nil_iff, hne, false_and, or_false]
        omega
      · apply List.ne_nil_of_length_pos
        rw [List.length_drop, List.length_append, List.length_replicate]
        omega

lemma scaled_ofDigits (hne : digits ≠ []) (i : Nat) :
    (ofDigits digits (digits.length + i - Double.places)).scaled =
      Nat.ofDigitChars 10 digits 0 * 10 ^ i := by
  have hlength := List.length_pos_iff.mpr hne
  have hplaces : 0 < Double.places := by decide
  rw [ofDigits]
  split
  · simp only [scaled, List.take_append_drop, Option.getD_some, List.length_drop]
    congr 2
    omega
  · split
    · simp only [scaled, Option.getD_none, List.length_append, List.length_replicate]
      rw [← List.append_assoc, Nat.ofDigitChars_append, List.singleton_append, ← List.replicate_succ,
        Nat.ofDigitChars_replicate_zero, Nat.mul_zero]
      congr 2
      omega
    · simp only [scaled, List.take_append_drop, Option.getD_none, List.length_drop,
        List.length_append, List.length_replicate]
      rw [Nat.ofDigitChars_append, Nat.ofDigitChars_replicate_zero, Nat.mul_comm (10 ^ _),
        Nat.mul_assoc, ← Nat.pow_add]
      congr 2
      omega

lemma ofDigitChars_exponent (e : Int) :
    Nat.ofDigitChars 10 ((exponentText (some e)).drop 2) 0 = e.natAbs := by
  simp only [exponentText, List.drop_succ_cons, List.drop_zero]
  rw [Nat.ofDigitChars_append, Nat.ofDigitChars_replicate_zero, Nat.mul_zero,
    Nat.ofDigitChars_ten_toDigits]

lemma exponentText_injective {a b : Option Int} (h : exponentText a = exponentText b) : a = b := by
  cases a with
  | none =>
    cases b with
    | none => rfl
    | some e => simp [exponentText] at h
  | some d =>
    cases b with
    | none => simp [exponentText] at h
    | some e =>
      have habs : d.natAbs = e.natAbs := by
        rw [← ofDigitChars_exponent, h, ofDigitChars_exponent]
      have hsign : (if d < 0 then '-' else '+') = if e < 0 then '-' else '+' :=
        (List.cons.inj (List.cons.inj h).2).1
      congr 1
      split at hsign <;> split at hsign
      · omega
      · simp at hsign
      · simp at hsign
      · omega

lemma not_isDigit_exponentText (e : Option Int) :
    ∀ c ∈ (exponentText e).head?, c.isDigit = false := by
  cases e with
  | none => simp [exponentText]
  | some e =>
    rintro c ⟨⟩
    rfl

lemma not_isDigit_rest (n : Numeral) :
    ∀ c ∈ (fractionText n.fraction ++ exponentText n.exponent).head?, c.isDigit = false := by
  cases n.fraction with
  | nil => exact not_isDigit_exponentText _
  | cons d f =>
    rintro c ⟨⟩
    rfl

lemma fractionText_append_inj {f g : List Char} {d e : Option Int}
    (hf : ∀ c ∈ f, c.isDigit = true) (hg : ∀ c ∈ g, c.isDigit = true)
    (h : fractionText f ++ exponentText d = fractionText g ++ exponentText e) : f = g ∧ d = e := by
  cases f with
  | nil =>
    cases g with
    | nil => exact ⟨rfl, exponentText_injective h⟩
    | cons b g => cases d <;> simp [fractionText, exponentText] at h
  | cons a f =>
    cases g with
    | nil => cases e <;> simp [fractionText, exponentText] at h
    | cons b g =>
      obtain ⟨hfg, hde⟩ := run_append_inj hf hg (not_isDigit_exponentText d)
        (not_isDigit_exponentText e) (List.cons.inj h).2
      exact ⟨hfg, exponentText_injective hde⟩

lemma text_injective (hm : m.Proper) (hn : n.Proper) (h : m.text = n.text) : m = n := by
  obtain ⟨hwhole, hrest⟩ := run_append_inj hm.isDigit_whole hn.isDigit_whole m.not_isDigit_rest
    n.not_isDigit_rest h
  obtain ⟨hfraction, hexponent⟩ :=
    fractionText_append_inj hm.isDigit_fraction hn.isDigit_fraction hrest
  cases m
  cases n
  congr

lemma Proper.isDigit_head (h : n.Proper) : ∀ c ∈ n.text.head?, c.isDigit = true := by
  obtain ⟨d, s, hd⟩ := List.exists_cons_of_ne_nil h.whole_ne_nil
  intro c hc
  rw [text, hd, List.cons_append, List.head?_cons, Option.mem_some_iff] at hc
  rw [← hc]
  exact h.isDigit_whole d (by simp [hd])

lemma isNumeral_of_isDigit {s : List Char} (h : ∀ c ∈ s, c.isDigit = true) :
    ∀ c ∈ s, isNumeral c = true := by
  intro c hc
  rw [isNumeral, isIntegral, h c hc, Bool.true_or, Bool.true_or]

lemma isNumeral_exponentText (e : Option Int) : ∀ c ∈ exponentText e, isNumeral c = true := by
  cases e with
  | none => simp [exponentText]
  | some e =>
    rw [exponentText, List.forall_mem_cons, List.forall_mem_cons, List.forall_mem_append]
    refine ⟨rfl, ?_, isNumeral_of_isDigit fun _ => isDigit_of_mem_zeros,
      isNumeral_of_isDigit fun _ => Nat.isDigit_of_mem_toDigits (by decide) (by decide)⟩
    split <;> rfl

lemma Proper.isNumeral_text (h : n.Proper) : ∀ c ∈ n.text, isNumeral c = true := by
  rw [text, List.forall_mem_append, List.forall_mem_append]
  refine ⟨isNumeral_of_isDigit h.isDigit_whole, ?_, isNumeral_exponentText _⟩
  have hfraction := isNumeral_of_isDigit h.isDigit_fraction
  cases hf : n.fraction with
  | nil => simp [fractionText]
  | cons d f =>
    rw [hf] at hfraction
    exact List.forall_mem_cons.mpr ⟨rfl, hfraction⟩

lemma Proper.exists_not_isIntegral (h : n.Proper) : ∃ c ∈ n.text, isIntegral c = false := by
  rcases h.marked with h | h
  · obtain ⟨d, f, hf⟩ := List.exists_cons_of_ne_nil h
    exact ⟨'.', by simp [text, hf, fractionText], rfl⟩
  · obtain ⟨e, he⟩ := Option.isSome_iff_exists.mp h
    exact ⟨'e', by simp [text, he, exponentText], rfl⟩

end Numeral

namespace Double

variable {a b x : Nat} {d e : Double}

lemma magnitude_eq (b : Nat) : magnitude b =
    if b < 2 ^ 52 then b else (2 ^ 52 + b % 2 ^ 52) * 2 ^ (b / 2 ^ 52 - 1) := by
  simp only [magnitude, Nat.shiftLeft_eq, Nat.shiftRight_eq_div_pow, Nat.one_mul]

lemma magnitude_lt_succ (b : Nat) : magnitude b < magnitude (b + 1) := by
  rw [magnitude_eq, magnitude_eq]
  by_cases hb : b < 2 ^ 52
  · rw [if_pos hb]
    split
    · exact Nat.lt_succ_self b
    · obtain rfl : b = 2 ^ 52 - 1 := by omega
      decide
  · rw [if_neg hb, if_neg (by omega)]
    -- the next number has the next fraction, or it is the first one of twice the distance
    by_cases hlast : b % 2 ^ 52 = 2 ^ 52 - 1
    · have hfraction : (b + 1) % 2 ^ 52 = 0 := by omega
      have hexponent : (b + 1) / 2 ^ 52 - 1 = (b / 2 ^ 52 - 1) + 1 := by omega
      have hpos : 0 < 2 ^ (b / 2 ^ 52 - 1) := Nat.two_pow_pos _
      rw [hlast, hfraction, hexponent, Nat.pow_succ (m := b / 2 ^ 52 - 1)]
      omega
    · have hfraction : (b + 1) % 2 ^ 52 = b % 2 ^ 52 + 1 := by omega
      have hexponent : (b + 1) / 2 ^ 52 = b / 2 ^ 52 := by omega
      rw [hfraction, hexponent]
      exact Nat.mul_lt_mul_of_pos_right (by omega) (Nat.two_pow_pos _)

lemma strictMono_magnitude : StrictMono magnitude :=
  strictMono_nat_of_lt_succ magnitude_lt_succ

lemma strictMono_scaled : StrictMono scaled := by
  intro a b h
  have hpos (k : Nat) : 0 < Nat.pow 5 k := Nat.pow_pos (by decide)
  exact Nat.mul_lt_mul_of_pos_right (strictMono_magnitude h) (hpos places)

lemma scaled_zero : scaled 0 = 0 := by
  rw [scaled, magnitude, if_pos (by decide), Nat.zero_mul]

lemma reads_scaled (b : Nat) : Reads b (scaled b) := by
  have hnext := strictMono_scaled (Nat.lt_succ_self b)
  cases b with
  | zero => exact .inr ⟨rfl, .inl (by rw [Nat.two_mul])⟩
  | succ b =>
    have hprevious := strictMono_scaled (Nat.lt_succ_self b)
    rw [Nat.succ_eq_add_one] at hnext hprevious
    refine .inl ⟨?_, ?_⟩
    · rw [Nat.add_sub_cancel]
      omega
    · omega

lemma Reads.bounds (h : Reads b x) :
    scaled (b - 1) + scaled b ≤ 2 * x ∧ 2 * x ≤ scaled b + scaled (b + 1) := by
  have hwidth : scaled (b - 1) ≤ scaled (b + 1) := strictMono_scaled.monotone (by omega)
  simp only [Reads] at h
  omega

lemma not_reads_of_lt (h : a < b) (ha : Reads a x) : ¬ Reads b x := by
  intro hb
  have hlow : scaled a ≤ scaled (b - 1) := strictMono_scaled.monotone (by omega)
  have hhigh : scaled (a + 1) ≤ scaled b := strictMono_scaled.monotone h
  -- they meet halfway between neighbours, of which one is odd
  have hmeet : scaled a = scaled (b - 1) ∧ a % 2 = 0 ∧ b % 2 = 0 := by
    have habove := ha.bounds
    have hbelow := hb.bounds
    simp only [Reads] at ha hb
    omega
  have hneighbour := strictMono_scaled.injective hmeet.1
  omega

lemma reads_unique (ha : Reads a x) (hb : Reads b x) : a = b := by
  rcases Nat.lt_trichotomy a b with h | h | h
  · exact absurd hb (not_reads_of_lt h ha)
  · exact h
  · exact absurd ha (not_reads_of_lt h hb)

lemma reads_shortest (b i : Nat) : Reads b ((shortest b i).1 * 10 ^ (shortest b i).2) := by
  fun_induction shortest b i with
  | case1 => simpa using reads_scaled b
  | case2 i p d _ h => exact h.1
  | case3 i p d h _ => exact h
  | case4 i p d _ h => exact h
  | case5 i p d _ _ ih => exact ih

lemma reads_decimal (b : Nat) : Reads b ((decimal b).1 * 10 ^ (decimal b).2) := by
  rw [decimal]
  split
  · rename_i h
    have hreads := reads_scaled 0
    rw [scaled_zero] at hreads
    simpa only [h, Nat.zero_mul] using hreads
  · exact reads_shortest b 1382

lemma Reads.between {y z : Nat} (hx : Reads b x) (hz : Reads b z) (hxy : x ≤ y) (hyz : y ≤ z) :
    Reads b y := by
  have hlow := hx.bounds
  have hhigh := hz.bounds
  simp only [Reads] at hx hz ⊢
  omega

/-- If any multiple of a unit is read as a number, one of the two around the number is. -/
lemma reads_neighbour {p d : Nat} (hp : 0 < p) (h : Reads b (d * p)) :
    Reads b (scaled b / p * p) ∨ Reads b ((scaled b / p + 1) * p) := by
  have hlow : scaled b / p * p ≤ scaled b := Nat.div_mul_le_self _ _
  have hhigh : scaled b ≤ (scaled b / p + 1) * p := by
    rw [Nat.mul_comm]
    exact (Nat.lt_mul_div_succ _ hp).le
  by_cases hd : d ≤ scaled b / p
  · exact .inl (h.between (reads_scaled b) (Nat.mul_le_mul_right p hd) hlow)
  · exact .inr ((reads_scaled b).between h hhigh (Nat.mul_le_mul_right p (by omega)))

lemma le_shortest {d i j : Nat} (hj : j ≤ i) (h : Reads b (d * 10 ^ j)) :
    j ≤ (shortest b i).2 := by
  fun_induction shortest b i with
  | case1 => exact hj
  | case2 => exact hj
  | case3 => exact hj
  | case4 => exact hj
  | case5 i p q hq hq' ih =>
    have hne : j ≠ i + 1 := by
      rintro rfl
      rcases reads_neighbour (Nat.pow_pos (by decide)) h with h | h
      · exact hq h
      · exact hq' h
    exact ih (by omega)

lemma exists_scaled_infinity_lt : ∃ k ≤ 1383, scaled (2047 <<< 52) < Nat.pow 10 k :=
  ⟨1383, le_rfl, by decide +kernel⟩

/-- No decimal with fewer digits is read as the number. -/
theorem le_decimal {d j : Nat} (hb : b < 2047 <<< 52) (hne : b ≠ 0) (h : Reads b (d * 10 ^ j)) :
    j ≤ (decimal b).2 := by
  rw [decimal, if_neg hne]
  apply le_shortest _ h
  by_contra hj
  have hpos : scaled 0 < scaled b := strictMono_scaled (Nat.pos_of_ne_zero hne)
  have hnext : scaled (b + 1) ≤ scaled (2047 <<< 52) := strictMono_scaled.monotone hb
  have hmono : scaled b < scaled (b + 1) := strictMono_scaled (Nat.lt_succ_self b)
  have hbounds := h.bounds
  have hd : 1 ≤ d := by
    rw [Nat.one_le_iff_ne_zero]
    rintro rfl
    rw [Nat.zero_mul] at hbounds
    omega
  obtain ⟨k, hk, hinfinity⟩ := exists_scaled_infinity_lt
  have hpow : Nat.pow 10 k ≤ d * 10 ^ j :=
    calc
      Nat.pow 10 k ≤ 10 ^ j := Nat.pow_le_pow_right (by decide) (by omega)
      _ = 1 * 10 ^ j := (Nat.one_mul _).symm
      _ ≤ d * 10 ^ j := Nat.mul_le_mul_right _ hd
  omega

lemma proper_numeral (b : Nat) : (numeral b).Proper :=
  Numeral.proper_ofDigits (Nat.toDigits_ne_nil)
    (fun _ => Nat.isDigit_of_mem_toDigits (by decide) (by decide)) _

lemma scaled_numeral (b : Nat) : (numeral b).scaled = (decimal b).1 * 10 ^ (decimal b).2 := by
  rw [numeral, Numeral.scaled_ofDigits (Nat.toDigits_ne_nil), Nat.ofDigitChars_ten_toDigits]

lemma reads_numeral (b : Nat) : Reads b (numeral b).scaled := by
  rw [scaled_numeral]
  exact reads_decimal b

lemma numeral_text_injective (h : (numeral a).text = (numeral b).text) : a = b := by
  have hnumeral := Numeral.text_injective (proper_numeral a) (proper_numeral b) h
  exact reads_unique (reads_numeral a) (hnumeral ▸ reads_numeral b)

def unsigned (d : Double) : List Char :=
  if d.isInfinite then ['i', 'n', 'f'] else (numeral d.bits).text

lemma toList_text (d : Double) :
    d.text.toList = (if d.negative then ['-'] else []) ++ d.unsigned := by
  rw [text, unsigned, String.toList_append]
  congr 1
  · split <;> rfl
  · split
    · rfl
    · exact String.toList_ofList

lemma isNumeral_text (d : Double) : ∀ c ∈ d.text.toList, isNumeral c = true := by
  rw [toList_text, List.forall_mem_append]
  constructor
  · split
    · exact List.all_eq_true.mp rfl
    · exact List.all_eq_true.mp rfl
  · rw [unsigned]
    split
    · exact List.all_eq_true.mp rfl
    · exact (proper_numeral d.bits).isNumeral_text

lemma exists_not_isIntegral (d : Double) : ∃ c ∈ d.text.toList, isIntegral c = false := by
  have hunsigned : ∃ c ∈ d.unsigned, isIntegral c = false := by
    rw [unsigned]
    split
    · exact ⟨'i', List.mem_cons_self, rfl⟩
    · exact (proper_numeral d.bits).exists_not_isIntegral
  obtain ⟨c, hc, hletter⟩ := hunsigned
  rw [toList_text]
  exact ⟨c, List.mem_append_right _ hc, hletter⟩

lemma unsigned_ne_cons (d : Double) (s : List Char) : d.unsigned ≠ '-' :: s := by
  intro h
  rw [unsigned] at h
  split at h
  · cases h
  · have hdigit := (proper_numeral d.bits).isDigit_head '-' (by rw [h]; rfl)
    revert hdigit
    decide

lemma unsigned_injective (h : d.unsigned = e.unsigned) : d.bits = e.bits := by
  have hletter (b : Nat) : (numeral b).text ≠ ['i', 'n', 'f'] := by
    intro hb
    have hdigit := (proper_numeral b).isDigit_head 'i' (by rw [hb]; rfl)
    revert hdigit
    decide
  rw [unsigned, unsigned] at h
  split at h <;> rename_i hd <;> split at h <;> rename_i he
  · exact (of_decide_eq_true hd).trans (of_decide_eq_true he).symm
  · exact absurd h.symm (hletter e.bits)
  · exact absurd h (hletter d.bits)
  · exact numeral_text_injective h

lemma text_injective (h : d.text = e.text) : d = e := by
  have hchars := congrArg String.toList h
  rw [toList_text, toList_text] at hchars
  have hparts : d.negative = e.negative ∧ d.unsigned = e.unsigned := by
    cases hd : d.negative <;> cases he : e.negative <;>
      simp only [hd, he, if_true, Bool.false_eq_true, if_false, List.nil_append,
        List.singleton_append] at hchars
    · exact ⟨rfl, hchars⟩
    · exact absurd hchars (d.unsigned_ne_cons _)
    · exact absurd hchars.symm (e.unsigned_ne_cons _)
    · exact ⟨rfl, (List.cons.inj hchars).2⟩
  have hbits := unsigned_injective hparts.2
  cases d
  cases e
  congr
  exact hparts.1

example : text ⟨false, 0x3FB999999999999A, by decide⟩ = "0.1" := by decide +kernel

example : text ⟨true, 0x3EE4F8B588E368F1, by decide⟩ = "-1e-05" := by decide +kernel

example : text ⟨false, 0x7FEFFFFFFFFFFFFF, by decide⟩ = "1.7976931348623157e+308" := by
  decide +kernel

def isNegativeZero (d : Double) : Bool :=
  d.negative && d.bits = 0

lemma eq_of_value? {x : Int} (hd : d.value? = some x) (he : e.value? = some x)
    (hzero : d.isNegativeZero = e.isNegativeZero) : d = e := by
  have hread {d : Double} (h : d.value? = some x) :
      x = if d.negative then -(magnitude d.bits : Int) else magnitude d.bits := by
    rw [value?] at h
    split at h
    · cases h
    · exact (Option.some.inj h).symm
  have hx := hread hd
  have hy := hread he
  have hmagnitude : magnitude d.bits = magnitude e.bits := by
    split at hx <;> split at hy <;> omega
  have hbits := strictMono_magnitude.injective hmagnitude
  have hsign : d.negative = e.negative := by
    by_cases h0 : d.bits = 0
    · simpa [isNegativeZero, ← hbits, h0] using hzero
    · have hpos : magnitude 0 < magnitude d.bits := strictMono_magnitude (Nat.pos_of_ne_zero h0)
      cases hdn : d.negative <;> cases hen : e.negative <;> simp [hdn, hen] at hx hy ⊢ <;> omega
  cases d
  cases e
  congr

end Double

end TinyC

import Mathlib.Algebra.Ring.Nat
import Mathlib.Tactic.Common
import TinyC.Proofs.Text.Plain
import TinyC.Text.Quoted

namespace TinyC.Text

lemma takeWhile_run {p : Char → Bool} {a r : List Char} (ha : ∀ c ∈ a, p c = true)
    (hr : ∀ c ∈ r.head?, p c = false) : (a ++ r).takeWhile p = a := by
  rw [List.takeWhile_append_of_pos ha]
  cases r with
  | nil => simp
  | cons c r => simp [hr c rfl]

lemma dropWhile_run {p : Char → Bool} {a r : List Char} (ha : ∀ c ∈ a, p c = true)
    (hr : ∀ c ∈ r.head?, p c = false) : (a ++ r).dropWhile p = r := by
  rw [List.dropWhile_append_of_pos ha]
  cases r with
  | nil => rfl
  | cons c r => simp [hr c rfl]

lemma run_append_inj {p : Char → Bool} {a b r s : List Char} (ha : ∀ c ∈ a, p c = true)
    (hb : ∀ c ∈ b, p c = true) (hr : ∀ c ∈ r.head?, p c = false)
    (hs : ∀ c ∈ s.head?, p c = false) (h : a ++ r = b ++ s) : a = b ∧ r = s := by
  have hab : a = b := by
    rw [← takeWhile_run ha hr, h, takeWhile_run hb hs]
  rw [hab] at h
  exact ⟨hab, List.append_cancel_left h⟩

lemma append_cons_inj {c : Char} {a b r s : List Char} (ha : c ∉ a) (hb : c ∉ b)
    (h : a ++ c :: r = b ++ c :: s) : a = b ∧ r = s := by
  have hne {u : List Char} (hu : c ∉ u) : ∀ x ∈ u, decide (x ≠ c) = true :=
    fun x hx => decide_eq_true fun hxc => hu (hxc ▸ hx)
  obtain ⟨hab, hrs⟩ := run_append_inj (hne ha) (hne hb) (by simp) (by simp) h
  exact ⟨hab, (List.cons.inj hrs).2⟩

lemma ofDigitChars_repr (n : Nat) : Nat.ofDigitChars 10 n.repr.toList 0 = n := by
  rw [Nat.repr_eq_ofList_toDigits, String.toList_ofList, Nat.ofDigitChars_ten_toDigits]

lemma natRepr_injective {m n : Nat} (h : m.repr = n.repr) : m = n := by
  rw [← ofDigitChars_repr m, h, ofDigitChars_repr]

lemma intRepr_injective {m n : Int} (h : m.repr = n.repr) : m = n := by
  have hsign (k l : Nat) : k.repr ≠ "-" ++ l.succ.repr := by
    intro hkl
    have hminus : '-' ∈ k.repr.toList := by simp [hkl]
    exact absurd (isDigit_of_mem_repr hminus) (by decide)
  cases m with
  | ofNat m =>
    cases n with
    | ofNat n => exact congrArg Int.ofNat (natRepr_injective h)
    | negSucc n => exact absurd h (hsign m n)
  | negSucc m =>
    cases n with
    | ofNat n => exact absurd h.symm (hsign n m)
    | negSucc n =>
      have hchars := congrArg String.toList h
      have hdigits : m.succ.repr.toList = n.succ.repr.toList := by
        simpa [Int.repr] using hchars
      exact congrArg Int.negSucc (Nat.succ.inj (natRepr_injective (String.toList_injective hdigits)))

lemma quoteMark_eq (s : List Char) : quoteMark s = '\'' ∨ quoteMark s = '"' := by
  rw [quoteMark]
  split
  · exact .inr rfl
  · exact .inl rfl

lemma length_hexDigits (width n : Nat) : (hexDigits width n).length = width := by
  induction width generalizing n with
  | zero => rfl
  | succ width ih => rw [hexDigits, List.length_append, ih, List.length_singleton]

def hexValue (c : Char) : Nat :=
  if c.isDigit then c.toNat - '0'.toNat else c.toNat - 'a'.toNat + 10

lemma hexValue_digitChar : ∀ d < 16, hexValue (Nat.digitChar d) = d := by
  decide

def ofHex (s : List Char) : Char :=
  Char.ofNat (s.foldl (fun n c => n * 16 + hexValue c) 0)

lemma foldl_hexDigits {width n : Nat} (h : n < 16 ^ width) :
    (hexDigits width n).foldl (fun n c => n * 16 + hexValue c) 0 = n := by
  induction width generalizing n with
  | zero =>
    rw [Nat.pow_zero, Nat.lt_one_iff] at h
    rw [h]
    rfl
  | succ width ih =>
    rw [Nat.pow_succ] at h
    have hlow := hexValue_digitChar (n % 16) (Nat.mod_lt n (by decide))
    rw [hexDigits, List.foldl_append, ih (by omega), List.foldl_cons, List.foldl_nil, hlow]
    omega

def unescape? (mark : Char) : List Char → Option (Char × List Char)
  | [] => none
  | '\\' :: 't' :: r => some ('\t', r)
  | '\\' :: 'n' :: r => some ('\n', r)
  | '\\' :: 'r' :: r => some ('\r', r)
  | '\\' :: 'x' :: r => some (ofHex (r.take 2), r.drop 2)
  | '\\' :: 'u' :: r => some (ofHex (r.take 4), r.drop 4)
  | '\\' :: 'U' :: r => some (ofHex (r.take 8), r.drop 8)
  | '\\' :: c :: r => some (c, r)
  | c :: r => if c = mark then none else some (c, r)

variable {mark : Char}

lemma unescape?_escapeCode (c : Char) (r : List Char) :
    unescape? mark (escapeCode c.toNat ++ r) = some (c, r) := by
  have hread (width : Nat) (h : c.toNat < 16 ^ width) :
      (ofHex ((hexDigits width c.toNat ++ r).take width),
        (hexDigits width c.toNat ++ r).drop width) = (c, r) := by
    rw [List.take_left' (length_hexDigits width _), List.drop_left' (length_hexDigits width _),
      ofHex, foldl_hexDigits h, Char.ofNat_toNat]
  rw [escapeCode]
  split
  · rename_i h
    exact congrArg some (hread 2 h)
  · split
    · rename_i h
      exact congrArg some (hread 4 h)
    · exact congrArg some (hread 8 c.val.toNat_lt)

lemma unescape?_escape (hm : mark = '\'' ∨ mark = '"') (c : Char) (r : List Char) :
    unescape? mark (escape mark c ++ r) = some (c, r) := by
  rw [escape]
  split
  · rename_i h
    rcases h with rfl | rfl
    · rfl
    · rcases hm with rfl | rfl <;> rfl
  · rename_i h
    rw [not_or] at h
    split
    · rename_i h
      rw [h]
      rfl
    · split
      · rename_i h
        rw [h]
        rfl
      · split
        · rename_i h
          rw [h]
          rfl
        · split
          · simp [unescape?, h.1, h.2]
          · exact unescape?_escapeCode c r

lemma flatMap_escape_inj (hm : mark = '\'' ∨ mark = '"') {s t r u : List Char}
    (h : s.flatMap (escape mark) ++ mark :: r = t.flatMap (escape mark) ++ mark :: u) :
    s = t ∧ r = u := by
  have hend (x : List Char) : unescape? mark (mark :: x) = none := by
    rcases hm with rfl | rfl <;> simp [unescape?]
  induction s generalizing t with
  | nil =>
    cases t with
    | nil => exact ⟨rfl, (List.cons.inj h).2⟩
    | cons d t =>
      have hread := congrArg (unescape? mark) h
      rw [List.flatMap_cons, List.append_assoc, unescape?_escape hm] at hread
      cases (hend r).symm.trans hread
  | cons c s ih =>
    have hread := congrArg (unescape? mark) h
    rw [List.flatMap_cons, List.append_assoc, unescape?_escape hm] at hread
    cases t with
    | nil => cases hread.trans (hend u)
    | cons d t =>
      rw [List.flatMap_cons, List.append_assoc, unescape?_escape hm, Option.some_inj,
        Prod.mk.injEq] at hread
      obtain ⟨rfl, hrest⟩ := hread
      obtain ⟨rfl, hru⟩ := ih hrest
      exact ⟨rfl, hru⟩

lemma toList_quote (s : String) : (quote s).toList = quoteMark s.toList ::
    (s.toList.flatMap (escape (quoteMark s.toList)) ++ [quoteMark s.toList]) := by
  rw [quote, String.toList_ofList, quoteChars, List.cons_append]

lemma quote_append_inj {s t : String} {r u : List Char}
    (h : (quote s).toList ++ r = (quote t).toList ++ u) : s = t ∧ r = u := by
  rw [toList_quote, toList_quote, List.cons_append, List.cons_append, List.append_assoc,
    List.append_assoc] at h
  obtain ⟨hmark, hrest⟩ := List.cons.inj h
  rw [hmark] at hrest
  obtain ⟨hst, hru⟩ := flatMap_escape_inj (quoteMark_eq _) hrest
  exact ⟨String.toList_injective hst, hru⟩

lemma isPrintable_digitChar : ∀ d < 16, isPrintable (Nat.digitChar d) = true := by
  decide

lemma isPrintable_of_mem_hexDigits {width n : Nat} {x : Char} (h : x ∈ hexDigits width n) :
    isPrintable x = true := by
  induction width generalizing n with
  | zero => cases h
  | succ width ih =>
    rcases List.mem_append.mp h with h | h
    · exact ih h
    · rw [List.mem_singleton.mp h]
      exact isPrintable_digitChar _ (Nat.mod_lt n (by decide))

lemma isPrintable_of_mem_escapeCode {n : Nat} {x : Char} (h : x ∈ escapeCode n) :
    isPrintable x = true := by
  have hcode {c : Char} {width : Nat} (hc : isPrintable c = true)
      (hx : x ∈ '\\' :: c :: hexDigits width n) : isPrintable x = true := by
    rcases List.mem_cons.mp hx with rfl | hx
    · decide
    rcases List.mem_cons.mp hx with rfl | hx
    · exact hc
    · exact isPrintable_of_mem_hexDigits hx
  rw [escapeCode] at h
  split at h
  · exact hcode (by decide) h
  · split at h
    · exact hcode (by decide) h
    · exact hcode (by decide) h

lemma isPrintable_of_mem_escape (hm : isPrintable mark = true) {c x : Char}
    (h : x ∈ escape mark c) : isPrintable x = true := by
  have hpair {y : Char} (hy : isPrintable y = true) (hx : x ∈ ['\\', y]) :
      isPrintable x = true := by
    rcases List.mem_cons.mp hx with rfl | hx
    · decide
    · rwa [List.mem_singleton.mp hx]
  rw [escape] at h
  split at h
  · rename_i hc
    rcases hc with rfl | rfl
    · exact hpair (by decide) h
    · exact hpair hm h
  · split at h
    · exact hpair (by decide) h
    · split at h
      · exact hpair (by decide) h
      · split at h
        · exact hpair (by decide) h
        · split at h
          · rename_i hc
            rwa [List.mem_singleton.mp h]
          · exact isPrintable_of_mem_escapeCode h

lemma isPrintable_of_mem_quote {s : String} {x : Char} (h : x ∈ (quote s).toList) :
    isPrintable x = true := by
  have hmark : isPrintable (quoteMark s.toList) = true := by
    rcases quoteMark_eq s.toList with hm | hm <;> rw [hm] <;> decide
  rw [toList_quote] at h
  rcases List.mem_cons.mp h with rfl | h
  · exact hmark
  rcases List.mem_append.mp h with h | h
  · obtain ⟨c, -, hc⟩ := List.mem_flatMap.mp h
    exact isPrintable_of_mem_escape hmark hc
  · rwa [List.mem_singleton.mp h]

lemma graphic_quote (s : String) : Graphic (quote s) :=
  fun _ => isPrintable_of_mem_quote

end TinyC.Text

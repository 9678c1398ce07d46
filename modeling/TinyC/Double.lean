namespace TinyC

/-- A floating-point number of 64 bits. Without the sign the bits are in the order of the numbers;
the last of them are those of infinity. -/
structure Double where
  negative : Bool
  bits : Nat
  bits_le : bits ≤ 2047 <<< 52
deriving DecidableEq

structure Numeral where
  whole : List Char
  fraction : List Char
  exponent : Option Int

namespace Numeral

/-- The digits of a number below one, times `10 ^ point`. -/
def ofDigits (digits : List Char) (point : Int) : Numeral :=
  if point ≤ -4 ∨ 16 < point then ⟨digits.take 1, digits.drop 1, some (point - 1)⟩
  else if point ≤ 0 then ⟨['0'], List.replicate (-point).toNat '0' ++ digits, none⟩
  else
    -- a digit stands behind the point of a whole number too
    let padded := digits ++ List.replicate (point.toNat + 1 - digits.length) '0'
    ⟨padded.take point.toNat, padded.drop point.toNat, none⟩

def fractionText : List Char → List Char
  | [] => []
  | c :: s => '.' :: c :: s

def exponentText : Option Int → List Char
  | none => []
  | some e =>
    let digits := Nat.toDigits 10 e.natAbs
    'e' :: (if e < 0 then '-' else '+') :: (List.replicate (2 - digits.length) '0' ++ digits)

def text (n : Numeral) : List Char :=
  n.whole ++ (fractionText n.fraction ++ exponentText n.exponent)

end Numeral

namespace Double

/-- The smallest number above zero is `2 ^ -places`. -/
def places : Nat :=
  1074

/-- The number in units of `2 ^ -places`. -/
def magnitude (bits : Nat) : Nat :=
  if bits < 1 <<< 52 then bits
  else ((1 <<< 52) + bits % (1 <<< 52)) <<< ((bits >>> 52) - 1)

/-- The number in units of `10 ^ -places`. -/
def scaled (bits : Nat) : Nat :=
  magnitude bits * Nat.pow 5 places

/-- Among all numbers this one is the nearest to `x`, which is in units of `10 ^ -places`; halfway
between two it is the one that ends in an even bit. -/
def Reads (bits x : Nat) : Prop :=
  let low := scaled (bits - 1) + scaled bits
  let high := scaled bits + scaled (bits + 1)
  low < 2 * x ∧ 2 * x < high ∨ bits % 2 = 0 ∧ (2 * x = low ∨ 2 * x = high)

instance (bits x : Nat) : Decidable (Reads bits x) :=
  inferInstanceAs (Decidable (_ ∨ _))

def RoundsUp (x p d : Nat) : Prop :=
  (d + 1) * p - x < x - d * p ∨ (d + 1) * p - x = x - d * p ∧ d % 2 = 1

instance (x p d : Nat) : Decidable (RoundsUp x p d) :=
  inferInstanceAs (Decidable (_ ∨ _))

/-- The shortest digits that are read as the number, with the power of ten behind them, which is
sought from the given one downwards. Of several the nearest are taken. -/
def shortest (bits : Nat) : Nat → Nat × Nat
  | 0 => (scaled bits, 0)
  | i + 1 =>
    let p := Nat.pow 10 (i + 1)
    let d := scaled bits / p
    if Reads bits (d * p) then
      if Reads bits ((d + 1) * p) ∧ RoundsUp (scaled bits) p d then (d + 1, i + 1) else (d, i + 1)
    else if Reads bits ((d + 1) * p) then (d + 1, i + 1)
    else shortest bits i

def decimal (bits : Nat) : Nat × Nat :=
  if bits = 0 then (0, places) else shortest bits 1382

def numeral (bits : Nat) : Numeral :=
  let digits := Nat.toDigits 10 (decimal bits).1
  .ofDigits digits (digits.length + (decimal bits).2 - places)

def isInfinite (d : Double) : Bool :=
  d.bits = 2047 <<< 52

def text (d : Double) : String :=
  (if d.negative then "-" else "") ++
    if d.isInfinite then "inf" else String.ofList (numeral d.bits).text

def value? (d : Double) : Option Int :=
  if d.isInfinite then none
  else some (if d.negative then -(magnitude d.bits : Int) else magnitude d.bits)

end Double

end TinyC

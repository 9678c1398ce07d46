namespace TinyC.Text

structure Stretch where
  left : Nat
  right : Nat
  size : Nat
deriving DecidableEq

def commonStart : List Char → List Char → Nat
  | a :: as, b :: bs => if a = b then commonStart as bs + 1 else 0
  | _, _ => 0

theorem commonStart_le (as bs : List Char) : commonStart as bs ≤ as.length := by
  fun_induction commonStart as bs with
  | case1 as b bs ih => simpa using ih
  | case2 => simp
  | case3 => simp

def startIn (as : List Char) : List Char → Stretch
  | [] => ⟨0, 0, 0⟩
  | b :: bs =>
    let here := commonStart as (b :: bs)
    let later := startIn as bs
    if later.size ≤ here then ⟨0, 0, here⟩ else ⟨0, later.right + 1, later.size⟩

theorem startIn_le (as bs : List Char) :
    (startIn as bs).left + (startIn as bs).size ≤ as.length := by
  induction bs with
  | nil => simp [startIn]
  | cons b bs ih =>
    have := commonStart_le as (b :: bs)
    simp only [startIn]
    split
    · simpa using this
    · simp only [Nat.zero_add]
      omega

/-- The longest stretch that two texts share. Of several it is the first in the first text, and then
the first in the second. -/
def longestStretch : List Char → List Char → Stretch
  | [], _ => ⟨0, 0, 0⟩
  | a :: as, bs =>
    let here := startIn (a :: as) bs
    let later := longestStretch as bs
    if later.size ≤ here.size then here else ⟨later.left + 1, later.right, later.size⟩

theorem longestStretch_le (as bs : List Char) :
    (longestStretch as bs).left + (longestStretch as bs).size ≤ as.length := by
  induction as with
  | nil => simp [longestStretch]
  | cons a as ih =>
    simp only [longestStretch]
    split
    · exact startIn_le (a :: as) bs
    · simp only [List.length_cons]
      omega

def shared (as bs : List Char) : Nat :=
  let s := longestStretch as bs
  if s.size = 0 then 0
  else
    shared (as.take s.left) (bs.take s.right) + s.size +
      shared (as.drop (s.left + s.size)) (bs.drop (s.right + s.size))
termination_by as.length
decreasing_by
  all_goals
    have := longestStretch_le as bs
    simp only [s, List.length_take, List.length_drop] at *
    omega

structure Likeness where
  text : String
  shared : Nat
  total : Nat
deriving DecidableEq

namespace Likeness

def of (word text : String) : Likeness :=
  ⟨text, Text.shared text.toList word.toList, text.length + word.length⟩

def isClose (l : Likeness) : Bool :=
  3 * l.total ≤ 10 * l.shared

def atLeast (k l : Likeness) : Bool :=
  let (here, there) := (k.shared * l.total, l.shared * k.total)
  there < here || there = here && l.text ≤ k.text

end Likeness

def closest (word : String) (texts : List String) : List String :=
  let close := (texts.map (Likeness.of word)).filter Likeness.isClose
  (((close.mergeSort Likeness.atLeast).take 3).map Likeness.text).mergeSort fun s t => s ≤ t

end TinyC.Text

import Mathlib.Tactic.Lemma
import TinyC.Source.Cursor

namespace TinyC

def Location.behind (file : String) (s : List Char) : Location :=
  ⟨file, 1 + s.count '\n', 1 + (s.reverse.takeWhile (· ≠ '\n')).length⟩

namespace Cursor

def Placed (c : Cursor) : Prop :=
  c.location = Location.behind c.file c.passed.reverse

lemma start_placed (file source : String) : (start file source).Placed := rfl

lemma step_placed {c : Cursor} (h : c.Placed) : c.step.Placed := by
  obtain ⟨file, passed, rest, line, column, lineStart⟩ := c
  cases rest with
  | nil => exact h
  | cons x xs =>
    simp only [Placed, location, Location.behind, List.count_reverse, List.reverse_reverse,
      Location.mk.injEq, true_and] at h
    by_cases hx : x = '\n'
    · subst hx
      simp [step, Placed, location, Location.behind, h.1]
      omega
    · simp [step, hx, Placed, location, Location.behind, h.1, h.2]
      omega

lemma forward_keeps (P : Cursor → Prop) (hstep : ∀ c, P c → P c.step) {c : Cursor} (n : Nat)
    (h : P c) : P (c.forward n) := by
  induction n generalizing c with
  | zero => exact h
  | succ n ih => exact ih (hstep c h)

lemma forward_placed {c : Cursor} (n : Nat) (h : c.Placed) : (c.forward n).Placed :=
  forward_keeps Placed (fun _ => step_placed) n h

def Anchored (c : Cursor) : Prop :=
  c.position = c.lineStart + (c.passed.takeWhile (· ≠ '\n')).length

lemma start_anchored (file source : String) : (start file source).Anchored := rfl

lemma step_anchored {c : Cursor} (h : c.Anchored) : c.step.Anchored := by
  obtain ⟨file, passed, rest, line, column, lineStart⟩ := c
  cases rest with
  | nil => exact h
  | cons x xs =>
    simp only [Anchored, position] at h
    by_cases hx : x = '\n'
    · simp [step, hx, Anchored, position]
    · simp [step, hx, Anchored, position, h]
      omega

lemma forward_anchored {c : Cursor} (n : Nat) (h : c.Anchored) : (c.forward n).Anchored :=
  forward_keeps Anchored (fun _ => step_anchored) n h

lemma file_step (c : Cursor) : c.step.file = c.file := by
  rw [step]
  cases c.rest with
  | nil => rfl
  | cons x xs => by_cases hx : x = '\n' <;> simp [hx]

@[simp] lemma file_forward (n : Nat) (c : Cursor) : (c.forward n).file = c.file := by
  induction n generalizing c with
  | zero => rfl
  | succ n ih => rw [forward, ih, file_step]

lemma passed_step (c : Cursor) : c.step.passed = (c.rest.take 1).reverse ++ c.passed := by
  rw [step]
  cases c.rest with
  | nil => rfl
  | cons x xs => by_cases hx : x = '\n' <;> simp [hx]

lemma passed_forward (n : Nat) (c : Cursor) :
    (c.forward n).passed = (c.rest.take n).reverse ++ c.passed := by
  induction n generalizing c with
  | zero => rfl
  | succ n ih =>
    rw [forward, ih, rest_step, passed_step, ← List.append_assoc, ← List.reverse_append,
      Nat.add_comm n 1, List.take_add]

lemma forward_forward (m n : Nat) (c : Cursor) : (c.forward m).forward n = c.forward (m + n) := by
  induction m generalizing c with
  | zero => rw [forward, Nat.zero_add]
  | succ m ih => rw [forward, ih, Nat.add_right_comm, forward]

lemma forward_of_rest_eq_nil {c : Cursor} (n : Nat) (h : c.rest = []) : c.forward n = c := by
  induction n with
  | zero => rfl
  | succ n ih => rw [forward, step, h, ih]

lemma forward_min (n : Nat) (c : Cursor) : c.forward (min n c.rest.length) = c.forward n := by
  rcases Nat.le_total n c.rest.length with h | h
  · rw [Nat.min_eq_left h]
  · have hr : (c.forward c.rest.length).rest = [] := by simp [rest_forward]
    rw [Nat.min_eq_right h, ← Nat.add_sub_of_le h, ← forward_forward,
      forward_of_rest_eq_nil _ hr]

lemma rest_start_forward (file source : String) (n : Nat) :
    ((start file source).forward n).rest = source.toList.drop n :=
  rest_forward n _

lemma location_start_forward (file source : String) (n : Nat) :
    ((start file source).forward n).location = Location.behind file (source.toList.take n) := by
  have hp := forward_placed n (start_placed file source)
  rw [Placed, file_forward, passed_forward] at hp
  simpa [start] using hp

end Cursor

end TinyC

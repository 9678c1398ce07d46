import TinyC.Location

namespace TinyC

/-- The text before the cursor is kept in `passed`, the nearest character first; `lineStart` is the
position at which the line of the cursor begins. -/
structure Cursor where
  file : String
  passed : List Char
  rest : List Char
  line : Nat
  column : Nat
  lineStart : Nat
deriving DecidableEq

namespace Cursor

def start (file source : String) : Cursor :=
  ⟨file, [], source.toList, 1, 1, 0⟩

def position (c : Cursor) : Nat :=
  c.passed.length

def source (c : Cursor) : List Char :=
  c.passed.reverse ++ c.rest

def location (c : Cursor) : Location :=
  ⟨c.file, c.line, c.column⟩

def step (c : Cursor) : Cursor :=
  match c.rest with
  | [] => c
  | x :: xs =>
    if x = '\n' then ⟨c.file, x :: c.passed, xs, c.line + 1, 1, c.position + 1⟩
    else ⟨c.file, x :: c.passed, xs, c.line, c.column + 1, c.lineStart⟩

def forward : Nat → Cursor → Cursor
  | 0, c => c
  | n + 1, c => forward n c.step

def currentLine (c : Cursor) : String :=
  String.ofList ((c.source.drop c.lineStart).takeWhile (· ≠ '\n'))

theorem rest_step (c : Cursor) : c.step.rest = c.rest.drop 1 := by
  unfold step
  cases h : c.rest with
  | nil => simp [h]
  | cons x xs => by_cases hx : x = '\n' <;> simp [hx]

theorem rest_forward (n : Nat) (c : Cursor) : (c.forward n).rest = c.rest.drop n := by
  induction n generalizing c with
  | zero => rfl
  | succ n ih => rw [forward, ih, rest_step, List.drop_drop, Nat.add_comm]

theorem source_step (c : Cursor) : c.step.source = c.source := by
  unfold step
  cases h : c.rest with
  | nil => simp
  | cons x xs => by_cases hx : x = '\n' <;> simp [source, hx, h]

theorem source_forward (n : Nat) (c : Cursor) : (c.forward n).source = c.source := by
  induction n generalizing c with
  | zero => rfl
  | succ n ih => rw [forward, ih, source_step]

end Cursor

end TinyC

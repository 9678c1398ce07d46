import Mathlib.Tactic.Common
import TinyC.Assembly.Target
import TinyC.Proofs.Expr.Value

/-! A machine for the part of the instruction set that is in use: three registers, the zero flag and a
stack of slots as wide as the registers. -/

namespace TinyC

def Target.width : Target → Nat
  | i386 => 32
  | x86_64 => 64

lemma Target.le_width (t : Target) : 32 ≤ t.width := by
  cases t <;> decide

inductive Register where
  | eax
  | ecx
  | edx
deriving DecidableEq

inductive Operand where
  | immediate (v : Word)
  | register (r : Register)
deriving DecidableEq

inductive Operation where
  | move (source : Operand) (r : Register)
  | negate (r : Register)
  | complement (r : Register)
  | compare (source : Operand) (r : Register)
  | setIfZero
  | push (r : Register)
  | pop (r : Register)
  | add (source : Operand) (r : Register)
  | subtract (source : Operand) (r : Register)
  | multiply (source : Operand) (r : Register)
  | signExtend
  | divide (r : Register)
  | ret
deriving DecidableEq

/-- The flag has no value after operations that leave it undefined. -/
structure Machine (t : Target) where
  register : Register → BitVec t.width
  zero : Option Bool
  stack : List (BitVec t.width)

namespace Machine

variable {t : Target}

def read (m : Machine t) (r : Register) : Word :=
  (m.register r).setWidth 32

def value (m : Machine t) : Operand → Word
  | .immediate v => v
  | .register r => m.read r

def set (m : Machine t) (r : Register) (v : BitVec t.width) : Machine t :=
  { m with register := fun x => if x = r then v else m.register x }

def write (m : Machine t) (r : Register) (v : Word) : Machine t :=
  m.set r (v.setWidth t.width)

def flag (m : Machine t) (b : Option Bool) : Machine t :=
  { m with zero := b }

def result (m : Machine t) (r : Register) (v : Word) : Machine t :=
  (m.write r v).flag (some (v = 0))

def setLowByte (m : Machine t) (b : Bool) : Machine t :=
  m.set .eax (m.register .eax &&& ~~~ 0xFF ||| (if b then 1 else 0))

/-- The dividend has its high half in `edx`. A zero divisor is a fault, and so is a quotient that is no
signed word. -/
def divide? (m : Machine t) (divisor : Word) : Option (Machine t) :=
  let dividend := (m.read .edx ++ m.read .eax).toInt
  let q := dividend.tdiv divisor.toInt
  if divisor = 0 ∨ q < -0x80000000 ∨ 0x80000000 ≤ q then none
  else some (((m.write .eax (BitVec.ofInt 32 q)).write .edx
    (BitVec.ofInt 32 (dividend.tmod divisor.toInt))).flag none)

end Machine

namespace Operation

open Machine

variable {t : Target}

def step : Operation → Machine t → Option (Machine t)
  | move source r, m => some (m.write r (m.value source))
  | negate r, m => some (m.result r (-m.read r))
  | complement r, m => some (m.write r (~~~ m.read r))
  | compare source r, m => some (m.flag (some (m.read r - m.value source = 0)))
  | setIfZero, m => m.zero.map m.setLowByte
  | push r, m => some { m with stack := m.register r :: m.stack }
  | pop r, m =>
    match m.stack with
    | [] => none
    | v :: vs => some { m.set r v with stack := vs }
  | add source r, m => some (m.result r (m.read r + m.value source))
  | subtract source r, m => some (m.result r (m.read r - m.value source))
  | multiply source r, m => some ((m.write r (m.read r * m.value source)).flag none)
  | signExtend, m => some (m.write .edx (if (m.read .eax).msb then BitVec.allOnes 32 else 0))
  | divide r, m => m.divide? (m.read r)
  | ret, m => some m

end Operation

namespace Machine

inductive Ending (t : Target) where
  | returned (m : Machine t)
  | faulted (op : Operation) (m : Machine t)
  | ranOff (m : Machine t)

structure Trace (t : Target) where
  visited : List (Machine t)
  ending : Ending t

variable {t : Target}

def run : List Operation → Machine t → Trace t
  | [], m => ⟨[m], .ranOff m⟩
  | op :: ops, m =>
    if op = .ret then ⟨[m], .returned m⟩
    else match op.step m with
      | none => ⟨[m], .faulted op m⟩
      | some n => ⟨m :: (run ops n).visited, (run ops n).ending⟩

@[simp] lemma read_write_self (m : Machine t) (r : Register) (v : Word) :
    (m.write r v).read r = v := by
  simp [read, write, set, BitVec.setWidth_setWidth_of_le _ t.le_width]

@[simp] lemma read_write_of_ne (m : Machine t) {r x : Register} (v : Word) (h : x ≠ r) :
    (m.write r v).read x = m.read x := by
  simp [read, write, set, h]

@[simp] lemma read_flag (m : Machine t) (b : Option Bool) (r : Register) :
    (m.flag b).read r = m.read r := rfl

@[simp] lemma read_result_self (m : Machine t) (r : Register) (v : Word) :
    (m.result r v).read r = v :=
  read_write_self m r v

/-- The code leads from one machine to another one and never looks below the stack `S`. -/
def Passes (S : List (BitVec t.width)) (ops : List Operation) (m n : Machine t) : Prop :=
  ∃ ms, (∀ x ∈ ms, S <:+ x.stack) ∧
    ∀ k, run (ops ++ k) m = ⟨ms ++ (run k n).visited, (run k n).ending⟩

def Breaks (S : List (BitVec t.width)) (ops : List Operation) (m : Machine t) (op : Operation) : Prop :=
  ∃ ms n, (∀ x ∈ ms, S <:+ x.stack) ∧ ∀ k, run (ops ++ k) m = ⟨ms, .faulted op n⟩

variable {S : List (BitVec t.width)} {a b : List Operation} {m n o : Machine t} {op : Operation}

lemma passes_step (hS : S <:+ m.stack) (hop : op ≠ .ret) (h : op.step m = some n) :
    Passes S [op] m n := by
  refine ⟨[m], by simpa using hS, fun k => ?_⟩
  rw [List.singleton_append, run, if_neg hop, h]
  rfl

lemma breaks_step (hS : S <:+ m.stack) (hop : op ≠ .ret) (h : op.step m = none) :
    Breaks S [op] m op := by
  refine ⟨[m], m, by simpa using hS, fun k => ?_⟩
  rw [List.singleton_append, run, if_neg hop, h]

lemma Passes.append (h : Passes S a m n) (h' : Passes S b n o) : Passes S (a ++ b) m o := by
  obtain ⟨ms, hms, hrun⟩ := h
  obtain ⟨ns, hns, hrun'⟩ := h'
  refine ⟨ms ++ ns, fun x hx => ?_, fun k => ?_⟩
  · rcases List.mem_append.mp hx with hx | hx
    · exact hms x hx
    · exact hns x hx
  · rw [List.append_assoc, hrun, hrun', List.append_assoc]

lemma Passes.mono {S' : List (BitVec t.width)} (h : Passes S a m n) (hS : S' <:+ S) :
    Passes S' a m n := by
  obtain ⟨ms, hms, hrun⟩ := h
  exact ⟨ms, fun x hx => hS.trans (hms x hx), hrun⟩

lemma Passes.breaks (h : Passes S a m n) (h' : Breaks S b n op) : Breaks S (a ++ b) m op := by
  obtain ⟨ms, hms, hrun⟩ := h
  obtain ⟨ns, o, hns, hrun'⟩ := h'
  refine ⟨ms ++ ns, o, fun x hx => ?_, fun k => ?_⟩
  · rcases List.mem_append.mp hx with hx | hx
    · exact hms x hx
    · exact hns x hx
  · rw [List.append_assoc, hrun, hrun']

lemma Breaks.append (h : Breaks S a m op) (b : List Operation) : Breaks S (a ++ b) m op := by
  obtain ⟨ms, n, hms, hrun⟩ := h
  refine ⟨ms, n, hms, fun k => ?_⟩
  rw [List.append_assoc, hrun]

lemma Breaks.mono {S' : List (BitVec t.width)} (h : Breaks S a m op) (hS : S' <:+ S) :
    Breaks S' a m op := by
  obtain ⟨ms, n, hms, hrun⟩ := h
  exact ⟨ms, n, fun x hx => hS.trans (hms x hx), hrun⟩

end Machine

end TinyC

import Mathlib.Tactic.Common
import TinyC.Proofs.Assembly.Decoding

namespace TinyC

def Expr.code : Expr → List Instruction
  | literal _ digits => [.load ⟨literalValue digits⟩]
  | unary _ op x => x.code ++ op.code
  | binary _ op x y =>
    (if op.leftFirst then x.code else y.code) ++ [.spill] ++
      (if op.leftFirst then y.code else x.code) ++ .reload :: op.code

namespace Machine

variable {t : Target}

def Yields (is : List Instruction) (m : Machine t) : Option Word → Prop
  | some v => ∃ n, Passes m.stack (is.map Instruction.operation) m n ∧ n.stack = m.stack ∧
      n.read .eax = v
  | none => Breaks m.stack (is.map Instruction.operation) m (.divide .ecx)

variable {m n : Machine t} {a b : List Instruction} {v : Option Word}

lemma Yields.of_passes (h : Passes m.stack (a.map Instruction.operation) m n)
    (hs : n.stack = m.stack) (hb : Yields b n v) : Yields (a ++ b) m v := by
  cases v with
  | none =>
    rw [Yields, List.map_append]
    rw [Yields, hs] at hb
    exact h.breaks hb
  | some v =>
    obtain ⟨o, hp, hso, ho⟩ := hb
    rw [hs] at hp
    refine ⟨o, ?_, hso.trans hs, ho⟩
    rw [List.map_append]
    exact h.append hp

lemma Yields.fault (h : Yields a m none) (b : List Instruction) : Yields (a ++ b) m none := by
  rw [Yields, List.map_append]
  exact Breaks.append h _

lemma yields_step {i : Instruction} {w : Word} (hi : i.operation ≠ .ret)
    (h : i.operation.step m = some n) (hs : n.stack = m.stack) (hw : n.read .eax = w) :
    Yields [i] m (some w) :=
  ⟨n, passes_step (List.suffix_refl _) hi h, hs, hw⟩

lemma Yields.run_ret (h : Yields a m v) :
    let r := run (a.map Instruction.operation ++ [.ret]) m
    (∀ n ∈ r.visited, m.stack <:+ n.stack) ∧
      (∀ w, v = some w → ∃ n, r.ending = .returned n ∧ n.stack = m.stack ∧ n.read .eax = w) ∧
      ((∃ d n, r.ending = .faulted (.divide d) n) ↔ v = none) := by
  dsimp only
  cases v with
  | none =>
    obtain ⟨ms, n, hms, hrun⟩ := h
    rw [hrun]
    exact ⟨hms, by simp, by simp⟩
  | some w =>
    obtain ⟨n, ⟨ms, hms, hrun⟩, hs, hw⟩ := h
    have hret : run [.ret] n = ⟨[n], .returned n⟩ := rfl
    rw [hrun, hret]
    refine ⟨fun x hx => ?_, ?_, by simp⟩
    · rcases List.mem_append.mp hx with hx | hx
      · exact hms x hx
      · obtain rfl := List.mem_singleton.mp hx
        exact hs ▸ List.suffix_refl _
    · rintro w' ⟨⟩
      exact ⟨n, rfl, hs, hw⟩

lemma toInt_signExtended (x : Word) :
    ((if x.msb then BitVec.allOnes 32 else 0) ++ x).toInt = x.toInt := by
  have h : x.signExtend 64 = (if x.msb then BitVec.allOnes 32 else 0) ++ x :=
    BitVec.signExtend_eq_append_of_le (by decide)
  rw [← h, BitVec.toInt_signExtend_of_le (by decide)]

lemma tdiv_overflows_iff {x y : Word} (hy : y ≠ 0) :
    (x.toInt.tdiv y.toInt < -0x80000000 ∨ 0x80000000 ≤ x.toInt.tdiv y.toInt) ↔
      x.toInt = -0x80000000 ∧ y.toInt = -1 := by
  constructor
  · intro h
    have hlow : -0x80000000 ≤ x.toInt := BitVec.le_toInt x
    have hhigh : x.toInt < 0x80000000 := BitVec.toInt_lt
    have hq : (x.toInt.tdiv y.toInt).natAbs = x.toInt.natAbs / y.toInt.natAbs := Int.natAbs_tdiv ..
    have hsize : 0x80000000 ≤ x.toInt.natAbs / y.toInt.natAbs := by omega
    have hzero : y.toInt ≠ 0 := fun h0 => hy (BitVec.toInt_inj.mp (by simpa using h0))
    -- any other divisor at least halves the dividend
    have hone : y.toInt.natAbs = 1 := by
      by_contra hne
      have htwo : 2 ≤ y.toInt.natAbs := by omega
      have hhalf : x.toInt.natAbs / y.toInt.natAbs ≤ x.toInt.natAbs / 2 :=
        Nat.div_le_div_left htwo (by decide)
      omega
    rw [hone, Nat.div_one] at hsize
    have hx : x.toInt = -0x80000000 := by omega
    refine ⟨hx, ?_⟩
    rcases Int.natAbs_eq y.toInt with hs | hs <;> rw [hone] at hs
    · rw [hs, hx] at h
      exact absurd h (by decide)
    · exact hs
  · rintro ⟨hx, hy⟩
    rw [hx, hy]
    decide

lemma divide?_eq (hm : m.read .edx = if (m.read .eax).msb then BitVec.allOnes 32 else 0) (y : Word) :
    m.divide? y = (BinaryOp.divide.value? (m.read .eax) y).map fun v =>
      ((m.write .eax v).write .edx (BitVec.ofInt 32 ((m.read .eax).toInt.tmod y.toInt))).flag none := by
  have hiff : y = 0 ∨ (m.read .eax).toInt.tdiv y.toInt < -0x80000000 ∨
      0x80000000 ≤ (m.read .eax).toInt.tdiv y.toInt ↔
      y = 0 ∨ (m.read .eax).toInt = -0x80000000 ∧ y.toInt = -1 := by
    by_cases hy : y = 0
    · simp [hy]
    · simp only [hy, false_or, tdiv_overflows_iff hy]
  rw [divide?, hm, toInt_signExtended, BinaryOp.value?]
  simp only [hiff]
  split <;> rfl

lemma read_setLowByte_of_zero (b : Bool) (h : m.register .eax = 0) :
    (m.setLowByte b).read .eax = if b then 1 else 0 := by
  cases t <;> cases b <;> simp [setLowByte, read, set, h, Target.width]

lemma yields_unary (op : UnaryOp) (m : Machine t) :
    Yields op.code m (some (op.value (m.read .eax))) := by
  cases op with
  | negate => exact yields_step (by decide) rfl rfl (by simp [UnaryOp.value])
  | complement => exact yields_step (by decide) rfl rfl (by simp [UnaryOp.value])
  | logicalNot =>
    let b := decide (m.read .eax - 0 = 0)
    let n := (m.flag (some b)).write .eax 0
    have hcompare : Passes m.stack [.compare (.immediate 0) .eax] m (m.flag (some b)) :=
      passes_step (List.suffix_refl _) (by decide) rfl
    -- the comparison is still seen after the accumulator is cleared
    have hclear : Passes m.stack [.move (.immediate 0) .eax] (m.flag (some b)) n :=
      passes_step (List.suffix_refl _) (by decide) rfl
    apply Yields.of_passes (a := [.compareZero, .load 0]) (b := [.setIfZero])
      (hcompare.append hclear) rfl
    refine yields_step (n := n.setLowByte b) (by decide) rfl rfl ?_
    rw [read_setLowByte_of_zero b (by simp [n, write, set])]
    simp [b, UnaryOp.value]

lemma yields_divide (m : Machine t) :
    Yields BinaryOp.divide.code m (BinaryOp.divide.value? (m.read .eax) (m.read .ecx)) := by
  let n := m.write .edx (if (m.read .eax).msb then BitVec.allOnes 32 else 0)
  have hn : Passes m.stack [.signExtend] m n :=
    passes_step (List.suffix_refl _) (by decide) rfl
  have heax : n.read .eax = m.read .eax := read_write_of_ne _ _ (by decide)
  have hecx : n.read .ecx = m.read .ecx := read_write_of_ne _ _ (by decide)
  have hstep : (Operation.divide .ecx).step n = _ :=
    divide?_eq (by rw [heax]; exact read_write_self ..) (n.read .ecx)
  apply Yields.of_passes (a := [.signExtend]) (b := [.divide]) hn rfl
  rw [← heax, ← hecx]
  cases hv : BinaryOp.divide.value? (n.read .eax) (n.read .ecx) with
  | none =>
    rw [hv] at hstep
    exact breaks_step (List.suffix_refl _) (by decide) hstep
  | some v =>
    rw [hv] at hstep
    refine yields_step (by decide) hstep rfl ?_
    rw [read_flag, read_write_of_ne _ _ (by decide), read_write_self]

lemma yields_binary (op : BinaryOp) (m : Machine t) {x y : Word}
    (hx : m.read (if op.leftFirst then .ecx else .eax) = x)
    (hy : m.read (if op.leftFirst then .eax else .ecx) = y) :
    Yields op.code m (op.value? x y) := by
  subst hx hy
  cases op with
  | add => exact yields_step (by decide) rfl rfl (by simp [BinaryOp.leftFirst, value, BitVec.add_comm])
  | subtract => exact yields_step (by decide) rfl rfl (by simp [BinaryOp.leftFirst, value])
  | multiply =>
    exact yields_step (by decide) rfl rfl (by simp [BinaryOp.leftFirst, value, BitVec.mul_comm])
  | divide => exact yields_divide m

lemma yields_spilled {c : List Instruction} {w : Option Word} {f : Word → Word → Option Word}
    (ha : ∀ m : Machine t, Yields a m v) (hb : ∀ m : Machine t, Yields b m w)
    (hc : ∀ m : Machine t, Yields c m (f (m.read .ecx) (m.read .eax))) (m : Machine t) :
    Yields (a ++ [.spill] ++ b ++ .reload :: c) m (v.bind fun x => w.bind fun y => f x y) := by
  rw [List.append_cons _ _ c]
  cases v with
  | none =>
    rw [List.append_assoc, List.append_assoc, List.append_assoc]
    exact (ha m).fault _
  | some x =>
    obtain ⟨n, hn, hns, hx⟩ := ha m
    have hbelow : m.stack <:+ n.register .eax :: n.stack := hns ▸ List.suffix_cons _ _
    -- the second code finds the first value on the stack and never looks below it
    let n' : Machine t := { n with stack := n.register .eax :: n.stack }
    have hpush : Passes m.stack [.push .eax] n n' :=
      passes_step (hns ▸ List.suffix_refl _) (by decide) rfl
    have hspill := hn.append hpush
    cases w with
    | none =>
      have hbreak : Breaks m.stack (b.map Instruction.operation) n' (.divide .ecx) :=
        Breaks.mono (hb n') hbelow
      have hfault : Yields (a ++ [.spill] ++ b) m none := by
        rw [Yields, List.map_append, List.map_append]
        exact hspill.breaks hbreak
      rw [List.append_assoc _ _ c]
      exact hfault.fault _
    | some y =>
      obtain ⟨o, ho, hos, hy⟩ := hb n'
      let o' : Machine t := { o.set .ecx (n.register .eax) with stack := n.stack }
      have hpop : Passes m.stack [.pop .ecx] o o' := by
        apply passes_step (hos ▸ hbelow) (by decide)
        rw [Operation.step, hos]
      have hpair : Passes m.stack
          (List.map Instruction.operation (a ++ [.spill] ++ b ++ [.reload])) m o' := by
        rw [List.map_append, List.map_append, List.map_append]
        exact (hspill.append (ho.mono hbelow)).append hpop
      apply Yields.of_passes hpair hns
      have hecx : o'.read .ecx = x := hx
      have heax : o'.read .eax = y := hy
      simpa only [Option.bind_some, hecx, heax] using hc o'

end Machine

theorem Expr.code_yields {t : Target} (e : Expr) (m : Machine t) : Machine.Yields e.code m e.value? := by
  induction e generalizing m with
  | literal l digits =>
    exact Machine.yields_step (by simp [Instruction.operation]) rfl rfl (Machine.read_write_self ..)
  | unary l op x ih =>
    cases hx : x.value? with
    | none =>
      rw [hx] at ih
      rw [value?, hx]
      exact (ih m).fault _
    | some v =>
      rw [hx] at ih
      rw [value?, hx]
      obtain ⟨n, hn, hs, rfl⟩ := ih m
      exact Machine.Yields.of_passes hn hs (Machine.yields_unary op n)
  | binary l op x y ihx ihy =>
    have hop := fun m : Machine t => Machine.yields_binary op m rfl rfl
    by_cases hfirst : op.leftFirst = true
    · simp only [code, value?, hfirst, if_true] at hop ⊢
      exact Machine.yields_spilled ihx ihy hop m
    · simp only [code, value?, hfirst] at hop ⊢
      rw [Option.bind_comm]
      exact Machine.yields_spilled (f := fun v w => op.value? w v) ihy ihx hop m

lemma UnaryOp.ret_notMem_code (op : UnaryOp) : .ret ∉ op.code := by
  cases op <;> decide

lemma BinaryOp.ret_notMem_code (op : BinaryOp) : .ret ∉ op.code := by
  cases op <;> decide

lemma Expr.ret_notMem_code (e : Expr) : .ret ∉ e.code := by
  induction e with
  | literal l digits => simp [code]
  | unary l op x ih => simp [code, ih, op.ret_notMem_code]
  | binary l op x y ihx ihy =>
    cases hfirst : op.leftFirst <;> simp [code, hfirst, ihx, ihy, op.ret_notMem_code]

lemma Expr.ret_notMem_operations (e : Expr) : .ret ∉ e.code.map Instruction.operation := by
  intro h
  obtain ⟨i, hi, hop⟩ := List.mem_map.mp h
  obtain rfl : i = .ret := by cases i <;> simp_all [Instruction.operation]
  exact e.ret_notMem_code hi

end TinyC

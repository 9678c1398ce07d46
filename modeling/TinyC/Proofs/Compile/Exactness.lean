import Mathlib.Tactic.Common
import TinyC.Proofs.Compile.Outcome

namespace TinyC

def UnaryOp.integer : UnaryOp → Int → Int
  | negate, a => -a
  | complement, a => -a - 1
  | logicalNot, a => if a = 0 then 1 else 0

def BinaryOp.integer? : BinaryOp → Int → Int → Option Int
  | add, a, b => some (a + b)
  | subtract, a, b => some (a - b)
  | multiply, a, b => some (a * b)
  | divide, a, b => if b = 0 then none else some (a.tdiv b)

def IsSigned (n : Int) : Prop :=
  -0x80000000 ≤ n ∧ n ≤ 0x7FFFFFFF

instance (n : Int) : Decidable (IsSigned n) :=
  inferInstanceAs (Decidable (_ ∧ _))

namespace Expr

def integer? : Expr → Option Int
  | literal _ digits => some (Nat.ofDigitChars 10 digits.toList 0)
  | unary _ op x => x.integer?.map op.integer
  | binary _ op x y => x.integer?.bind fun a => y.integer?.bind fun b => op.integer? a b

def parts : Expr → List Expr
  | literal l digits => [literal l digits]
  | unary l op x => unary l op x :: x.parts
  | binary l op x y => binary l op x y :: (x.parts ++ y.parts)

def Fits (e : Expr) : Prop :=
  ∀ x ∈ e.parts, ∃ n ∈ x.integer?, IsSigned n

instance : DecidablePred Fits :=
  fun e => inferInstanceAs (Decidable (∀ x ∈ e.parts, ∃ n ∈ x.integer?, IsSigned n))

end Expr

section Words

variable {a b n : Int}

lemma IsSigned.toInt_ofInt (h : IsSigned n) : (BitVec.ofInt 32 n).toInt = n := by
  obtain ⟨hlow, hhigh⟩ := h
  exact BitVec.toInt_ofInt_eq_self (by decide) hlow (by omega)

lemma IsSigned.ofInt_eq_zero_iff (h : IsSigned n) : BitVec.ofInt 32 n = 0 ↔ n = 0 := by
  constructor
  · intro hz
    rw [← h.toInt_ofInt, hz]
    rfl
  · rintro rfl
    rfl

lemma ofInt_sub (a b : Int) :
    BitVec.ofInt 32 (a - b) = BitVec.ofInt 32 a - BitVec.ofInt 32 b := by
  rw [Int.sub_eq_add_neg, BitVec.ofInt_add, BitVec.ofInt_neg, BitVec.sub_eq_add_neg]

lemma UnaryOp.value_ofInt (op : UnaryOp) (ha : IsSigned a) :
    op.value (BitVec.ofInt 32 a) = BitVec.ofInt 32 (op.integer a) := by
  cases op with
  | negate => exact BitVec.ofInt_neg.symm
  | complement =>
    rw [value, integer, BitVec.not_eq_neg_add, ofInt_sub, BitVec.ofInt_neg]
    rfl
  | logicalNot =>
    simp only [value, integer, ha.ofInt_eq_zero_iff]
    split <;> rfl

lemma BinaryOp.value?_ofInt {op : BinaryOp} (ha : IsSigned a) (hb : IsSigned b) (hn : IsSigned n)
    (h : op.integer? a b = some n) :
    op.value? (BitVec.ofInt 32 a) (BitVec.ofInt 32 b) = some (BitVec.ofInt 32 n) := by
  cases op with
  | add =>
    obtain rfl := Option.some.inj h
    rw [value?, BitVec.ofInt_add]
  | subtract =>
    obtain rfl := Option.some.inj h
    rw [value?, ofInt_sub]
  | multiply =>
    obtain rfl := Option.some.inj h
    rw [value?, BitVec.ofInt_mul]
  | divide =>
    rw [integer?] at h
    split at h
    · cases h
    · rename_i hzero
      obtain rfl := Option.some.inj h
      -- the one quotient of signed words that is none is out of range here
      have hsafe : ¬ (BitVec.ofInt 32 b = 0 ∨ (BitVec.ofInt 32 a).toInt = -0x80000000 ∧
          (BitVec.ofInt 32 b).toInt = -1) := by
        rw [hb.ofInt_eq_zero_iff, ha.toInt_ofInt, hb.toInt_ofInt]
        rintro (hb0 | ⟨rfl, rfl⟩)
        · exact hzero hb0
        · exact absurd hn (by decide)
      rw [value?, if_neg hsafe, ha.toInt_ofInt, hb.toInt_ofInt]

end Words

namespace Expr

variable {e x y : Expr} {l : Location}

lemma mem_parts_self (e : Expr) : e ∈ e.parts := by
  cases e <;> simp [parts]

lemma Fits.exists_integer (h : e.Fits) : ∃ n, e.integer? = some n ∧ IsSigned n :=
  h e e.mem_parts_self

lemma Fits.operand {op : UnaryOp} (h : (unary l op x).Fits) : x.Fits :=
  fun p hp => h p (by simp [parts, hp])

lemma Fits.left {op : BinaryOp} (h : (binary l op x y).Fits) : x.Fits :=
  fun p hp => h p (by simp [parts, hp])

lemma Fits.right {op : BinaryOp} (h : (binary l op x y).Fits) : y.Fits :=
  fun p hp => h p (by simp [parts, hp])

lemma Fits.value?_eq (h : e.Fits) {n : Int} (hn : e.integer? = some n) :
    e.value? = some (BitVec.ofInt 32 n) := by
  induction e generalizing n with
  | literal l digits =>
    obtain rfl := Option.some.inj hn
    rw [value?, literalValue, BitVec.ofInt_natCast]
  | unary l op x ih =>
    obtain ⟨a, hx, ha⟩ := h.operand.exists_integer
    rw [integer?, hx] at hn
    obtain rfl := Option.some.inj hn
    rw [value?, ih h.operand hx, Option.map_some, op.value_ofInt ha]
  | binary l op x y ihx ihy =>
    obtain ⟨a, hx, ha⟩ := h.left.exists_integer
    obtain ⟨b, hy, hb⟩ := h.right.exists_integer
    obtain ⟨m, hm, hsigned⟩ := h.exists_integer
    obtain rfl := Option.some.inj (hm.symm.trans hn)
    rw [integer?, hx, hy] at hn
    rw [value?, ihx h.left hx, ihy h.right hy]
    exact BinaryOp.value?_ofInt ha hb hsigned hn

end Expr

/-- If every part of a program has an integer value that is a signed word, so that nothing is divided by
zero, its compiled code returns the integer value of the program. It does so on every machine. -/
theorem compile_returns_integer {limit : Nat} {o : Options} {file source : String} {f : Function}
    (hp : '\n' ∉ o.symbolPrefix.toList) (hs : (compile limit o file source).success = true)
    (hf : (compile limit o file source).program = some f) (hfits : f.body.value.Fits) :
    ∃ n t body, f.body.value.integer? = some n ∧ Target.ofName? o.target = some t ∧
      Operation.decode? t (compile limit o file source).assembly = some (body ++ [.ret]) ∧ .ret ∉ body ∧
      ∀ m : Machine t, ∃ m', (Machine.run (body ++ [.ret]) m).ending = .returned m' ∧
        m'.stack = m.stack ∧ (m'.read .eax).toInt = n := by
  obtain ⟨n, hn, hsigned⟩ := hfits.exists_integer
  obtain ⟨r, g, q, text, hr, hg, ha, hprogram, hassembly⟩ := compile_success hs
  obtain rfl := Option.some.inj (hprogram.symm.trans hf)
  have hlegible : Legible limit file source g := legible_iff.mpr ((parse_eq_ok_iff hr).mpr ⟨q, hg⟩)
  obtain ⟨t, ht, hdecode⟩ :=
    Function.decode?_assemble hp hlegible.isWord_name.notMem_newline hlegible.decimal ha
  refine ⟨n, t, _, hn, ht, hassembly ▸ hdecode, g.body.value.ret_notMem_operations, fun m => ?_⟩
  obtain ⟨m', hend, hstack, heax⟩ :=
    (g.body.value.code_yields m).run_ret.2.1 _ (hfits.value?_eq hn)
  exact ⟨m', hend, hstack, by rw [heax, hsigned.toInt_ofInt]⟩

theorem compile_returns_integer_signs :
    let c := compile 1000 ⟨"i386", "_", true⟩ "a.c"
      "int f(){return ~(-7 / 2) * !0 + 7 / -2 - 2147483645;}"
    c.success = true ∧ ∃ f ∈ c.program, f.body.value.Fits ∧
      ∃ body, Operation.decode? .i386 c.assembly = some (body ++ [.ret]) ∧
        ∀ m : Machine .i386, ∃ m', (Machine.run (body ++ [.ret]) m).ending = .returned m' ∧
          m'.stack = m.stack ∧ (m'.read .eax).toInt = -2147483646 := by
  intro c
  have hs : c.success = true := by decide +kernel
  have hprogram : ∃ f ∈ c.program, f.body.value.Fits ∧ f.body.value.integer? = some (-2147483646) := by
    decide +kernel
  obtain ⟨f, hf, hfits, hvalue⟩ := hprogram
  obtain ⟨n, t, body, hn, ht, hdecode, -, hrun⟩ :=
    compile_returns_integer (by decide) hs hf hfits
  obtain rfl : Target.i386 = t := Option.some.inj ((Target.ofName?_name .i386).symm.trans ht)
  obtain rfl := Option.some.inj (hvalue.symm.trans hn)
  exact ⟨hs, f, hf, hfits, body, hdecode, hrun⟩

end TinyC

import Mathlib.Tactic.Common
import TinyC.Assembly.Instruction
import TinyC.Proofs.Assembly.Machine
import TinyC.Proofs.Text.Lines
import TinyC.Proofs.Text.Plain

namespace TinyC

namespace Text

def isSpace (c : Char) : Bool :=
  [(0x9, 0xD), (0x1C, 0x20), (0x85, 0x85), (0xA0, 0xA0), (0x1680, 0x1680), (0x2000, 0x200A),
    (0x2028, 0x2029), (0x202F, 0x202F), (0x205F, 0x205F), (0x3000, 0x3000)].any
    fun (a, b) => decide (a ≤ c.toNat) && decide (c.toNat ≤ b)

def strip (s : List Char) : List Char :=
  ((s.dropWhile isSpace).reverse.dropWhile isSpace).reverse

lemma dropWhile_isSpace {s : List Char} (h : ∀ c ∈ s.head?, isSpace c = false) :
    s.dropWhile isSpace = s := by
  cases s with
  | nil => rfl
  | cons c s => rw [List.dropWhile_cons_of_neg (by simp [h c rfl])]

lemma strip_append {a s : List Char} (ha : ∀ c ∈ a, isSpace c = true)
    (hs : ∀ c ∈ s.head?, isSpace c = false) (hs' : ∀ c ∈ s.getLast?, isSpace c = false) :
    strip (a ++ s) = s := by
  have hr : ∀ c ∈ s.reverse.head?, isSpace c = false := by simpa using hs'
  rw [strip, List.dropWhile_append_of_pos ha, dropWhile_isSpace hs, dropWhile_isSpace hr,
    List.reverse_reverse]

lemma exists_dropWhile_append {x : Char} (hx : isSpace x = false) (s : List Char) :
    ∃ l, (s ++ [x]).dropWhile isSpace = l ++ [x] := by
  induction s with
  | nil => exact ⟨[], by simp [hx]⟩
  | cons c s ih =>
    by_cases hc : isSpace c = true
    · simpa [hc] using ih
    · exact ⟨c :: s, by simp [hc]⟩

lemma head?_strip {x : Char} (hx : isSpace x = false) {a : List Char}
    (ha : ∀ c ∈ a, isSpace c = true) (s : List Char) : (strip (a ++ x :: s)).head? = some x := by
  obtain ⟨l, hl⟩ := exists_dropWhile_append hx s.reverse
  rw [strip, List.dropWhile_append_of_pos ha, List.dropWhile_cons_of_neg (by simp [hx]),
    List.reverse_cons, hl]
  simp

lemma getLast?_strip {x : Char} (hx : isSpace x = false) (s : List Char) :
    (strip (s ++ [x])).getLast? = some x := by
  obtain ⟨l, hl⟩ := exists_dropWhile_append hx s
  rw [strip, hl, List.reverse_append, List.reverse_singleton, List.singleton_append,
    List.dropWhile_cons_of_neg (by simp [hx])]
  simp

end Text

namespace Register

def all : List Register :=
  [eax, ecx, edx]

def name : Register → String
  | eax => "%eax"
  | ecx => "%ecx"
  | edx => "%edx"

def slotName : Target → Register → String
  | .i386, r => r.name
  | .x86_64, eax => "%rax"
  | .x86_64, ecx => "%rcx"
  | .x86_64, edx => "%rdx"

def ofName? (s : String) : Option Register :=
  all.find? (·.name = s)

def ofSlotName? (t : Target) (s : String) : Option Register :=
  all.find? (·.slotName t = s)

end Register

def Operand.ofText? (s : String) : Option Operand :=
  match s.toList with
  | '$' :: digits =>
    if digits ≠ [] ∧ digits.all Char.isDigit then some (.immediate (literalValue (.ofList digits)))
    else none
  | _ => (Register.ofName? s).map .register

def Line.fields? (line : List Char) : Option (String × List String) :=
  let s := Text.strip line
  let arguments := s.dropWhile (· ≠ ' ')
  if s = [] ∨ s.head? = some '#' ∨ s.head? = some '.' ∨ s.getLast? = some ':' then none
  else some (.ofList (s.takeWhile (· ≠ ' ')),
    if arguments = [] then []
    else (Text.pieces ',' arguments).map fun a => .ofList (Text.strip a))

def Operation.ofFields? (t : Target) : String × List String → Option Operation
  | ("movl", [a, r]) => return .move (← Operand.ofText? a) (← Register.ofName? r)
  | ("negl", [r]) => return .negate (← Register.ofName? r)
  | ("notl", [r]) => return .complement (← Register.ofName? r)
  | ("cmpl", [a, r]) => return .compare (← Operand.ofText? a) (← Register.ofName? r)
  | ("sete", ["%al"]) => return .setIfZero
  | ("pushl", [r]) => if t = .i386 then return .push (← Register.ofSlotName? t r) else none
  | ("pushq", [r]) => if t = .x86_64 then return .push (← Register.ofSlotName? t r) else none
  | ("popl", [r]) => if t = .i386 then return .pop (← Register.ofSlotName? t r) else none
  | ("popq", [r]) => if t = .x86_64 then return .pop (← Register.ofSlotName? t r) else none
  | ("addl", [a, r]) => return .add (← Operand.ofText? a) (← Register.ofName? r)
  | ("subl", [a, r]) => return .subtract (← Operand.ofText? a) (← Register.ofName? r)
  | ("imull", [a, r]) => return .multiply (← Operand.ofText? a) (← Register.ofName? r)
  | ("cdq", []) => return .signExtend
  | ("idivl", [r]) => return .divide (← Register.ofName? r)
  | ("ret", []) => return .ret
  | _ => none

def Operation.decode? (t : Target) (text : String) : Option (List Operation) :=
  ((Text.lines text.toList).filterMap Line.fields?).mapM (ofFields? t)

def Unbroken (s : String) : Prop :=
  s.toList ≠ [] ∧ s.toList.all fun c => !Text.isSpace c && !([',', '#', '.', ':'].contains c)

instance : DecidablePred Unbroken :=
  fun s => inferInstanceAs (Decidable (s.toList ≠ [] ∧ s.toList.all _))

namespace Unbroken

variable {s : String}

lemma of_mem (h : Unbroken s) {c : Char} (hc : c ∈ s.toList) :
    Text.isSpace c = false ∧ c ∉ [',', '#', '.', ':'] := by
  simpa using List.all_eq_true.mp h.2 c hc

lemma ne_of_mem (h : Unbroken s) {c d : Char} (hc : c ∈ s.toList) (hd : d ∈ [',', '#', '.', ':']) :
    c ≠ d := by
  rintro rfl
  exact (h.of_mem hc).2 hd

lemma head (h : Unbroken s) {b : List Char} : ∃ c, (s.toList ++ b).head? = some c ∧ c ∈ s.toList := by
  cases hs : s.toList with
  | nil => exact absurd hs h.1
  | cons c cs => exact ⟨c, by simp⟩

lemma last (h : Unbroken s) {b : List Char} : ∃ c, (b ++ s.toList).getLast? = some c ∧ c ∈ s.toList := by
  refine ⟨s.toList.getLast h.1, ?_, List.getLast_mem h.1⟩
  rw [List.getLast?_append, List.getLast?_eq_some_getLast h.1, Option.some_or]

lemma strip (h : Unbroken s) {a : List Char} (ha : ∀ c ∈ a, Text.isSpace c = true) :
    Text.strip (a ++ s.toList) = s.toList :=
  Text.strip_append ha (fun _ hc => (h.of_mem (List.mem_of_mem_head? hc)).1)
    fun _ hc => (h.of_mem (List.mem_of_mem_getLast? hc)).1

end Unbroken

lemma map_strip_pieces {operands : List String} (ho : operands ≠ [])
    (h : ∀ o ∈ operands, Unbroken o) {a : List Char} (ha : ∀ c ∈ a, Text.isSpace c = true) :
    ((Text.pieces ',' (a ++ (", ".intercalate operands).toList)).map fun x =>
      String.ofList (Text.strip x)) = operands := by
  induction operands generalizing a with
  | nil => exact absurd rfl ho
  | cons o os ih =>
    have hu := h o (by simp)
    have hc : ',' ∉ a ++ o.toList := by
      intro hc
      rcases List.mem_append.mp hc with hc | hc
      · exact absurd (ha _ hc) (by decide)
      · exact hu.ne_of_mem hc (by simp) rfl
    cases os with
    | nil => simp [Text.pieces_of_notMem hc, hu.strip ha]
    | cons p ps =>
      have htext : a ++ (", ".intercalate (o :: p :: ps)).toList =
          (a ++ o.toList) ++ ',' :: ([' '] ++ (", ".intercalate (p :: ps)).toList) := by
        simp [String.intercalate_cons_cons]
      rw [htext, Text.pieces_append_cons hc, List.map_cons, hu.strip ha, String.ofList_toList,
        ih (by simp) (fun x hx => h x (by simp [hx])) (a := [' '])
          (List.forall_mem_singleton.mpr (by decide))]

lemma getLast?_intercalate {operands : List String} (ho : operands ≠ [])
    (h : ∀ o ∈ operands, Unbroken o) (a : List Char) :
    ∃ o ∈ operands, ∃ c ∈ o.toList, (a ++ (", ".intercalate operands).toList).getLast? = some c := by
  induction operands generalizing a with
  | nil => exact absurd rfl ho
  | cons o os ih =>
    cases os with
    | nil =>
      obtain ⟨c, hc, hm⟩ := (h o (by simp)).last (b := a)
      exact ⟨o, by simp, c, hm, by simpa using hc⟩
    | cons p ps =>
      obtain ⟨x, hx, c, hc, hl⟩ := ih (by simp) (fun x hx => h x (by simp [hx]))
        (a ++ o.toList ++ [',', ' '])
      exact ⟨x, by simp [hx], c, hc, by simpa [String.intercalate_cons_cons] using hl⟩

namespace Line

lemma isSpace_margin : ∀ c ∈ margin.toList, Text.isSpace c = true :=
  List.all_eq_true.mp (by decide)

lemma fields?_margin_append {mnemonic : String} {b : List Char} (hm : Unbroken mnemonic)
    (hb : ∀ c ∈ b.head?, c = ' ')
    (hl : ∀ c ∈ (mnemonic.toList ++ b).getLast?, Text.isSpace c = false ∧ c ≠ ':') :
    fields? (margin.toList ++ (mnemonic.toList ++ b)) = some (mnemonic,
      if b = [] then []
      else (Text.pieces ',' b).map fun a => .ofList (Text.strip a)) := by
  obtain ⟨x, hx, hxm⟩ := hm.head (b := b)
  have hspace : ∀ c ∈ mnemonic.toList, (decide (c ≠ ' ')) = true := by
    intro c hc
    apply decide_eq_true
    rintro rfl
    exact absurd (hm.of_mem hc).1 (by decide)
  have hstrip : Text.strip (margin.toList ++ (mnemonic.toList ++ b)) = mnemonic.toList ++ b := by
    refine Text.strip_append isSpace_margin (fun c hc => ?_) fun c hc => (hl c hc).1
    rw [hx] at hc
    exact (hm.of_mem (Option.some.inj hc ▸ hxm)).1
  have htake : (mnemonic.toList ++ b).takeWhile (· ≠ ' ') = mnemonic.toList := by
    rw [List.takeWhile_append_of_pos hspace]
    cases b with
    | nil => simp
    | cons c b => simp [hb c rfl]
  have hdrop : (mnemonic.toList ++ b).dropWhile (· ≠ ' ') = b := by
    rw [List.dropWhile_append_of_pos hspace]
    cases b with
    | nil => simp
    | cons c b => simp [hb c rfl]
  rw [fields?, hstrip, hdrop, htake, if_neg, String.ofList_toList]
  rintro (h | h | h | h)
  · simp [h] at hx
  · exact hm.ne_of_mem hxm (by simp) (Option.some.inj (hx.symm.trans h))
  · exact hm.ne_of_mem hxm (by simp) (Option.some.inj (hx.symm.trans h))
  · exact (hl _ h).2 rfl

lemma fields?_instruction {mnemonic : String} {operands : List String} (hm : Unbroken mnemonic)
    (hlength : mnemonic.length < 8) (h : ∀ o ∈ operands, Unbroken o) :
    fields? (instruction mnemonic operands).text.toList = some (mnemonic, operands) := by
  by_cases ho : operands = []
  · subst ho
    have hl : ∀ c ∈ (mnemonic.toList ++ []).getLast?, Text.isSpace c = false ∧ c ≠ ':' := by
      intro c hc
      have hc := List.mem_of_mem_getLast? hc
      rw [List.append_nil] at hc
      exact ⟨(hm.of_mem hc).1, hm.ne_of_mem hc (by simp)⟩
    simpa [text] using fields?_margin_append hm (b := []) (by simp) hl
  · obtain ⟨k, hk⟩ : ∃ k, 8 - mnemonic.length = k + 1 := ⟨7 - mnemonic.length, by omega⟩
    let pad := List.replicate (k + 1) ' '
    let arguments := pad ++ (", ".intercalate operands).toList
    have hpad : ∀ c ∈ pad, Text.isSpace c = true := by
      intro c hc
      rw [List.eq_of_mem_replicate hc]
      decide
    have htext : (instruction mnemonic operands).text.toList =
        margin.toList ++ (mnemonic.toList ++ arguments) := by
      rw [text, padded, hk]
      · simp [arguments, pad]
      · exact fun hc => ho hc
    obtain ⟨o, hmem, x, hx, hlast⟩ := getLast?_intercalate ho h (mnemonic.toList ++ pad)
    have hu := h o hmem
    have hl : ∀ c ∈ (mnemonic.toList ++ arguments).getLast?, Text.isSpace c = false ∧ c ≠ ':' := by
      intro c hc
      rw [← List.append_assoc, hlast] at hc
      obtain rfl := Option.some.inj hc
      exact ⟨(hu.of_mem hx).1, hu.ne_of_mem hx (by simp)⟩
    have hne : arguments ≠ [] := by
      simp [arguments, pad]
    rw [htext, fields?_margin_append hm (by simp [arguments, pad, List.replicate_succ]) hl,
      if_neg hne, map_strip_pieces ho h hpad]

lemma fields?_of_head {s b : List Char} {x : Char} (hx : x = '#' ∨ x = '.')
    (hs : s = margin.toList ++ x :: b) : fields? s = none := by
  have hspace : Text.isSpace x = false := by
    rcases hx with rfl | rfl <;> decide
  have hhead : (Text.strip s).head? = some x := by
    rw [hs, Text.head?_strip hspace isSpace_margin b]
  rw [fields?, if_pos]
  rcases hx with rfl | rfl
  · exact .inr (.inl hhead)
  · exact .inr (.inr (.inl hhead))

end Line

namespace Instruction

def operation : Instruction → Operation
  | load v => .move (.immediate v.toBitVec) .eax
  | negate => .negate .eax
  | complement => .complement .eax
  | compareZero => .compare (.immediate 0) .eax
  | setIfZero => .setIfZero
  | spill => .push .eax
  | reload => .pop .ecx
  | add => .add (.register .ecx) .eax
  | subtract => .subtract (.register .ecx) .eax
  | multiply => .multiply (.register .ecx) .eax
  | signExtend => .signExtend
  | divide => .divide .ecx
  | ret => .ret

lemma unbroken_immediate (n : Nat) : Unbroken ("$" ++ n.repr) := by
  refine ⟨by simp, List.all_eq_true.mpr fun c hc => ?_⟩
  rw [String.toList_append] at hc
  rcases List.mem_append.mp hc with hc | hc
  · obtain rfl : c = '$' := by simpa using hc
    decide
  · have hd := Char.isDigit_iff_toNat.mp (Text.isDigit_of_mem_repr hc)
    simp only [Char.reduceToNat] at hd
    have hspace : Text.isSpace c = false := by
      simp only [Text.isSpace, List.any_cons, List.any_nil, Bool.or_false, Bool.or_eq_false_iff,
        Bool.and_eq_false_iff, decide_eq_false_iff_not]
      omega
    have hmark : c ∉ [',', '#', '.', ':'] := by
      simp only [List.mem_cons, List.not_mem_nil, or_false]
      rintro (rfl | rfl | rfl | rfl) <;> simp at hd
    simpa [hspace] using hmark

lemma ofText?_immediate (v : UInt32) :
    Operand.ofText? ("$" ++ v.toNat.repr) = some (.immediate v.toBitVec) := by
  have hdigits : v.toNat.repr.toList = Nat.toDigits 10 v.toNat := by
    rw [Nat.repr_eq_ofList_toDigits, String.toList_ofList]
  have hall : v.toNat.repr.toList.all Char.isDigit = true :=
    List.all_eq_true.mpr fun c hc => Text.isDigit_of_mem_repr hc
  have hne : v.toNat.repr.toList ≠ [] := by
    rw [hdigits]
    exact Nat.toDigits_ne_nil
  have hvalue : literalValue v.toNat.repr = v.toBitVec := by
    rw [literalValue, hdigits, Nat.ofDigitChars_ten_toDigits]
    simp
  have htext : ("$" ++ v.toNat.repr).toList = '$' :: v.toNat.repr.toList := by
    simp
  rw [Operand.ofText?, htext]
  simp only [hne, hall, ne_eq, not_false_eq_true, and_self, if_true, String.ofList_toList, hvalue]

lemma line_spells (t : Target) (i : Instruction) : ∃ mnemonic operands,
    i.line t = .instruction mnemonic operands ∧ Unbroken mnemonic ∧ mnemonic.length < 8 ∧
      (∀ o ∈ operands, Unbroken o) ∧
      Operation.ofFields? t (mnemonic, operands) = some i.operation := by
  cases i with
  | load v =>
    refine ⟨_, _, rfl, by decide, by decide, ?_, ?_⟩
    · simp only [List.mem_cons, List.not_mem_nil, or_false]
      rintro o (rfl | rfl)
      · exact unbroken_immediate _
      · decide
    · have hmove (a r : String) : Operation.ofFields? t ("movl", [a, r]) = do
          return .move (← Operand.ofText? a) (← Register.ofName? r) := rfl
      rw [hmove, ofText?_immediate]
      rfl
  | _ =>
    cases t <;>
      exact ⟨_, _, rfl, by decide +kernel, by decide, by decide +kernel, by decide +kernel⟩

lemma notMem_newline_line (t : Target) (i : Instruction) : '\n' ∉ (i.line t).text.toList := by
  cases i with
  | load v =>
    have hv : '\n' ∉ v.toNat.repr.toList := fun h => absurd (Text.isDigit_of_mem_repr h) (by decide)
    simpa [line, Line.text, Line.margin, Line.padded, accumulator] using hv
  | _ => cases t <;> decide

end Instruction

lemma Listing.lines_text {ls : Listing} (h : ∀ l ∈ ls.toList, '\n' ∉ l.text.toList) :
    Text.lines ls.text.toList = ls.toList.map (fun l => l.text.toList) ++ [[]] := by
  have hplain : ∀ s ∈ ls.toList.map Line.text, '\n' ∉ s.toList := by
    simpa using h
  have hlines := Text.lines_join hplain
  rw [List.map_map, List.map_map] at hlines
  exact hlines

structure Spells (t : Target) (ls : List Line) (ops : List Operation) : Prop where
  single : ∀ l ∈ ls, '\n' ∉ l.text.toList
  decoded : (ls.filterMap fun l => Line.fields? l.text.toList).mapM (Operation.ofFields? t) = some ops

namespace Spells

variable {t : Target} {ls ms : List Line} {a b : List Operation}

lemma nil : Spells t [] [] :=
  ⟨by simp, rfl⟩

lemma append (ha : Spells t ls a) (hb : Spells t ms b) : Spells t (ls ++ ms) (a ++ b) where
  single l hl := (List.mem_append.mp hl).elim (ha.single l) (hb.single l)
  decoded := by
    rw [List.filterMap_append, List.mapM_append, ha.decoded, hb.decoded]
    rfl

lemma idle {l : Line} (hl : '\n' ∉ l.text.toList) (h : Line.fields? l.text.toList = none) :
    Spells t [l] [] := by
  refine ⟨by simpa using hl, ?_⟩
  simp [h]

lemma comment {text : String} (h : '\n' ∉ text.toList) : Spells t [.comment text] [] := by
  apply idle
  · simpa [Line.text, Line.margin] using h
  · exact Line.fields?_of_head (b := ' ' :: text.toList) (.inl rfl) (by simp [Line.text])

lemma directive {name : String} (h : '\n' ∉ name.toList) :
    Spells t [.directive ".globl" [name]] [] := by
  apply idle
  · simpa [Line.text, Line.margin] using h
  · exact Line.fields?_of_head (b := "globl ".toList ++ name.toList) (.inr rfl) (by simp [Line.text])

lemma label {name : String} (h : '\n' ∉ name.toList) : Spells t [.label name] [] := by
  apply idle
  · simpa [Line.text] using h
  · simp [Line.fields?, Line.text, Text.getLast?_strip (by decide : Text.isSpace ':' = false)]

lemma instruction (t : Target) (i : Instruction) : Spells t [i.line t] [i.operation] := by
  refine ⟨by simpa using i.notMem_newline_line t, ?_⟩
  obtain ⟨m, os, hline, hm, hlength, ho, hop⟩ := i.line_spells t
  simp [hline, Line.fields?_instruction hm hlength ho, hop]

lemma code (t : Target) (is : List Instruction) :
    Spells t (is.map (Instruction.line t)) (is.map Instruction.operation) := by
  induction is with
  | nil => exact nil
  | cons i is ih => exact (instruction t i).append ih

lemma decode? {ls : Listing} (h : Spells t ls.toList a) : Operation.decode? t ls.text = some a := by
  have hblank : [([] : List Char)].filterMap Line.fields? = [] := by decide
  rw [Operation.decode?, Listing.lines_text h.single, List.filterMap_append, hblank, List.append_nil,
    List.filterMap_map]
  exact h.decoded

end Spells

end TinyC

import Mathlib.Combinatorics.Enumerative.DyckWord
import Mathlib.Tactic.Common
import TinyC.Proofs.Assembly.Defects

namespace TinyC

def spillStep? (text : String) : Option DyckStep :=
  if text = "        pushq   %rax" then some .U
  else if text = "        popq    %rcx" then some .D
  else none

inductive Counterpart : String → String → Prop
  | push : Counterpart "        pushl   %eax" "        pushq   %rax"
  | pop : Counterpart "        popl    %ecx" "        popq    %rcx"
  | same {text : String} : spillStep? text = none → Counterpart text text

section

variable {text : String}

lemma spillStep?_eq_none (hpush : text ≠ "        pushq   %rax")
    (hpop : text ≠ "        popq    %rcx") : spillStep? text = none := by
  rw [spillStep?, if_neg hpush, if_neg hpop]

lemma spillStep?_of_ninth (h : text.toList[8]? ≠ some 'p') : spillStep? text = none := by
  apply spillStep?_eq_none
  · rintro rfl
    exact h (by decide)
  · rintro rfl
    exact h (by decide)

lemma spillStep?_of_last (h : text.toList.getLast? = some ':') : spillStep? text = none := by
  apply spillStep?_eq_none
  · rintro rfl
    revert h
    decide
  · rintro rfl
    revert h
    decide

end

lemma Line.spillStep?_comment (text : String) : spillStep? (Line.comment text).text = none := by
  apply spillStep?_of_ninth
  simp [Line.text, Line.margin]

lemma Line.spillStep?_globl (symbol : String) :
    spillStep? (Line.directive ".globl" [symbol]).text = none := by
  apply spillStep?_of_ninth
  simp [Line.text, Line.margin]

lemma Line.spillStep?_label (name : String) : spillStep? (Line.label name).text = none := by
  apply spillStep?_of_last
  simp [Line.text]

namespace Instruction

def step? : Instruction → Option DyckStep
  | spill => some .U
  | reload => some .D
  | _ => none

lemma spillStep?_load (v : UInt32) (t : Target) : spillStep? ((load v).line t).text = none := by
  apply spillStep?_of_ninth
  simp [line, Line.text, Line.margin, Line.padded]

lemma spillStep?_line (i : Instruction) : spillStep? (i.line .x86_64).text = i.step? := by
  cases i with
  | load v => exact spillStep?_load v _
  | _ => decide

lemma counterpart (i : Instruction) :
    Counterpart (i.line .i386).text (i.line .x86_64).text := by
  cases i with
  | spill => exact .push
  | reload => exact .pop
  | load v => exact .same (spillStep?_load v _)
  | _ => exact .same (by decide)

end Instruction

def Spills (x y : Emit Unit) (fault : Option EmitFault) (steps : List DyckStep) : Prop :=
  ∃ a b, Emit.Appends x a fault ∧ Emit.Appends y b fault ∧
    List.Forall₂ Counterpart (a.map Line.text) (b.map Line.text) ∧
    (b.map Line.text).filterMap spillStep? = steps

namespace Spills

variable {x y x' y' : Emit Unit} {f : EmitFault} {g : Option EmitFault} {m n : List DyckStep}

lemma bind (h : Spills x y none m) (h' : Spills x' y' g n) :
    Spills (x >>= fun _ => x') (y >>= fun _ => y') g (m ++ n) := by
  obtain ⟨a, b, hx, hy, hab, rfl⟩ := h
  obtain ⟨a', b', hx', hy', hab', rfl⟩ := h'
  refine ⟨a ++ a', b ++ b', hx.bind hx', hy.bind hy', ?_, ?_⟩
  · rw [List.map_append, List.map_append]
    exact List.rel_append hab hab'
  · rw [List.map_append, List.filterMap_append]

lemma bind_fault (h : Spills x y (some f) m) (x' y' : Emit Unit) :
    Spills (x >>= fun _ => x') (y >>= fun _ => y') (some f) m := by
  obtain ⟨a, b, hx, hy, hab, hm⟩ := h
  exact ⟨a, b, hx.bind_fault x', hy.bind_fault y', hab, hm⟩

lemma pure : Spills (Pure.pure ()) (Pure.pure ()) none [] :=
  ⟨[], [], .pure, .pure, .nil, rfl⟩

lemma fail (f : EmitFault) : Spills (Emit.fail f) (Emit.fail f) (some f) [] :=
  ⟨[], [], .fail f, .fail f, .nil, rfl⟩

lemma write {new : List Line} (h : ∀ l ∈ new, spillStep? l.text = none) :
    Spills (Emit.write new) (Emit.write new) none [] := by
  refine ⟨new, new, .write new, .write new, ?_, ?_⟩
  · rw [List.forall₂_same]
    intro text ht
    obtain ⟨l, hl, rfl⟩ := List.mem_map.mp ht
    exact .same (h l hl)
  · rw [List.filterMap_map, List.filterMap_eq_nil_iff]
    exact h

variable (symbolPrefix : String) (comments : Bool)

lemma code (is : List Instruction) :
    Spills (Emit.code ⟨.i386, symbolPrefix, comments⟩ is)
      (Emit.code ⟨.x86_64, symbolPrefix, comments⟩ is) none (is.filterMap Instruction.step?) := by
  refine ⟨_, _, .code _ is, .code _ is, ?_, ?_⟩
  · rw [List.map_map, List.map_map, List.forall₂_map_left_iff, List.forall₂_map_right_iff,
      List.forall₂_same]
    exact fun i _ => i.counterpart
  · rw [List.map_map, List.filterMap_map]
    exact List.filterMap_congr fun i _ => i.spillStep?_line

end Spills

def Tree.binaries : Tree → Nat
  | foreign _ => 0
  | blank _ => 0
  | literal _ _ => 0
  | unary _ _ x => x.binaries
  | binary _ _ x y => x.binaries + y.binaries + 1
  | ret _ x => x.binaries
  | function _ _ body => body.binaries

def Brackets (x y : Emit Unit) (n : Nat) : Prop :=
  ∃ fault steps, Spills x y fault steps ∧
    (fault = none → ∃ w : DyckWord, w.toList = steps ∧ w.semilength = n)

namespace Brackets

variable {x y x' y' : Emit Unit} {m n : Nat}

lemma of_spills {fault : Option EmitFault} (h : Spills x y fault []) : Brackets x y 0 :=
  ⟨fault, [], h, fun _ => ⟨0, rfl, rfl⟩⟩

lemma fail (f : EmitFault) (n : Nat) : Brackets (Emit.fail f) (Emit.fail f) n :=
  ⟨some f, [], .fail f, nofun⟩

lemma bind (h : Brackets x y m) (h' : Brackets x' y' n) :
    Brackets (x >>= fun _ => x') (y >>= fun _ => y') (m + n) := by
  obtain ⟨f, s, hs, hw⟩ := h
  obtain ⟨g, s', hs', hw'⟩ := h'
  cases f with
  | some f => exact ⟨some f, s, hs.bind_fault x' y', nofun⟩
  | none =>
    refine ⟨g, s ++ s', hs.bind hs', fun hg => ?_⟩
    obtain ⟨w, rfl, rfl⟩ := hw rfl
    obtain ⟨w', rfl, rfl⟩ := hw' hg
    exact ⟨w + w', rfl, DyckWord.semilength_add⟩

lemma idle_bind (h : Brackets x y 0) (h' : Brackets x' y' n) :
    Brackets (x >>= fun _ => x') (y >>= fun _ => y') n := by
  have hb := h.bind h'
  rwa [Nat.zero_add] at hb

variable (symbolPrefix : String) (comments : Bool)

lemma spilled (h : Brackets x y m) (h' : Brackets x' y' n) (op : BinaryOp) :
    Brackets
      (do
        x
        Emit.code ⟨.i386, symbolPrefix, comments⟩ [.spill]
        x'
        Emit.code ⟨.i386, symbolPrefix, comments⟩ (.reload :: op.code))
      (do
        y
        Emit.code ⟨.x86_64, symbolPrefix, comments⟩ [.spill]
        y'
        Emit.code ⟨.x86_64, symbolPrefix, comments⟩ (.reload :: op.code))
      (m + n + 1) := by
  obtain ⟨f, s, hs, hw⟩ := h
  obtain ⟨g, s', hs', hw'⟩ := h'
  have hpush := Spills.code symbolPrefix comments [.spill]
  have hpop := Spills.code symbolPrefix comments (.reload :: op.code)
  have hsteps : (Instruction.reload :: op.code).filterMap Instruction.step? = [.D] := by
    cases op <;> rfl
  rw [hsteps] at hpop
  cases f with
  | some f => exact ⟨some f, s, hs.bind_fault _ _, nofun⟩
  | none =>
    cases g with
    | some g => exact ⟨some g, _, hs.bind (hpush.bind (hs'.bind_fault _ _)), nofun⟩
    | none =>
      -- the slot that is taken after the first operand is given back after the second
      refine ⟨none, _, hs.bind (hpush.bind (hs'.bind hpop)), fun _ => ?_⟩
      obtain ⟨w, rfl, rfl⟩ := hw rfl
      obtain ⟨w', rfl, rfl⟩ := hw' rfl
      refine ⟨w + w'.nest, rfl, ?_⟩
      rw [DyckWord.semilength_add, DyckWord.semilength_nest, Nat.add_assoc]

lemma note (text : String) :
    Brackets (Emit.note ⟨.i386, symbolPrefix, comments⟩ text)
      (Emit.note ⟨.x86_64, symbolPrefix, comments⟩ text) 0 := by
  cases comments with
  | false => exact of_spills .pure
  | true =>
    have hnew : ∀ l ∈ [Line.comment text], spillStep? l.text = none := by
      simpa using Line.spillStep?_comment text
    exact of_spills (.write hnew)

lemma code {is : List Instruction} (h : is.filterMap Instruction.step? = []) :
    Brackets (Emit.code ⟨.i386, symbolPrefix, comments⟩ is)
      (Emit.code ⟨.x86_64, symbolPrefix, comments⟩ is) 0 :=
  of_spills (h ▸ Spills.code symbolPrefix comments is)

lemma literal (digits : String) :
    Brackets (Emit.literal ⟨.i386, symbolPrefix, comments⟩ digits)
      (Emit.literal ⟨.x86_64, symbolPrefix, comments⟩ digits) 0 := by
  rw [Emit.literal, Emit.literal]
  cases wordOfDigits digits.toList with
  | ok w => exact code symbolPrefix comments rfl
  | error c => exact fail _ 0

lemma noteBinary (op : Option Operator) :
    Brackets (Emit.noteBinary ⟨.i386, symbolPrefix, comments⟩ op)
      (Emit.noteBinary ⟨.x86_64, symbolPrefix, comments⟩ op) 0 := by
  cases op with
  | some o => exact note symbolPrefix comments _
  | none =>
    cases comments with
    | false => exact of_spills .pure
    | true => exact fail _ 0

lemma header (symbol : String) :
    Brackets (Emit.write [.directive ".globl" [symbol], .label symbol])
      (Emit.write [.directive ".globl" [symbol], .label symbol]) 0 := by
  apply of_spills
  apply Spills.write
  simp [Line.spillStep?_globl, Line.spillStep?_label]

lemma tree (t : Tree) :
    Brackets (Emit.tree ⟨.i386, symbolPrefix, comments⟩ t)
      (Emit.tree ⟨.x86_64, symbolPrefix, comments⟩ t) t.binaries := by
  induction t with
  | foreign v => exact fail _ _
  | blank l => exact fail _ _
  | literal l v => exact literal symbolPrefix comments v
  | unary l op x ih =>
    rcases op with _ | (u | b)
    · exact ih.bind (fail _ 0)
    · exact ih.bind (code symbolPrefix comments (by cases u <;> rfl))
    · exact ih.bind (fail _ 0)
  | binary l op x y ihx ihy =>
    rcases op with _ | (u | b)
    -- a wrong operator ends the emission before any operand
    · exact (noteBinary symbolPrefix comments none).idle_bind (fail _ _)
    · exact (noteBinary symbolPrefix comments (some (.unary u))).idle_bind (fail _ _)
    · have hnote := noteBinary symbolPrefix comments (some (.binary b))
      rw [Emit.tree_binary, Emit.tree_binary, Tree.binaries]
      cases b.leftFirst with
      | true => exact hnote.idle_bind (ihx.spilled symbolPrefix comments ihy b)
      | false =>
        rw [Nat.add_comm x.binaries]
        exact hnote.idle_bind (ihy.spilled symbolPrefix comments ihx b)
  | ret l x ih =>
    exact ih.bind ((note symbolPrefix comments _).bind (code symbolPrefix comments rfl))
  | function l name body ih =>
    exact (note symbolPrefix comments _).idle_bind ((header (symbolPrefix ++ name)).idle_bind ih)

end Brackets

/-- For every tree the two targets end alike, with the same fault if there is one, and line by line
they write the same but for the lines that use the stack. If there is none, these lines open and
close like brackets, with one pair for each binary operation. -/
theorem targets_differ_in_spills (symbolPrefix : String) (comments : Bool) (t : Tree) :
    ∃ (a b : List Line) (fault : Option EmitFault),
      Emit.Appends (Emit.tree ⟨.i386, symbolPrefix, comments⟩ t) a fault ∧
      Emit.Appends (Emit.tree ⟨.x86_64, symbolPrefix, comments⟩ t) b fault ∧
      List.Forall₂ Counterpart (a.map Line.text) (b.map Line.text) ∧
      (fault = none → ∃ w : DyckWord, w.toList = (b.map Line.text).filterMap spillStep? ∧
        w.semilength = t.binaries) := by
  obtain ⟨fault, steps, ⟨a, b, ha, hb, hab, rfl⟩, hw⟩ := Brackets.tree symbolPrefix comments t
  exact ⟨a, b, fault, ha, hb, hab, hw⟩

end TinyC

import Mathlib.Data.List.Basic
import Mathlib.Tactic.Common
import TinyC.Proofs.Assembly.Defects
import TinyC.Proofs.Assembly.Evaluation

namespace TinyC

lemma digitValue?_of_isDigit {c : Char} (h : c.isDigit) :
    Text.digitValue? c = some (c.toNat - '0'.toNat) := by
  have hc := Char.isDigit_iff_toNat.mp h
  simp only [Char.reduceToNat] at hc ⊢
  rw [Text.digitValue?, Text.digitZeros, List.find?_cons_of_pos (by simp; omega), Option.map_some]

lemma wordOfDigits_eq {digits : String} (h : ∀ c ∈ digits.toList, c.isDigit) :
    wordOfDigits digits.toList = .ok ⟨literalValue digits⟩ := by
  have hvalues : digits.toList.filterMap Text.digitValue? =
      digits.toList.map fun c => c.toNat - '0'.toNat :=
    List.filterMap_eq_map_iff_forall_eq_some.mpr fun c hc => digitValue?_of_isDigit (h c hc)
  rw [wordOfDigits_eq_ok fun c hc => by rw [digitValue?_of_isDigit (h c hc), Option.isSome_some],
    hvalues, List.foldl_map]
  rfl

def Emits (t : Target) (x : Emit Unit) (ops : List Operation) : Prop :=
  ∀ ls, ∃ new, Spells t new ops ∧ x ls = .ok () (ls ++ new.toArray)

namespace Emits

variable {t : Target} {x y : Emit Unit} {a b : List Operation}

lemma bind (hx : Emits t x a) (hy : Emits t y b) : Emits t (x >>= fun _ => y) (a ++ b) := by
  intro ls
  obtain ⟨new, hnew, hls⟩ := hx ls
  obtain ⟨more, hmore, hms⟩ := hy (ls ++ new.toArray)
  refine ⟨new ++ more, hnew.append hmore, ?_⟩
  show EStateM.bind x (fun _ => y) ls = _
  rw [EStateM.bind, hls]
  simpa using hms

lemma write {new : List Line} (h : Spells t new a) : Emits t (Emit.write new) a :=
  fun _ => ⟨new, h, rfl⟩

lemma code (s : Settings) (is : List Instruction) :
    Emits s.target (Emit.code s is) (is.map Instruction.operation) :=
  write (Spells.code s.target is)

lemma note (s : Settings) {text : String} (h : '\n' ∉ text.toList) :
    Emits s.target (Emit.note s text) [] := by
  rw [Emit.note]
  split
  · exact write (Spells.comment h)
  · exact fun ls => ⟨[], Spells.nil, by simp; rfl⟩

lemma literal (s : Settings) {digits : String} (h : ∀ c ∈ digits.toList, c.isDigit) :
    Emits s.target (Emit.literal s digits)
      [.move (.immediate (literalValue digits)) .eax] := by
  rw [Emit.literal, wordOfDigits_eq h]
  exact code s [.load ⟨literalValue digits⟩]

lemma noteBinary (s : Settings) (op : BinaryOp) :
    Emits s.target (Emit.noteBinary s (some (.binary op))) [] := by
  apply note
  cases op <;> decide

lemma spilled (s : Settings) (op : BinaryOp) {p q : List Instruction}
    (hx : Emits s.target x (p.map Instruction.operation))
    (hy : Emits s.target y (q.map Instruction.operation)) :
    Emits s.target (do
      Emit.noteBinary s (some (.binary op))
      x
      Emit.code s [.spill]
      y
      Emit.code s (.reload :: op.code))
      (List.map Instruction.operation (p ++ [.spill] ++ q ++ .reload :: op.code)) := by
  have hfinish := hy.bind (code s (.reload :: op.code))
  have hstart := (noteBinary s op).bind (hx.bind ((code s [.spill]).bind hfinish))
  rw [List.map_append, List.map_append, List.map_append, List.append_assoc, List.append_assoc]
  exact hstart

lemma expr (s : Settings) {e : Expr} (h : e.Decimal) :
    Emits s.target (Emit.tree s e.toTree) (e.code.map Instruction.operation) := by
  induction e with
  | literal l digits => exact literal s h
  | unary l op x ih =>
    rw [Expr.code, List.map_append]
    exact (ih h).bind (code s op.code)
  | binary l op x y ihx ihy =>
    rw [Expr.toTree, Emit.tree, Expr.code]
    cases op.leftFirst with
    | true => exact spilled s op (ihx h.1) (ihy h.2)
    | false => exact spilled s op (ihy h.2) (ihx h.1)

lemma function {s : Settings} {f : Function} (hp : '\n' ∉ s.symbolPrefix.toList)
    (hname : '\n' ∉ f.name.toList) (h : f.body.value.Decimal) :
    Emits s.target (Emit.tree s f.toTree)
      (f.body.value.code.map Instruction.operation ++ [.ret]) := by
  have hsymbol : '\n' ∉ (s.symbolPrefix ++ f.name).toList := by
    simp [hp, hname]
  have htitle : Emits s.target (Emit.note s ("Function: " ++ f.name)) [] :=
    note s (by simpa using hname)
  have hheader := write ((Spells.directive (t := s.target) hsymbol).append (Spells.label hsymbol))
  have hreturn : Emits s.target (Emit.note s "return value in %eax") [] :=
    note s (by decide)
  have hbody := (expr s h).bind (hreturn.bind (code s [.ret]))
  exact htitle.bind (hheader.bind hbody)

end Emits

def Function.listing (s : Settings) (f : Function) : List Line :=
  [.directive ".globl" [s.symbolPrefix ++ f.name], .label (s.symbolPrefix ++ f.name)] ++
    (f.body.value.code ++ [Instruction.ret]).map (Instruction.line s.target)

namespace Emit

lemma write_bind_write (a b : List Line) :
    (write a >>= fun _ => write b) = write (a ++ b) := by
  funext ls
  change EStateM.bind (write a) (fun _ => write b) ls = _
  simp [EStateM.bind, write]

lemma code_bind_code (s : Settings) (a b : List Instruction) :
    (code s a >>= fun _ => code s b) = code s (a ++ b) := by
  rw [code, code, code, write_bind_write, List.map_append]

variable {s : Settings}

lemma note_of_plain (hs : s.comments = false) (text : String) : note s text = pure () := by
  rw [note, hs]
  rfl

lemma spilled_of_plain (hs : s.comments = false) (op : BinaryOp) (a b : List Instruction) :
    (do
      noteBinary s (some (.binary op))
      code s a
      code s [.spill]
      code s b
      code s (.reload :: op.code)) = code s (a ++ [.spill] ++ b ++ .reload :: op.code) := by
  rw [noteBinary, note_of_plain hs, pure_bind, code_bind_code, code_bind_code, code_bind_code]
  simp only [List.append_assoc]

lemma tree_expr (hs : s.comments = false) {e : Expr} (h : e.Decimal) :
    tree s e.toTree = code s e.code := by
  induction e with
  | literal l digits =>
    rw [Expr.toTree, tree, literal, wordOfDigits_eq h]
    rfl
  | unary l op x ih =>
    rw [Expr.toTree, tree, ih h]
    exact code_bind_code s x.code op.code
  | binary l op x y ihx ihy =>
    rw [Expr.toTree, tree, ihx h.1, ihy h.2, Expr.code]
    cases op.leftFirst with
    | true => exact spilled_of_plain hs op x.code y.code
    | false => exact spilled_of_plain hs op y.code x.code

lemma tree_function (hs : s.comments = false) {f : Function} (h : f.body.value.Decimal) :
    tree s f.toTree = write (f.listing s) := by
  have hbody : tree s f.body.toTree = code s (f.body.value.code ++ [.ret]) := by
    rw [Return.toTree, tree, tree_expr hs h, note_of_plain hs, pure_bind, code_bind_code]
  rw [Function.toTree, tree, note_of_plain hs, pure_bind, hbody, code, write_bind_write]
  rfl

end Emit

end TinyC

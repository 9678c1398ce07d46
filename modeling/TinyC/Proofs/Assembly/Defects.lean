import Mathlib.Tactic.Common
import TinyC.Assembly.Emit

namespace TinyC

namespace Emit

def Appends (x : Emit Unit) (new : List Line) (fault : Option EmitFault) : Prop :=
  ∀ ls, x ls = match fault with
    | none => .ok () (ls ++ new.toArray)
    | some f => .error f (ls ++ new.toArray)

namespace Appends

variable {x y : Emit Unit} {a b : List Line} {f : EmitFault} {g : Option EmitFault} {ls : Listing}

lemma pure : Appends (Pure.pure ()) [] none := by
  intro ls
  simp only [Array.append_empty]
  rfl

lemma write (new : List Line) : Appends (Emit.write new) new none :=
  fun _ => rfl

lemma fail (f : EmitFault) : Appends (Emit.fail f) [] (some f) := by
  intro ls
  simp only [Array.append_empty]
  rfl

lemma code (s : Settings) (is : List Instruction) :
    Appends (Emit.code s is) (is.map (Instruction.line s.target)) none :=
  write _

lemma note (s : Settings) (text : String) :
    Appends (Emit.note s text) (if s.comments then [.comment text] else []) none := by
  rw [Emit.note]
  split
  · exact write _
  · exact pure

lemma bind (hx : Appends x a none) (hy : Appends y b g) :
    Appends (x >>= fun _ => y) (a ++ b) g := by
  intro ls
  change EStateM.bind x (fun _ => y) ls = _
  rw [EStateM.bind, hx ls, ← List.append_toArray, ← Array.append_assoc]
  exact hy (ls ++ a.toArray)

lemma bind_fault (hx : Appends x a (some f)) (y : Emit Unit) :
    Appends (x >>= fun _ => y) a (some f) := by
  intro ls
  change EStateM.bind x (fun _ => y) ls = _
  rw [EStateM.bind, hx ls]

lemma ok_iff (h : Appends x a g) : (∃ out, x ls = .ok () out) ↔ g = none := by
  rw [h ls]
  cases g with
  | none => simp
  | some f => simp

lemma error_iff (h : Appends x a g) : (∃ out, x ls = .error f out) ↔ g = some f := by
  rw [h ls]
  cases g with
  | none => simp
  | some g => simp

end Appends

def Ends (x : Emit Unit) (fault : Option EmitFault) : Prop :=
  ∃ new, Appends x new fault

lemma Ends.bind {x y : Emit Unit} {f g : Option EmitFault} (hx : Ends x f) (hy : Ends y g) :
    Ends (x >>= fun _ => y) (f.or g) := by
  obtain ⟨a, ha⟩ := hx
  obtain ⟨b, hb⟩ := hy
  cases f with
  | none => exact ⟨_, ha.bind hb⟩
  | some f => exact ⟨_, ha.bind_fault y⟩

end Emit

namespace Tree

/-- The nodes of a tree as emission deals with them. A function and a binary operation come before what
is below them, all else after it. -/
def emissionOrder : Tree → List Tree
  | foreign v => [foreign v]
  | blank l => [blank l]
  | literal l v => [literal l v]
  | unary l op x => x.emissionOrder ++ [unary l op x]
  | binary l op x y =>
    binary l op x y ::
      if op = some (.binary .subtract) ∨ op = some (.binary .divide) then
        y.emissionOrder ++ x.emissionOrder
      else x.emissionOrder ++ y.emissionOrder
  | ret l x => x.emissionOrder ++ [ret l x]
  | function l name body => function l name body :: body.emissionOrder

def Sound : Tree → Prop
  | foreign _ => False
  | blank _ => False
  | literal _ v => ∀ c ∈ v.toList, (Text.digitValue? c).isSome
  | unary _ op _ => ∃ u, op = some (.unary u)
  | binary _ op _ _ => ∃ b, op = some (.binary b)
  | ret _ _ => True
  | function _ _ _ => True

inductive Faulty (comments : Bool) : Tree → ErrorClass → EmitFault → Prop
  | foreign (v : Foreign) :
      Faulty comments (foreign v) (.compilation .generation) (.noCode v.typeName none)
  | blank (l : Option Location) :
      Faulty comments (blank l) (.compilation .generation) (.noCode "ASTNode" l)
  | literal {l : Option Location} {v : String} {before after : List Char} {c : Char} :
      v.toList = before ++ c :: after → (∀ d ∈ before, (Text.digitValue? d).isSome) →
      Text.digitValue? c = none → Faulty comments (literal l v) (.plain .value) (.noDigit c)
  | unary {l : Option Location} {op : Option Operator} {x : Tree} :
      (∀ u, op ≠ some (.unary u)) →
      Faulty comments (unary l op x) (.compilation .generation) (.unaryOperator op l)
  | binary {l : Option Location} {op : Option Operator} {x y : Tree} :
      (∀ b, op ≠ some (.binary b)) → ¬ (comments = true ∧ op = none) →
      Faulty comments (binary l op x y) (.compilation .generation) (.binaryOperator op l)
  | noOperator {l : Option Location} {x y : Tree} :
      comments = true → Faulty comments (binary l none x y) (.plain .noAttribute) .noOperator

def WellFormed (t : Tree) : Prop :=
  ∀ x ∈ t.emissionOrder, x.Sound

def FirstDefect (comments : Bool) (t : Tree) (c : ErrorClass) (f : EmitFault) : Prop :=
  ∃ before x after, t.emissionOrder = before ++ x :: after ∧ (∀ y ∈ before, y.Sound) ∧
    x.Faulty comments c f

def defect? (comments : Bool) : Tree → Option EmitFault
  | foreign v => some (.noCode v.typeName none)
  | blank l => some (.noCode "ASTNode" l)
  | literal _ v => (v.toList.find? fun c => (Text.digitValue? c).isNone).map .noDigit
  | unary _ (some (.unary _)) _ => none
  | unary l op _ => some (.unaryOperator op l)
  | binary _ (some (.binary _)) _ _ => none
  | binary l op _ _ => if comments ∧ op = none then some .noOperator else some (.binaryOperator op l)
  | ret _ _ => none
  | function _ _ _ => none

section

variable {x y : Tree} {l : Option Location} {op : Option Operator} {name : String}

lemma WellFormed.sound {t : Tree} (h : t.WellFormed) : t.Sound := by
  apply h
  cases t <;> simp [emissionOrder]

lemma wellFormed_unary :
    (unary l op x).WellFormed ↔ x.WellFormed ∧ ∃ u, op = some (.unary u) := by
  simp [WellFormed, emissionOrder, or_imp, forall_and, Sound]

lemma wellFormed_ret : (ret l x).WellFormed ↔ x.WellFormed := by
  simp [WellFormed, emissionOrder, or_imp, forall_and, Sound]

lemma wellFormed_function : (function l name x).WellFormed ↔ x.WellFormed := by
  simp [WellFormed, emissionOrder, Sound]

lemma wellFormed_binary : (binary l op x y).WellFormed ↔
    (∃ b, op = some (.binary b)) ∧ x.WellFormed ∧ y.WellFormed := by
  rw [WellFormed, emissionOrder]
  split
  · simp [or_imp, forall_and, Sound, WellFormed, and_comm]
  · simp [or_imp, forall_and, Sound, WellFormed]

end

lemma emissionOrder_binary (l : Option Location) (op : BinaryOp) (x y : Tree) :
    (binary l (some (.binary op)) x y).emissionOrder = binary l (some (.binary op)) x y ::
      ((if op.leftFirst then x else y).emissionOrder ++
        (if op.leftFirst then y else x).emissionOrder) := by
  cases op <;> rfl

variable {comments : Bool} {t : Tree}

lemma defect?_eq_none_iff : defect? comments t = none ↔ t.Sound := by
  fun_cases defect? comments t with
  | case1 v => simp [Sound]
  | case2 l => simp [Sound]
  | case3 l v => simp [Sound, Option.isSome_iff_ne_none]
  | case4 l u x => simp [Sound]
  | case5 l op x hop => simpa [Sound] using hop
  | case6 l b x y => simp [Sound]
  | case7 l op x y hop => simpa [Sound] using hop
  | case8 l op x y hop => simpa [Sound] using hop
  | case9 l x => simp [Sound]
  | case10 l name body => simp [Sound]

lemma faulty_of_defect? {f : EmitFault} :
    defect? comments t = some f → t.Faulty comments f.errorClass f := by
  fun_cases defect? comments t with
  | case1 v =>
    rintro ⟨⟩
    exact .foreign v
  | case2 l =>
    rintro ⟨⟩
    exact .blank l
  | case3 l v =>
    intro h
    obtain ⟨c, hc, rfl⟩ := Option.map_eq_some_iff.mp h
    obtain ⟨hdigit, before, after, hv, hbefore⟩ := List.find?_eq_some_iff_append.mp hc
    exact .literal hv (by simpa using hbefore) (by simpa using hdigit)
  | case4 l u x => exact nofun
  | case5 l op x hop =>
    rintro ⟨⟩
    exact .unary fun u hu => hop u hu
  | case6 l b x y => exact nofun
  | case7 l op x y hop hno =>
    rintro ⟨⟩
    obtain ⟨hc, rfl⟩ := hno
    exact .noOperator hc
  | case8 l op x y hop hno =>
    rintro ⟨⟩
    exact .binary (fun b hb => hop b hb) hno
  | case9 l x => exact nofun
  | case10 l name body => exact nofun

lemma Faulty.errorClass_eq {c : ErrorClass} {f : EmitFault} (h : t.Faulty comments c f) :
    f.errorClass = c := by
  cases h with
  | _ => rfl

lemma Faulty.defect?_eq {c : ErrorClass} {f : EmitFault} (h : t.Faulty comments c f) :
    defect? comments t = some f := by
  cases h with
  | foreign v => rfl
  | blank l => rfl
  | literal hv hbefore hc =>
    refine Option.map_eq_some_iff.mpr ⟨_, List.find?_eq_some_iff_append.mpr ⟨by simp [hc], ?_⟩, rfl⟩
    exact ⟨_, _, hv, by simpa using hbefore⟩
  | @unary l op x hop =>
    rcases op with _ | (u | b)
    · rfl
    · exact absurd rfl (hop u)
    · rfl
  | @binary l op x y hop hno =>
    rcases op with _ | (u | b)
    · exact if_neg hno
    · exact if_neg hno
    · exact absurd rfl (hop b)
  | noOperator hc => exact if_pos ⟨hc, rfl⟩

lemma wellFormed_iff : t.WellFormed ↔ t.emissionOrder.findSome? (defect? comments) = none := by
  rw [List.findSome?_eq_none_iff]
  simp only [WellFormed, defect?_eq_none_iff]

lemma firstDefect_iff {c : ErrorClass} {f : EmitFault} : t.FirstDefect comments c f ↔
    t.emissionOrder.findSome? (defect? comments) = some f ∧ f.errorClass = c := by
  rw [List.findSome?_eq_some_iff]
  constructor
  · rintro ⟨before, x, after, horder, hbefore, hx⟩
    exact ⟨⟨before, x, after, horder, hx.defect?_eq,
      fun y hy => defect?_eq_none_iff.mpr (hbefore y hy)⟩, hx.errorClass_eq⟩
  · rintro ⟨⟨before, x, after, horder, hx, hbefore⟩, rfl⟩
    exact ⟨before, x, after, horder, fun y hy => defect?_eq_none_iff.mp (hbefore y hy),
      faulty_of_defect? hx⟩

end Tree

def addDigit (w : UInt32) (c : Char) : Except Char UInt32 :=
  match Text.digitValue? c with
  | some d => .ok (w * 10 + UInt32.ofNat d)
  | none => .error c

lemma wordOfDigits_eq_foldlM (ds : List Char) : wordOfDigits ds = ds.foldlM addDigit 0 := rfl

lemma foldlM_addDigit {cs : List Char} (h : ∀ c ∈ cs, (Text.digitValue? c).isSome) (n : Nat) :
    cs.foldlM addDigit (UInt32.ofNat n) =
      .ok (UInt32.ofNat ((cs.filterMap Text.digitValue?).foldl (fun k d => 10 * k + d) n)) := by
  induction cs generalizing n with
  | nil => rfl
  | cons c cs ih =>
    obtain ⟨d, hd⟩ := Option.isSome_iff_exists.mp (h c List.mem_cons_self)
    have hstep : addDigit (UInt32.ofNat n) c = .ok (UInt32.ofNat (10 * n + d)) := by
      rw [addDigit, hd, UInt32.ofNat_add, UInt32.ofNat_mul, UInt32.mul_comm]
      rfl
    rw [List.foldlM_cons, hstep, List.filterMap_cons_some hd, List.foldl_cons]
    exact ih (fun e he => h e (List.mem_cons_of_mem c he)) (10 * n + d)

lemma wordOfDigits_eq_ok {cs : List Char} (h : ∀ c ∈ cs, (Text.digitValue? c).isSome) :
    wordOfDigits cs =
      .ok (UInt32.ofNat ((cs.filterMap Text.digitValue?).foldl (fun k d => 10 * k + d) 0)) :=
  foldlM_addDigit h 0

lemma wordOfDigits_error {before after : List Char} {c : Char}
    (h : ∀ d ∈ before, (Text.digitValue? d).isSome) (hc : Text.digitValue? c = none) :
    wordOfDigits (before ++ c :: after) = .error c := by
  have hbefore : before.foldlM addDigit 0 = .ok _ := wordOfDigits_eq_ok h
  rw [wordOfDigits_eq_foldlM, List.foldlM_append, hbefore]
  change (c :: after).foldlM addDigit _ = .error c
  rw [List.foldlM_cons, addDigit, hc]
  rfl

namespace Emit

lemma ends_literal (s : Settings) (l : Option Location) (v : String) :
    Ends (literal s v) (Tree.defect? s.comments (.literal l v)) := by
  rw [literal, Tree.defect?]
  cases hfind : v.toList.find? fun c => (Text.digitValue? c).isNone with
  | none =>
    have hdigits : ∀ c ∈ v.toList, (Text.digitValue? c).isSome := by
      simpa [Option.isSome_iff_ne_none] using hfind
    rw [wordOfDigits_eq_ok hdigits]
    exact ⟨_, .code s [.load _]⟩
  | some c =>
    obtain ⟨hc, before, after, hv, hbefore⟩ := List.find?_eq_some_iff_append.mp hfind
    rw [hv, wordOfDigits_error (by simpa using hbefore) (by simpa using hc)]
    exact ⟨_, .fail _⟩

lemma Ends.spilled {x y : Emit Unit} {f g : Option EmitFault} (s : Settings) (op : BinaryOp)
    (hx : Ends x f) (hy : Ends y g) :
    Ends (do
      noteBinary s (some (.binary op))
      x
      code s [.spill]
      y
      code s (.reload :: op.code)) (f.or g) := by
  have htitle : Ends (noteBinary s (some (.binary op))) none := ⟨_, .note s _⟩
  have hfinish := hy.bind ⟨_, .code s (.reload :: op.code)⟩
  rw [Option.or_none] at hfinish
  exact htitle.bind (hx.bind (Ends.bind ⟨_, .code s [.spill]⟩ hfinish))

lemma tree_binary (s : Settings) (l : Option Location) (op : BinaryOp) (x y : Tree) :
    tree s (.binary l (some (.binary op)) x y) = (do
      noteBinary s (some (.binary op))
      tree s (if op.leftFirst then x else y)
      code s [.spill]
      tree s (if op.leftFirst then y else x)
      code s (.reload :: op.code)) := by
  rw [tree]
  cases op.leftFirst <;> rfl

lemma ends_badOperator (s : Settings) {l : Option Location} {op : Option Operator} {x y : Tree}
    (hop : ∀ b, op ≠ some (.binary b)) :
    ∃ f, Tree.defect? s.comments (.binary l op x y) = some f ∧
      Ends (tree s (.binary l op x y)) (some f) := by
  rcases op with _ | (u | b)
  · have htree : tree s (.binary l none x y) =
        (if s.comments then fail .noOperator else pure ()) >>= fun _ =>
          fail (.binaryOperator none l) := rfl
    rw [htree]
    cases hc : s.comments with
    | true => exact ⟨.noOperator, rfl, _, (Appends.fail _).bind_fault _⟩
    | false => exact ⟨.binaryOperator none l, rfl, _, Appends.pure.bind (.fail _)⟩
  · exact ⟨.binaryOperator (some (.unary u)) l, if_neg nofun, _, (Appends.note s _).bind (.fail _)⟩
  · exact absurd rfl (hop b)

lemma ends_tree (s : Settings) (t : Tree) :
    Ends (tree s t) (t.emissionOrder.findSome? (Tree.defect? s.comments)) := by
  induction t with
  | foreign v => exact ⟨_, .fail _⟩
  | blank l => exact ⟨_, .fail _⟩
  | literal l v =>
    rw [tree, Tree.emissionOrder, List.findSome?_singleton]
    exact ends_literal s l v
  | unary l op x ih =>
    rw [Tree.emissionOrder, List.findSome?_append, List.findSome?_singleton]
    -- the operator is looked at when the operand is done, so the operand's fault comes first
    rcases op with _ | (u | b)
    · exact ih.bind ⟨_, .fail _⟩
    · exact ih.bind ⟨_, .code s u.code⟩
    · exact ih.bind ⟨_, .fail _⟩
  | binary l op x y ihx ihy =>
    by_cases hop : ∃ b, op = some (.binary b)
    · obtain ⟨b, rfl⟩ := hop
      rw [tree_binary, Tree.emissionOrder_binary, List.findSome?_cons, Tree.defect?,
        List.findSome?_append]
      cases b.leftFirst with
      | true => exact ihx.spilled s b ihy
      | false => exact ihy.spilled s b ihx
    · -- a wrong operator ends the emission before any operand
      obtain ⟨f, hf, hends⟩ := ends_badOperator s (l := l) (x := x) (y := y) (not_exists.mp hop)
      rw [Tree.emissionOrder, List.findSome?_cons, hf]
      exact hends
  | ret l x ih =>
    rw [Tree.emissionOrder, List.findSome?_append, List.findSome?_singleton]
    exact ih.bind ⟨_, (Appends.note s _).bind (.code s [.ret])⟩
  | function l name body ih =>
    rw [Tree.emissionOrder, List.findSome?_cons]
    have htitle : Ends (note s ("Function: " ++ name)) none := ⟨_, .note s _⟩
    exact htitle.bind (Ends.bind ⟨_, .write _⟩ ih)

lemma tree_ok_iff {s : Settings} {t : Tree} {ls : Listing} :
    (∃ out, tree s t ls = .ok () out) ↔ t.WellFormed := by
  obtain ⟨new, hnew⟩ := ends_tree s t
  rw [hnew.ok_iff, Tree.wellFormed_iff]

lemma tree_error_iff {s : Settings} {t : Tree} {ls : Listing} {c : ErrorClass} {f : EmitFault} :
    (∃ out, tree s t ls = .error f out) ∧ f.errorClass = c ↔ t.FirstDefect s.comments c f := by
  obtain ⟨new, hnew⟩ := ends_tree s t
  rw [hnew.error_iff, Tree.firstDefect_iff]

end Emit

/-- Emission succeeds exactly for trees without a defect: all nodes are of a sort that has code, all
operators have the right arity and all literals consist of digits. For any other tree it fails with
the first defect in its order, by an error of the class that the defect has. -/
theorem emission_reports_first_defect (s : Settings) (t : Tree) (ls : Listing) :
    ((∃ out, Emit.tree s t ls = .ok () out) ↔ t.WellFormed) ∧
      (¬ t.WellFormed → ∃ c f, t.FirstDefect s.comments c f) ∧
      ∀ c f, (∃ out, Emit.tree s t ls = .error f out) ∧ f.errorClass = c ↔
        t.FirstDefect s.comments c f := by
  refine ⟨Emit.tree_ok_iff, fun ht => ?_, fun c f => Emit.tree_error_iff⟩
  cases h : Emit.tree s t ls with
  | ok u out => exact absurd (Emit.tree_ok_iff.mp ⟨out, h⟩) ht
  | error f out => exact ⟨f.errorClass, f, Emit.tree_error_iff.mp ⟨⟨out, h⟩, rfl⟩⟩

end TinyC

import Mathlib.Tactic.Common
import TinyC.Assembly.Session
import TinyC.Proofs.Assembly.Defects

namespace TinyC

namespace EmitRequest

def leave (s : Settings) (q : EmitRequest) (ls : Listing) : Listing :=
  match q.perform s ls with
  | .ok _ out => out
  | .error _ out => out

def lines (s : Settings) (q : EmitRequest) : List Line :=
  (q.leave s #[]).toList

def fault? (s : Settings) (q : EmitRequest) : Option EmitFault :=
  match q.perform s #[] with
  | .ok _ _ => none
  | .error f _ => some f

def reply : EmitRequest → Listing → Option String
  | generate _, out => some out.text
  | text, out => some out.text
  | _, _ => none

def Appends (s : Settings) (q : EmitRequest) (new : List Line) (fault : Option EmitFault) : Prop :=
  ∀ ls, q.perform s ls = match fault with
    | none => .ok (q.reply (ls ++ new.toArray)) (ls ++ new.toArray)
    | some f => .error f (ls ++ new.toArray)

namespace Appends

variable {s : Settings} {q : EmitRequest} {new : List Line} {fault : Option EmitFault}

lemma leave_eq (h : q.Appends s new fault) (ls : Listing) : q.leave s ls = ls ++ new.toArray := by
  rw [leave, h ls]
  cases fault with
  | none => rfl
  | some f => rfl

lemma lines_eq (h : q.Appends s new fault) : q.lines s = new := by
  rw [lines, h.leave_eq]
  simp

lemma fault?_eq (h : q.Appends s new fault) : q.fault? s = fault := by
  rw [fault?, h #[]]
  cases fault with
  | none => rfl
  | some f => rfl

lemma of_bind {x : Emit Unit} (hx : Emit.Appends x new fault)
    (hq : q.perform s = do
      x
      return q.reply (← get)) : q.Appends s new fault := by
  intro ls
  rw [hq]
  change EStateM.bind x _ ls = _
  rw [EStateM.bind, hx ls]
  cases fault with
  | none => rfl
  | some f => rfl

lemma of_pure (hq : q.perform s = do return q.reply (← get)) : q.Appends s [] none := by
  apply of_bind .pure
  rw [hq]
  rfl

end Appends

lemma appends_tree (s : Settings) (t : Tree) :
    ∃ new fault, Emit.Appends (Emit.tree s t) new fault := by
  obtain ⟨new, hnew⟩ := Emit.ends_tree s t
  exact ⟨new, _, hnew⟩

lemma exists_appends (s : Settings) (q : EmitRequest) : ∃ new fault, q.Appends s new fault := by
  cases q with
  | generate t =>
    obtain ⟨new, fault, h⟩ := appends_tree s t
    exact ⟨new, fault, .of_bind h rfl⟩
  | tree t =>
    obtain ⟨new, fault, h⟩ := appends_tree s t
    exact ⟨new, fault, .of_bind h rfl⟩
  | plainTree t =>
    obtain ⟨new, fault, h⟩ := appends_tree {} t
    cases t with
    | foreign v => exact ⟨[], some _, .of_bind (Emit.Appends.fail (.noNode v.typeName)) rfl⟩
    | _ => exact ⟨new, fault, .of_bind h rfl⟩
  | line l => exact ⟨[l], none, .of_bind (.write [l]) rfl⟩
  | text => exact ⟨[], none, .of_pure rfl⟩

lemma appends_lines (s : Settings) (q : EmitRequest) : q.Appends s (q.lines s) (q.fault? s) := by
  obtain ⟨new, fault, h⟩ := exists_appends s q
  rw [h.lines_eq, h.fault?_eq]
  exact h

lemma lines_line (s : Settings) (l : Line) : (line l).lines s = [l] ∧ (line l).fault? s = none := by
  have h : (line l).Appends s [l] none := .of_bind (.write [l]) rfl
  exact ⟨h.lines_eq, h.fault?_eq⟩

lemma lines_text (s : Settings) : text.lines s = [] ∧ text.fault? s = none := by
  have h : text.Appends s [] none := .of_pure rfl
  exact ⟨h.lines_eq, h.fault?_eq⟩

lemma lines_plainTree (s : Settings) (t : Tree) :
    (plainTree t).lines s = (tree t).lines {} ∧
      (plainTree t).fault? s = match t with
        | .foreign v => some (.noNode v.typeName)
        | _ => (tree t).fault? {} := by
  cases t with
  | foreign v => exact ⟨rfl, rfl⟩
  | _ => exact ⟨rfl, rfl⟩

end EmitRequest

def Listing.run (ls : Listing) (qs : List (Settings × EmitRequest)) : Listing :=
  qs.foldl (fun ls p => p.2.leave p.1 ls) ls

namespace Listing

lemma toList_run (ls : Listing) (qs : List (Settings × EmitRequest)) :
    (ls.run qs).toList = ls.toList ++ qs.flatMap fun p => p.2.lines p.1 := by
  induction qs generalizing ls with
  | nil => simp [run]
  | cons p qs ih =>
    have hrun : ls.run (p :: qs) = (p.2.leave p.1 ls).run qs := rfl
    rw [hrun, ih, (p.2.appends_lines p.1).leave_eq, List.flatMap_cons]
    simp

lemma toList_text (ls : Listing) :
    ls.text.toList = ls.toList.flatMap fun l => l.text.toList ++ ['\n'] := by
  rw [text]
  induction ls.toList with
  | nil => rfl
  | cons l ls ih => simp [ih]

/-- A listing holds what each of the requests before would write to an empty one, in their order. A
further request leaves that as it is; it adds, and it fails, as if the listing were empty, and a text
that it replies with is that of the whole listing. A node that writes itself adds what it adds by the
default settings, whatever the settings are. -/
theorem run_only_appends (ls : Listing) (qs : List (Settings × EmitRequest)) :
    let now := ls.run qs
    now.toList = ls.toList ++ qs.flatMap (fun p => p.2.lines p.1) ∧
      (∀ (s : Settings) (q : EmitRequest), q.perform s now = match q.fault? s with
        | none => .ok (q.reply (now ++ (q.lines s).toArray)) (now ++ (q.lines s).toArray)
        | some f => .error f (now ++ (q.lines s).toArray)) ∧
      (∀ s l, (EmitRequest.line l).lines s = [l] ∧ (EmitRequest.line l).fault? s = none) ∧
      (∀ s, EmitRequest.text.lines s = [] ∧ EmitRequest.text.fault? s = none) ∧
      (∀ s t, (EmitRequest.plainTree t).lines s = (EmitRequest.tree t).lines {} ∧
        (EmitRequest.plainTree t).fault? s = match t with
          | .foreign v => some (.noNode v.typeName)
          | _ => (EmitRequest.tree t).fault? {}) ∧
      now.text.toList = now.toList.flatMap fun l => l.text.toList ++ ['\n'] :=
  ⟨ls.toList_run qs, fun s q => q.appends_lines s _, EmitRequest.lines_line,
    EmitRequest.lines_text, EmitRequest.lines_plainTree, (ls.run qs).toList_text⟩

end Listing

end TinyC

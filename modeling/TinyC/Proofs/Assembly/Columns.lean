import Mathlib.Tactic.Common
import TinyC.Proofs.Assembly.Decoding
import TinyC.Proofs.Text.Written

namespace TinyC

namespace Text

def arguments : List Char → List (List Char)
  | [] => [[]]
  | ',' :: ' ' :: s => [] :: arguments s
  | c :: s => (arguments s).modifyHead (c :: ·)

lemma arguments_cons {c : Char} (hc : c ≠ ',') (s : List Char) :
    arguments (c :: s) = (arguments s).modifyHead (c :: ·) := by
  rw [arguments]
  rintro s rfl
  exact absurd rfl hc

lemma arguments_append {a : List Char} (ha : ',' ∉ a) (s : List Char) :
    arguments (a ++ s) = (arguments s).modifyHead (a ++ ·) := by
  induction a with
  | nil => cases h : arguments s <;> simp [h]
  | cons c a ih =>
    rw [List.mem_cons, not_or] at ha
    rw [List.cons_append, arguments_cons (Ne.symm ha.1), ih ha.2, List.modifyHead_modifyHead]
    rfl

lemma arguments_intercalate {xs : List (List Char)} (hne : xs ≠ []) (h : ∀ x ∈ xs, ',' ∉ x) :
    arguments (List.intercalate [',', ' '] xs) = xs := by
  induction xs with
  | nil => exact absurd rfl hne
  | cons x xs ih =>
    have hx := h x List.mem_cons_self
    cases xs with
    | nil =>
      have hargs := arguments_append hx []
      simpa [arguments] using hargs
    | cons y ys =>
      rw [List.intercalate_cons_cons, List.append_assoc, arguments_append hx, List.cons_append,
        List.cons_append, List.nil_append, arguments,
        ih (List.cons_ne_nil _ _) fun z hz => h z (List.mem_cons_of_mem _ hz)]
      simp

end Text

namespace Line

open Text

def IsField (s : String) : Prop :=
  s ≠ "" ∧ ∀ c ∈ s.toList, isSpace c = false ∧ c ≠ ','

instance : DecidablePred IsField := fun s =>
  decidable_of_iff (s ≠ "" ∧ s.toList.all fun c => !isSpace c && decide (c ≠ ','))
    (by simp [IsField])

namespace IsField

variable {s : String}

lemma toList_ne_nil (h : IsField s) : s.toList ≠ [] :=
  fun hs => h.1 (String.toList_eq_nil_iff.mp hs)

lemma ne_blank (h : IsField s) {c : Char} (hc : c ∈ s.toList) : c ≠ ' ' := by
  rintro rfl
  exact absurd (h.2 _ hc).1 (by decide)

lemma comma_notMem (h : IsField s) : ',' ∉ s.toList :=
  fun hc => (h.2 _ hc).2 rfl

end IsField

def read (line : String) : String × List String :=
  let s := line.toList.dropWhile (· = ' ')
  let rest := (s.dropWhile (· ≠ ' ')).dropWhile (· = ' ')
  (.ofList (s.takeWhile (· ≠ ' ')), if rest = [] then [] else (arguments rest).map .ofList)

lemma read_columns {line w : String} {b r : List Char}
    (hline : line.toList = margin.toList ++ (w.toList ++ (b ++ r))) (hne : w ≠ "")
    (hw : ∀ c ∈ w.toList, c ≠ ' ') (hb : ∀ c ∈ b, c = ' ') (hr : ∀ c ∈ r.head?, c ≠ ' ')
    (hbr : b = [] → r = []) :
    read line = (w, if r = [] then [] else (arguments r).map .ofList) := by
  have hmargin : ∀ c ∈ margin.toList, decide (c = ' ') = true := by simp [margin]
  have hstart : ∀ c ∈ (w.toList ++ (b ++ r)).head?, decide (c = ' ') = false := by
    cases hchars : w.toList with
    | nil => exact absurd (String.toList_eq_nil_iff.mp hchars) hne
    | cons c cs => simpa using hw c (by simp [hchars])
  have hword : ∀ c ∈ w.toList, decide (c ≠ ' ') = true := by simpa using hw
  have hafter : ∀ c ∈ (b ++ r).head?, decide (c ≠ ' ') = false := by
    cases b with
    | nil => simp [hbr rfl]
    | cons c b => simpa using hb c List.mem_cons_self
  have hblanks : ∀ c ∈ b, decide (c = ' ') = true := by simpa using hb
  have hrest : ∀ c ∈ r.head?, decide (c = ' ') = false := by simpa using hr
  rw [read, hline, dropWhile_run hmargin hstart]
  simp only [takeWhile_run hword hafter, dropWhile_run hword hafter, dropWhile_run hblanks hrest,
    String.ofList_toList]

section

variable {m o : String} {os : List String}

lemma toList_intercalate_cons (ho : IsField o) (os : List String) :
    ∃ c r, (", ".intercalate (o :: os)).toList = c :: r ∧ c ≠ ' ' := by
  cases hchars : o.toList with
  | nil => exact absurd hchars ho.toList_ne_nil
  | cons c r =>
    have hc : c ≠ ' ' := ho.ne_blank (by simp [hchars])
    cases os with
    | nil => exact ⟨c, r, by simpa using hchars, hc⟩
    | cons x xs =>
      refine ⟨c, r ++ (", " ++ ", ".intercalate (x :: xs)).toList, ?_, hc⟩
      rw [String.intercalate_cons_cons, String.append_assoc, String.toList_append, hchars,
        List.cons_append]

lemma read_word {w : String} (hne : w ≠ "") (hw : ∀ c ∈ w.toList, c ≠ ' ') :
    read (margin ++ w) = (w, []) := by
  have hchars : (margin ++ w).toList = margin.toList ++ (w.toList ++ ([] ++ [])) := by
    simp
  rw [read_columns hchars hne hw (by simp) (by simp) fun _ => rfl, if_pos rfl]

lemma map_arguments_intercalate (hne : os ≠ []) (ho : ∀ x ∈ os, IsField x) :
    (arguments (", ".intercalate os).toList).map String.ofList = os := by
  have hcommas : ∀ x ∈ os.map String.toList, ',' ∉ x :=
    List.forall_mem_map.mpr fun x hx => (ho x hx).comma_notMem
  have hargs := arguments_intercalate (by simpa using hne) hcommas
  rw [String.toList_intercalate]
  simp [hargs, Function.comp_def]

lemma read_append {w : String} (hne : w ≠ "") (hw : ∀ c ∈ w.toList, c ≠ ' ') {n : Nat} (hn : 0 < n)
    (hos : os ≠ []) (ho : ∀ x ∈ os, IsField x) :
    read (margin ++ (w ++ .ofList (List.replicate n ' ')) ++ ", ".intercalate os) = (w, os) := by
  obtain ⟨o, os, rfl⟩ := List.exists_cons_of_ne_nil hos
  obtain ⟨c, r, hr, hc⟩ := toList_intercalate_cons (ho o List.mem_cons_self) os
  have hchars : (margin ++ (w ++ .ofList (List.replicate n ' ')) ++
      ", ".intercalate (o :: os)).toList =
      margin.toList ++ (w.toList ++ (List.replicate n ' ' ++ c :: r)) := by
    rw [String.toList_append, hr]
    simp
  rw [read_columns hchars hne hw (fun _ => List.eq_of_mem_replicate) (by simpa using hc)
    (by simp; omega), if_neg (List.cons_ne_nil _ _), ← hr, map_arguments_intercalate hos ho]

/-- The mnemonic leaves a blank of its column to the operands, if there are any. -/
def Spaced (mnemonic : String) (operands : List String) : Prop :=
  operands = [] ∨ mnemonic.length < 8

lemma read_spaced (h : Spaced m os) (hm : IsField m) (ho : ∀ x ∈ os, IsField x) :
    read (instruction m os).text = (m, os) := by
  cases os with
  | nil => exact read_word hm.1 fun _ => hm.ne_blank
  | cons o os =>
    have hlen : m.length < 8 := h.resolve_left (List.cons_ne_nil _ _)
    exact read_append hm.1 (fun _ => hm.ne_blank) (Nat.sub_pos_of_lt hlen)
      (List.cons_ne_nil _ _) ho

lemma read_unspaced (hlen : 8 ≤ m.length) (hm : IsField m) (ho : ∀ x ∈ o :: os, IsField x) :
    read (instruction m (o :: os)).text = (m ++ o ++ (if os = [] then "" else ","), os) := by
  obtain ⟨ho, hos⟩ := List.forall_mem_cons.mp ho
  have htext : (instruction m (o :: os)).text = margin ++ m ++ ", ".intercalate (o :: os) := by
    simp [text, padded, Nat.sub_eq_zero_of_le hlen]
  have hne (s : String) : m ++ o ++ s ≠ "" := by
    simp [hm.1]
  have hword : ∀ c ∈ (m ++ o).toList, c ≠ ' ' := by
    intro c hc
    rw [String.toList_append, List.mem_append] at hc
    rcases hc with hc | hc
    · exact hm.ne_blank hc
    · exact ho.ne_blank hc
  cases os with
  | nil =>
    have hread := read_word (hne "") (by simpa using hword)
    simpa [htext, String.append_assoc] using hread
  | cons p ps =>
    have hcomma : ∀ c ∈ (m ++ o ++ ",").toList, c ≠ ' ' := by
      rw [String.toList_append]
      exact List.forall_mem_append.mpr ⟨hword, by simp⟩
    have hread := read_append (hne ",") hcomma Nat.one_pos (List.cons_ne_nil p ps) hos
    have hgap : ", " = "," ++ String.ofList (List.replicate 1 ' ') := by decide
    rw [htext, String.intercalate_cons_cons, if_neg (List.cons_ne_nil p ps), ← hread, hgap]
    simp only [String.append_assoc]

end

/-- An instruction is read back from its line exactly if its mnemonic leaves a blank of the column
to the operands. Else the first operand is read as a part of the mnemonic. Different instructions
that leave a blank have different lines. -/
theorem read_instruction {m n : String} {os ps : List String} (hm : IsField m)
    (hos : ∀ o ∈ os, IsField o) (hn : IsField n) (hps : ∀ p ∈ ps, IsField p) :
    (read (instruction m os).text = (m, os) ↔ Spaced m os) ∧
    (∀ o r, os = o :: r → 8 ≤ m.length →
      read (instruction m os).text = (m ++ o ++ (if r = [] then "" else ","), r)) ∧
    (Spaced m os → Spaced n ps → (instruction m os).text = (instruction n ps).text →
      m = n ∧ os = ps) := by
  refine ⟨⟨fun h => ?_, fun h => read_spaced h hm hos⟩, ?_, fun hspm hspn h => ?_⟩
  · by_contra hns
    rw [Spaced, not_or, Nat.not_lt] at hns
    obtain ⟨o, r, rfl⟩ := List.exists_cons_of_ne_nil hns.1
    rw [read_unspaced hns.2 hm hos] at h
    have hlen := congrArg (fun p => p.2.length) h
    simp at hlen
  · rintro o r rfl hlen
    exact read_unspaced hlen hm hos
  · have hread := read_spaced hspm hm hos
    rw [h, read_spaced hspn hn hps] at hread
    exact Prod.mk.inj hread.symm

theorem read_instruction_product :
    read (instruction "imull" ["%ecx", "%eax"]).text = ("imull", ["%ecx", "%eax"]) ∧
      read (instruction "cvttsd2si" []).text = ("cvttsd2si", []) :=
  have hm : IsField "imull" := by decide
  have hos : ∀ o ∈ ["%ecx", "%eax"], IsField o := by decide
  have hn : IsField "cvttsd2si" := by decide
  have hps : ∀ p ∈ [], IsField p := by decide
  ⟨(read_instruction hm hos hn hps).1.mpr (.inr (by decide)),
    (read_instruction hn hps hm hos).1.mpr (.inl rfl)⟩

theorem long_mnemonic_takes_operand :
    (IsField "cvttsd2si" ∧ IsField "%xmm0" ∧ IsField "%eax" ∧ IsField "cvttsd2si%xmm0") ∧
    read (instruction "cvttsd2si" ["%xmm0", "%eax"]).text = ("cvttsd2si%xmm0,", ["%eax"]) ∧
    (instruction "cvttsd2si" ["%xmm0"]).text = (instruction "cvttsd2si%xmm0" []).text := by
  decide

end Line

end TinyC

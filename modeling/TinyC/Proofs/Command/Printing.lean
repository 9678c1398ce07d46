import Mathlib.Tactic.Common
import TinyC.Command.Run
import TinyC.Proofs.Text.Lines
import TinyC.Proofs.Token.Dump
import TinyC.Proofs.Tree.Program

namespace TinyC

open Text

lemma Text.Uncontrolled.echo {s : String} (h : Uncontrolled s) : echo s = s ++ "\n" := by
  rw [TinyC.echo, withoutControls_of_notMem h, String.ofList_toList]

lemma Token.echo_dump (t : Token) : echo t.dump = t.dump ++ "\n" :=
  t.graphic_dump.uncontrolled.echo

namespace Console

variable {c : Console}

/-- Lines of printable characters get through. -/
def Shows (c : Console) : Prop :=
  ∀ out lines, (∀ l ∈ lines, Graphic l) → c.fault? out ("\n".intercalate lines ++ "\n") = none

lemma Shows.line {out s : String} (h : c.Shows) (hs : Graphic s) :
    c.fault? out (s ++ "\n") = none := by
  have hline := h out [s] (List.forall_mem_singleton.mpr hs)
  rwa [String.intercalate_singleton] at hline

lemma printFrom_of_open {texts : List String} (h : ∀ text ∈ texts, ∀ out, c.fault? out text = none)
    (out : String) : c.printFrom out texts = (out ++ String.join texts, none) := by
  induction texts generalizing out with
  | nil => simp [printFrom]
  | cons text texts ih =>
    obtain ⟨htext, htexts⟩ := List.forall_mem_cons.mp h
    simp [printFrom, htext, ih htexts, String.append_assoc]

lemma Shows.print_dumps (h : c.Shows) (ts : List Token) :
    c.print (ts.map fun t => echo t.dump) = (String.join (ts.map fun t => t.dump ++ "\n"), none) := by
  simp only [Token.echo_dump]
  rw [print, printFrom_of_open, String.empty_append]
  intro text htext out
  obtain ⟨t, -, rfl⟩ := List.mem_map.mp htext
  exact h.line t.graphic_dump

end Console

lemma Job.out_runTokens {c : Console} (h : c.Shows) (j : Job) (s : Store) (source : String) :
    (j.runTokens c s source).out =
      String.join ((Cursor.start j.file source).scan.tokens.map fun t => t.dump ++ "\n") := by
  rw [runTokens]
  simp only [h.print_dumps]
  cases (Cursor.start j.file source).scan.fault with
  | none => rfl
  | some f => rfl

/-- Joined by line feeds, the dumps of the tokens of two texts are equal exactly if there are as
many tokens in both texts and each is like its counterpart, at the same line and column. The same
holds of what runs print that show the tokens. -/
theorem token_dumps_eq_iff (file file' source source' : String) :
    ("\n".intercalate ((Cursor.start file source).scan.tokens.map Token.dump) =
        "\n".intercalate ((Cursor.start file' source').scan.tokens.map Token.dump) ↔
      List.Forall₂ Token.Alike (Cursor.start file source).scan.tokens
        (Cursor.start file' source').scan.tokens) ∧
    ∀ (j j' : Job) (s s' : Store),
      ((j.runTokens {} s source).out = (j'.runTokens {} s' source').out ↔
        List.Forall₂ Token.Alike (Cursor.start j.file source).scan.tokens
          (Cursor.start j'.file source').scan.tokens) := by
  have hlines (ts : List Token) : ∀ l ∈ ts.map Token.dump, '\n' ∉ l.toList ∧ l ≠ "" := by
    intro l hl
    obtain ⟨t, -, rfl⟩ := List.mem_map.mp hl
    exact ⟨t.graphic_dump.notMem_newline, t.dump_ne_empty⟩
  constructor
  · rw [← Token.map_dump_eq_iff (Cursor.plain_of_mem_scan _) (Cursor.plain_of_mem_scan _)]
    exact ⟨intercalate_injective (hlines _) (hlines _), congrArg _⟩
  · intro j j' s s'
    rw [← Token.map_dump_eq_iff (Cursor.plain_of_mem_scan _) (Cursor.plain_of_mem_scan _),
      j.out_runTokens fun _ _ _ => rfl, j'.out_runTokens fun _ _ _ => rfl]
    constructor
    · intro h
      apply join_injective (fun l hl => (hlines _ l hl).1) (fun l hl => (hlines _ l hl).1)
      rw [List.map_map, List.map_map]
      exact h
    · intro h
      have hjoin := congrArg (fun ls => String.join (ls.map (· ++ "\n"))) h
      simp only [List.map_map] at hjoin
      exact hjoin

end TinyC

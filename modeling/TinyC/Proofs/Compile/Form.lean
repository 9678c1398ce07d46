import Mathlib.Tactic.Common
import TinyC.Proofs.Compile.Outcome

namespace TinyC

def IsSymbol (s : String) : Prop :=
  (∃ c ∈ s.toList.head?, ¬ c.isDigit) ∧
    ∀ c ∈ s.toList, c.isAlpha ∨ c.isDigit ∨ c ∈ ['_', '.', '$']

inductive ComputingLine : String → Prop
  | load {n : Nat} : n < UInt32.size → ComputingLine ("        movl    $" ++ n.repr ++ ", %eax")
  | negate : ComputingLine "        negl    %eax"
  | complement : ComputingLine "        notl    %eax"
  | compareZero : ComputingLine "        cmpl    $0, %eax"
  | setIfZero : ComputingLine "        sete    %al"
  | spill : ComputingLine "        pushq   %rax"
  | reload : ComputingLine "        popq    %rcx"
  | add : ComputingLine "        addl    %ecx, %eax"
  | subtract : ComputingLine "        subl    %ecx, %eax"
  | multiply : ComputingLine "        imull   %ecx, %eax"
  | signExtend : ComputingLine "        cdq"
  | divide : ComputingLine "        idivl   %ecx"

lemma isSymbol_iff_of_isWord {s : String} (h : Lexis.IsWord s.toList) :
    IsSymbol s ↔ ∀ c ∈ [':', '<', '>'], c ∉ s.toList := by
  obtain ⟨⟨c, hc, hstart⟩, hword⟩ := h
  have hdigit : ¬ c.isDigit := fun hd => Lexis.not_startsWord_of_isDigit hd hstart
  constructor
  · rintro ⟨-, hsymbol⟩ d hd hm
    have hd' := hsymbol d hm
    simp only [List.mem_cons, List.not_mem_nil, or_false] at hd
    rcases hd with rfl | rfl | rfl <;> exact absurd hd' (by decide)
  · intro hn
    refine ⟨⟨c, hc, hdigit⟩, fun d hd => ?_⟩
    rcases hword d hd with halpha | hdigit | hm
    · exact .inl halpha
    · exact .inr (.inl hdigit)
    · rcases List.mem_cons.mp hm with rfl | hm
      · exact .inr (.inr (by simp))
      · exact absurd hd (hn d hm)

lemma Instruction.computingLine {i : Instruction} (h : i ≠ .ret) :
    ComputingLine (i.line .x86_64).text := by
  cases i with
  | load v =>
    have hpadded : Line.padded "movl" = "movl    " := by decide
    have htext : ((load v).line .x86_64).text =
        "        movl    $" ++ v.toNat.repr ++ ", %eax" := by
      rw [← String.toList_inj]
      simp [line, Line.text, Line.margin, hpadded, accumulator]
    rw [htext]
    exact .load v.toNat_lt_size
  | negate => exact .negate
  | complement => exact .complement
  | compareZero => exact .compareZero
  | setIfZero => exact .setIfZero
  | spill => exact .spill
  | reload => exact .reload
  | add => exact .add
  | subtract => exact .subtract
  | multiply => exact .multiply
  | signExtend => exact .signExtend
  | divide => exact .divide
  | ret => exact absurd rfl h

namespace Function

variable {f : Function}

lemma assemble_plain {o : Options} {s : Settings} {r : Reader} {text : String}
    (hs : o.settings? = some s) (hplain : s.comments = false) (hdecimal : f.body.value.Decimal)
    (h : f.assemble o r = .ok text) : text = Listing.text (f.listing s).toArray := by
  rw [assemble, hs] at h
  simp only [Emit.tree_function hplain hdecimal, Emit.write] at h
  split at h
  · cases h
  · simpa using h.symm

lemma single_listing {s : Settings} (h : '\n' ∉ (s.symbolPrefix ++ f.name).toList) {l : Line}
    (hl : l ∈ f.listing s) : '\n' ∉ l.text.toList := by
  rcases List.mem_append.mp hl with hl | hl
  · simp only [List.mem_cons, List.not_mem_nil, or_false] at hl
    rcases hl with rfl | rfl
    · simpa [Line.text, Line.margin] using h
    · simpa [Line.text] using h
  · obtain ⟨i, -, rfl⟩ := List.mem_map.mp hl
    exact i.notMem_newline_line s.target

lemma lines_listing (hname : '\n' ∉ f.name.toList) :
    Text.lines (Listing.text (f.listing {}).toArray).toList =
      (["        .globl " ++ f.name, f.name ++ ":"] ++
        f.body.value.code.map (fun i => (i.line .x86_64).text) ++ ["        ret"]).map
          String.toList ++ [[]] := by
  have hsingle : ∀ l ∈ (f.listing {}).toArray.toList, '\n' ∉ l.text.toList := by
    intro l
    apply single_listing
    simpa using hname
  rw [Listing.lines_text hsingle]
  simp [listing, Line.text, Line.margin, Instruction.line]

end Function

lemma Expr.code_ne_nil (e : Expr) : e.code ≠ [] := by
  induction e with
  | literal l digits => simp [code]
  | unary l op x ih => simp [code, ih]
  | binary l op x y ihx ihy => simp [code]

/-- With default options, compiled code makes a symbol global, labels it and has a line for each
instruction, up to the return at its end. The symbol is the name that stands in the source. That is a
word, and the assembler takes it exactly if no colon and no angle bracket is in it. -/
theorem compile_lines {limit : Nat} {file source : String}
    (h : (compile limit {} file source).success = true) :
    ∃ f body, (compile limit {} file source).program = some f ∧
      Text.lines (compile limit {} file source).assembly.toList =
        (["        .globl " ++ f.name, f.name ++ ":"] ++ body ++ ["        ret"]).map
          String.toList ++ [[]] ∧
      body ≠ [] ∧ (∀ l ∈ body, ComputingLine l) ∧ Lexis.IsWord f.name.toList ∧
      (IsSymbol f.name ↔ ∀ c ∈ [':', '<', '>'], c ∉ f.name.toList) := by
  obtain ⟨r, f, q, text, hr, hf, ha, hprogram, hassembly⟩ := compile_success h
  have hlegible : Legible limit file source f := legible_iff.mpr ((parse_eq_ok_iff hr).mpr ⟨q, hf⟩)
  have hword := hlegible.isWord_name
  have htext := Function.assemble_plain (s := {}) rfl rfl hlegible.decimal ha
  refine ⟨f, f.body.value.code.map fun i => (i.line .x86_64).text, hprogram, ?_, ?_, ?_, hword,
    isSymbol_iff_of_isWord hword⟩
  · rw [hassembly, htext]
    exact f.lines_listing hword.notMem_newline
  · simpa using f.body.value.code_ne_nil
  · intro l hl
    obtain ⟨i, hi, rfl⟩ := List.mem_map.mp hl
    apply Instruction.computingLine
    rintro rfl
    exact f.body.value.ret_notMem_code hi

theorem compile_lines_product :
    let c := compile 1000 {} "a.c" "int _f2(){return -3 * !4;}"
    c.success = true ∧ IsSymbol "_f2" ∧ ∃ body, (∀ l ∈ body, ComputingLine l) ∧
      Text.lines c.assembly.toList =
        (["        .globl _f2", "_f2:"] ++ body ++ ["        ret"]).map String.toList ++ [[]] := by
  intro c
  have hs : c.success = true := by decide +kernel
  have hname : c.program.map Function.name = some "_f2" := by decide +kernel
  obtain ⟨f, body, hf, hlines, -, hbody, -, hsymbol⟩ := compile_lines hs
  have hf2 : f.name = "_f2" := by simpa [c, hf] using hname
  rw [hf2] at hlines hsymbol
  exact ⟨hs, hsymbol.mpr (by simp), body, hbody, hlines⟩

theorem compiled_symbol_with_colon :
    let c := compile 1000 {} "<input>" "int a:b(){return 2;}"
    c.success = true ∧ ¬ ∃ symbol rest, IsSymbol symbol ∧
      Text.lines c.assembly.toList =
        ("        .globl " ++ symbol).toList :: (symbol ++ ":").toList :: rest := by
  intro c
  have hs : c.success = true := by decide +kernel
  have hhead : (Text.lines c.assembly.toList).head? = some "        .globl a:b".toList := by
    decide +kernel
  refine ⟨hs, ?_⟩
  rintro ⟨symbol, rest, hsymbol, hlines⟩
  have htext : "        .globl ".toList ++ symbol.toList =
      "        .globl ".toList ++ "a:b".toList := by
    simpa [hlines] using hhead
  obtain rfl := String.toList_inj.mp (List.append_cancel_left htext)
  exact absurd (hsymbol.2 ':' (by simp)) (by decide)

end TinyC

import Mathlib.Tactic.Common
import TinyC.Proofs.Parse.Acceptance
import TinyC.Proofs.Token.Layout
import TinyC.Proofs.Tree.Sameness

namespace TinyC

namespace Expr

def root? : Expr → Option BinaryOp
  | binary _ op _ _ => some op
  | _ => none

def Numeric : Expr → Prop
  | literal _ ds => ds ≠ "" ∧ ∀ c ∈ ds.toList, c.isDigit
  | unary _ _ x => x.Numeric
  | binary _ _ x y => x.Numeric ∧ y.Numeric

end Expr

namespace BinaryOp

def enclosesLeft (op : BinaryOp) (x : Expr) : Bool :=
  x.root?.any fun o => o.isAdditive && !op.isAdditive

def enclosesRight (op : BinaryOp) (y : Expr) : Bool :=
  op.enclosesLeft y || y.root?.any fun o => o.isAdditive == op.isAdditive

def leftPart (op : BinaryOp) : Part :=
  if op.isAdditive then .expression else .term

def rightPart (op : BinaryOp) : Part :=
  if op.isAdditive then .term else .factor

end BinaryOp

def enclose (b : Bool) (ls : List Lexeme) : List Lexeme :=
  if b then ⟨.openParen, "("⟩ :: (ls ++ [⟨.closeParen, ")"⟩]) else ls

def enclosedWeight (b : Bool) (n : Nat) : Nat :=
  if b then n + 5 else n

namespace Expr

def render : Expr → List Lexeme
  | literal _ ds => [⟨.intLiteral, ds⟩]
  | unary _ op x => ⟨.operator, op.symbol⟩ :: enclose x.root?.isSome x.render
  | binary _ op x y =>
    enclose (op.enclosesLeft x) x.render ++
      ⟨.operator, op.symbol⟩ :: enclose (op.enclosesRight y) y.render

def readingWeight : Expr → Nat
  | literal _ _ => 0
  | unary _ _ x => enclosedWeight x.root?.isSome x.readingWeight + 1
  | binary _ op x y =>
    max (enclosedWeight (op.enclosesLeft x) x.readingWeight)
      (enclosedWeight (op.enclosesRight y) y.readingWeight)

def part : Expr → Part
  | binary _ op _ _ => op.leftPart
  | _ => .factor

end Expr

def Part.rank : Part → Nat
  | factor => 0
  | term => 1
  | expression => 2

namespace BinaryOp

variable {op : BinaryOp} {x : Expr}

lemma rank_part_le_of_enclosesLeft (h : op.enclosesLeft x = false) :
    x.part.rank ≤ op.leftPart.rank := by
  cases x with
  | literal => exact Nat.zero_le _
  | unary => exact Nat.zero_le _
  | binary l o y z =>
    change (o.isAdditive && !op.isAdditive) = false at h
    change o.leftPart.rank ≤ op.leftPart.rank
    revert h
    cases op <;> cases o <;> decide

lemma rank_part_le_of_enclosesRight (h : op.enclosesRight x = false) :
    x.part.rank ≤ op.rightPart.rank := by
  cases x with
  | literal => exact Nat.zero_le _
  | unary => exact Nat.zero_le _
  | binary l o y z =>
    change ((o.isAdditive && !op.isAdditive) || o.isAdditive == op.isAdditive) = false at h
    change o.leftPart.rank ≤ op.rightPart.rank
    revert h
    cases op <;> cases o <;> decide

end BinaryOp

open Grammar ExprState

namespace ExprState.Travels

variable {p q : Part} {t : Token} {ts us : List Token} {x y : Expr} {m n : Nat}

lemma mono (h : Travels p ts x n) (hpq : p.rank ≤ q.rank) : Travels q ts x n := by
  cases p with
  | factor =>
    cases q with
    | factor => exact h
    | term => exact h.factor
    | expression => exact h.factor.term
  | term =>
    cases q with
    | factor => simp [Part.rank] at hpq
    | term => exact h
    | expression => exact h.term
  | expression =>
    cases q with
    | factor => simp [Part.rank] at hpq
    | term => simp [Part.rank] at hpq
    | expression => exact h

lemma binary {op : BinaryOp} (h : Travels op.leftPart ts x m)
    (ht : t.lexeme = ⟨.operator, op.symbol⟩) (h' : Travels op.rightPart us y n) :
    Travels op.leftPart (ts ++ t :: us) (.binary t.location op x y) (max m n) := by
  rcases additive_or_multiplicative ht with ⟨ha, ht⟩ | ⟨ha, ht⟩
  · simp only [BinaryOp.leftPart, BinaryOp.rightPart, ha] at h h' ⊢
    exact h.sum ht h'
  · simp only [BinaryOp.leftPart, BinaryOp.rightPart, ha] at h h' ⊢
    exact h.product ht h'

end ExprState.Travels

def Reads (p : Part) (ls : List Lexeme) (e : Expr) (n : Nat) : Prop :=
  ∀ ts : List Token, ts.map Token.lexeme = ls →
    ∃ x : Expr, x.toTree.unplaced = e.toTree.unplaced ∧ Travels p ts x n

namespace Reads

variable {p q : Part} {ls ms : List Lexeme} {x y : Expr} {m n : Nat}

lemma literal {ds : String} (hd : ∀ c ∈ ds.toList, c.isDigit) (l : Location) :
    Reads .factor [⟨.intLiteral, ds⟩] (.literal l ds) 0 := by
  intro ts hts
  obtain ⟨t, rfl, ht⟩ := List.map_eq_singleton_iff.mp hts
  have htext : t.text = ds := congrArg Lexeme.text ht
  subst htext
  have hp : '.' ∉ t.text.toList := fun h => absurd (hd _ h) (by decide)
  exact ⟨.literal t.location t.text, rfl, .literal (congrArg Lexeme.kind ht) hp⟩

lemma unary (h : Reads .factor ls x n) (op : UnaryOp) (l : Location) :
    Reads .factor (⟨.operator, op.symbol⟩ :: ls) (.unary l op x) (n + 1) := by
  intro ts hts
  obtain ⟨t, us, rfl, ht, hus⟩ := List.map_eq_cons_iff.mp hts
  obtain ⟨x', hx', htr⟩ := h us hus
  refine ⟨_, ?_, htr.unary (unary_of_lexeme ht)⟩
  simp only [Expr.toTree, Tree.unplaced, hx']

lemma binary {op : BinaryOp} (h : Reads op.leftPart ls x m) (h' : Reads op.rightPart ms y n)
    (l : Location) :
    Reads op.leftPart (ls ++ ⟨.operator, op.symbol⟩ :: ms) (.binary l op x y) (max m n) := by
  intro ts hts
  obtain ⟨us, vs, rfl, hus, hvs⟩ := List.map_eq_append_iff.mp hts
  obtain ⟨t, vs, rfl, ht, hvs⟩ := List.map_eq_cons_iff.mp hvs
  obtain ⟨x', hx', htr⟩ := h us hus
  obtain ⟨y', hy', htr'⟩ := h' vs hvs
  refine ⟨_, ?_, htr.binary ht htr'⟩
  simp only [Expr.toTree, Tree.unplaced, hx', hy']

lemma mono (h : Reads p ls x n) (hpq : p.rank ≤ q.rank) : Reads q ls x n := by
  intro ts hts
  obtain ⟨x', hx', htr⟩ := h ts hts
  exact ⟨x', hx', htr.mono hpq⟩

lemma parens (h : Reads .expression ls x n) :
    Reads .factor (⟨.openParen, "("⟩ :: (ls ++ [⟨.closeParen, ")"⟩])) x (n + 5) := by
  intro ts hts
  obtain ⟨o, rest, rfl, ho, hrest⟩ := List.map_eq_cons_iff.mp hts
  obtain ⟨us, vs, rfl, hus, hvs⟩ := List.map_eq_append_iff.mp hrest
  obtain ⟨c, rfl, hc⟩ := List.map_eq_singleton_iff.mp hvs
  obtain ⟨x', hx', htr⟩ := h us hus
  exact ⟨x', hx', htr.parens (congrArg Lexeme.kind ho) (congrArg Lexeme.kind hc)⟩

lemma enclose {b : Bool} (h : Reads p ls x n) (hb : b = false → p.rank ≤ q.rank) :
    Reads q (enclose b ls) x (enclosedWeight b n) := by
  cases b with
  | false => exact h.mono (hb rfl)
  | true =>
    have hp : p.rank ≤ Part.expression.rank := by cases p <;> decide
    exact (h.mono hp).parens.mono (Nat.zero_le _)

end Reads

lemma Expr.rank_part_eq_zero {x : Expr} (h : x.root?.isSome = false) : x.part.rank = 0 := by
  cases x with
  | literal => rfl
  | unary => rfl
  | binary => cases h

lemma Expr.render_reads {e : Expr} (h : e.Numeric) : Reads e.part e.render e e.readingWeight := by
  induction e with
  | literal l ds => exact .literal h.2 l
  | unary l op x ih =>
    exact ((ih h).enclose fun hb => Nat.le_of_eq (rank_part_eq_zero hb)).unary op l
  | binary l op x y ihx ihy =>
    exact ((ihx h.1).enclose BinaryOp.rank_part_le_of_enclosesLeft).binary
      ((ihy h.2).enclose BinaryOp.rank_part_le_of_enclosesRight) l

namespace Lexis

lemma valid_unary (op : UnaryOp) : Valid ⟨.operator, op.symbol⟩ := by
  cases op <;> exact valid_of_ofChars (by decide)

lemma valid_binary (op : BinaryOp) : Valid ⟨.operator, op.symbol⟩ := by
  cases op <;> exact valid_of_ofChars (by decide)

lemma valid_number {ds : String} (hne : ds ≠ "") (hd : ∀ c ∈ ds.toList, c.isDigit) :
    Valid ⟨.intLiteral, ds⟩ := by
  have hl := longest_digits (r := []) (by simpa using hne) hd (by simp)
  refine ⟨ds.toList ++ [], .number hl fun h => ?_⟩
  cases append_singleton_prefix_iff.mp h

lemma valid_name {name : String} (hw : IsWord name.toList)
    (hk : name ∉ ["return", "int", "float"]) : Valid ⟨.identifier, name⟩ := by
  refine ⟨name.toList ++ [], .identifier (hw.longest (by simp)) ?_⟩
  rw [String.ofList_toList]
  exact hk

end Lexis

open Lexis

structure Tight (ls : List Lexeme) : Prop where
  valid : ∀ l ∈ ls, Valid l
  apart : ls.IsChain fun l m => l.kind.merges m.kind = false

namespace Tight

variable {ls ms : List Lexeme} {l : Lexeme}

lemma single (h : Valid l) : Tight [l] where
  valid := by simpa using h
  apart := .singleton l

lemma nil : Tight [] where
  valid := by simp
  apart := .nil

lemma insert {k : Kind} {text : String} (h : Tight ls) (hl : Valid ⟨k, text⟩)
    (hk : k ∉ [.keyword, .identifier, .intLiteral]) (h' : Tight ms) :
    Tight (ls ++ ⟨k, text⟩ :: ms) := by
  -- what is no word and no number merges with neither neighbour
  have hleft (j : Kind) : j.merges k = false := by
    simp only [List.mem_cons, List.not_mem_nil, or_false, not_or] at hk
    cases j <;> simp [Kind.merges, hk]
  have hright (j : Kind) : k.merges j = false := by
    revert hk
    cases k <;> simp [Kind.merges]
  constructor
  · intro m hm
    rw [List.mem_append, List.mem_cons] at hm
    rcases hm with hm | rfl | hm
    · exact h.valid m hm
    · exact hl
    · exact h'.valid m hm
  · apply h.apart.append
    · exact h'.apart.cons fun m _ => hright m.kind
    · rintro m _ _ ⟨⟩
      exact hleft m.kind

lemma spaced {ps : List (List Char × Lexeme)} (h : Tight (ps.map Prod.snd))
    (hb : ∀ p ∈ ps, ∀ c ∈ p.1, IsBlank c) : Spaced ps where
  valid p hp := h.valid p.2 (List.mem_map_of_mem hp)
  blank := hb
  apart := by
    apply ((List.isChain_map Prod.snd).mp h.apart).imp
    intro p q hpq hm
    rw [hpq] at hm
    cases hm

lemma enclose (h : Tight ls) (b : Bool) : Tight (enclose b ls) := by
  cases b with
  | false => exact h
  | true =>
    have hc : Tight (ls ++ [⟨.closeParen, ")"⟩]) :=
      h.insert (valid_of_ofChars (by decide)) (by decide) nil
    exact nil.insert (valid_of_ofChars (by decide)) (by decide) hc

end Tight

lemma Expr.render_tight {e : Expr} (h : e.Numeric) : Tight e.render := by
  induction e with
  | literal l ds => exact .single (valid_number h.1 h.2)
  | unary l op x ih => exact Tight.nil.insert (valid_unary op) (by decide) ((ih h).enclose _)
  | binary l op x y ihx ihy =>
    exact ((ihx h.1).enclose _).insert (valid_binary op) (by decide) ((ihy h.2).enclose _)

lemma Expr.render_ne_nil (e : Expr) : e.render ≠ [] := by
  cases e <;> simp [render]

def opening (name : String) : List (List Char × Lexeme) :=
  [([], ⟨.keyword, "int"⟩), ([' '], ⟨.identifier, name⟩), ([], ⟨.openParen, "("⟩),
    ([], ⟨.closeParen, ")"⟩), ([], ⟨.openBrace, "\x7b"⟩), ([], ⟨.keyword, "return"⟩)]

def closing : List (List Char × Lexeme) :=
  [([], ⟨.semicolon, ";"⟩), ([], ⟨.closeBrace, "\x7d"⟩)]

lemma opening_spaced {name : String} (hw : IsWord name.toList)
    (hk : name ∉ ["return", "int", "float"]) : Spaced (opening name) where
  valid := by
    simp only [opening, List.forall_mem_cons]
    refine ⟨valid_of_ofChars (by decide), valid_name hw hk, valid_of_ofChars (by decide),
      valid_of_ofChars (by decide), valid_of_ofChars (by decide), valid_of_ofChars (by decide),
      by simp⟩
  blank := by simp [opening, IsBlank]
  apart := by simp [opening, Kind.merges]

lemma spaced_text {name : String} {e : Expr} {ps : List (List Char × Lexeme)}
    (hw : IsWord name.toList) (hk : name ∉ ["return", "int", "float"]) (he : e.Numeric)
    (hps : ps.map Prod.snd = e.render) (hb : ∀ p ∈ ps, ∀ c ∈ p.1, IsBlank c) :
    ∃ qs, Spaced qs ∧
      qs.map Prod.snd = (opening name).map Prod.snd ++ e.render ++ closing.map Prod.snd ∧
      layout qs =
        ("int " ++ name ++ "()\x7breturn " ++ String.ofList (layout ps) ++ ";\x7d").toList := by
  have ht : Tight (e.render ++ closing.map Prod.snd) :=
    (Expr.render_tight he).insert (valid_of_ofChars (by decide)) (by decide)
      (.single (valid_of_ofChars (by decide)))
  cases ps with
  | nil => exact absurd hps.symm e.render_ne_nil
  | cons p ps =>
    obtain ⟨g, l⟩ := p
    -- the blank behind the keyword belongs to the first gap, which may be empty otherwise
    refine ⟨opening name ++ ((' ' :: g, l) :: ps ++ closing), ?_, ?_, ?_⟩
    · apply (opening_spaced hw hk).append
      · apply Tight.spaced
        · simpa [← hps] using ht
        · obtain ⟨hg, hb⟩ := List.forall_mem_cons.mp hb
          have hg' : ∀ c ∈ ' ' :: g, IsBlank c := List.forall_mem_cons.mpr ⟨by simp [IsBlank], hg⟩
          rw [List.forall_mem_append]
          exact ⟨List.forall_mem_cons.mpr ⟨hg', hb⟩, by simp [closing]⟩
      · rintro p - q ⟨⟩ -
        simp
    · simp [← hps]
    · simp [opening, closing]

lemma parse_of_lexemes (limit : Nat) {file source name : String} {e : Expr} {ls : List Lexeme} {n : Nat}
    (hf : (Cursor.start file source).scan.fault = none) (he : Reads .expression ls e n)
    (ht : (Cursor.start file source).scan.tokens.map Token.lexeme =
      (opening name).map Prod.snd ++ ls ++ closing.map Prod.snd ++ [.eof]) :
    if n ≤ limit then
      ∃ f, Function.parse limit file source = .ok f ∧
        ∀ l m, f.toTree.same (Function.toTree ⟨l, name, ⟨m, e⟩⟩)
    else ∃ l line, Function.parse limit file source = .error (.nesting l line) := by
  obtain ⟨r, hr, hrf, hrt⟩ := exists_start hf
  rw [← hrt] at ht
  simp only [opening, closing, List.map_cons, List.map_nil, List.append_assoc, List.cons_append,
    List.nil_append] at ht
  obtain ⟨t, us, hus, hint, ht⟩ := List.map_eq_cons_iff.mp ht
  obtain ⟨a, us, rfl, hname, ht⟩ := List.map_eq_cons_iff.mp ht
  obtain ⟨o, us, rfl, ho, ht⟩ := List.map_eq_cons_iff.mp ht
  obtain ⟨c, us, rfl, hc, ht⟩ := List.map_eq_cons_iff.mp ht
  obtain ⟨b, us, rfl, hb, ht⟩ := List.map_eq_cons_iff.mp ht
  obtain ⟨k, us, rfl, hret, ht⟩ := List.map_eq_cons_iff.mp ht
  obtain ⟨ts, us, rfl, hts, ht⟩ := List.map_eq_append_iff.mp ht
  obtain ⟨s, us, rfl, hs, ht⟩ := List.map_eq_cons_iff.mp ht
  obtain ⟨d, us, rfl, hd, ht⟩ := List.map_eq_cons_iff.mp ht
  obtain ⟨z, rfl, hz⟩ := List.map_eq_singleton_iff.mp ht
  obtain ⟨x, hx, htr⟩ := he ts hts
  have hp := Parse.program_takes (fun _ => Parse.function_takes hint
    (congrArg Lexeme.kind hname) (congrArg Lexeme.kind ho) (congrArg Lexeme.kind hc)
    (congrArg Lexeme.kind hb) (fun _ => Parse.statement_takes hret htr (congrArg Lexeme.kind hs))
    (congrArg Lexeme.kind hd)) (congrArg Lexeme.kind hz) r hrf (by simpa using hus)
  rw [Reader.limit_start? hr] at hp
  split
  · rename_i hn
    rw [if_pos hn] at hp
    obtain ⟨q, hq, -⟩ := hp
    refine ⟨_, (parse_eq_ok_iff hr).mpr ⟨q, hq⟩, fun l m => ?_⟩
    have htext : a.text = name := congrArg Lexeme.text hname
    apply Tree.same_of_unplaced_eq
    simp [Function.toTree, Return.toTree, Tree.unplaced, htext, hx]
  · rename_i hn
    rw [if_neg hn] at hp
    obtain ⟨l, line, hq⟩ := hp
    exact ⟨l, line, (parse_eq_error_iff hr).mpr hq⟩

/-- Every expression is read back from its rendering, with any gaps in it. Only one that nests too
deep is refused, and it is refused for that. -/
theorem parse_render (limit : Nat) (file : String) {name : String} {e : Expr}
    (ps : List (List Char × Lexeme))
    (hw : IsWord name.toList) (hk : name ∉ ["return", "int", "float"]) (he : e.Numeric)
    (hps : ps.map Prod.snd = e.render) (hb : ∀ p ∈ ps, ∀ c ∈ p.1, IsBlank c) :
    let text := "int " ++ name ++ "()\x7breturn " ++ String.ofList (layout ps) ++ ";\x7d"
    if e.readingWeight ≤ limit then
      ∃ f, Function.parse limit file text = .ok f ∧
        ∀ l m, f.toTree.same (Function.toTree ⟨l, name, ⟨m, e⟩⟩)
    else ∃ l line, Function.parse limit file text = .error (.nesting l line) := by
  obtain ⟨qs, hqs, hmap, hlayout⟩ := spaced_text hw hk he hps hb
  obtain ⟨hf, ht⟩ := Cursor.scan_layout (w := []) hqs (by simp)
    (c := Cursor.start file _) (by rw [hlayout, List.append_nil]; rfl)
  rw [hmap] at ht
  have hrank : e.part.rank ≤ Part.expression.rank := by cases e.part <;> decide
  exact parse_of_lexemes limit hf ((Expr.render_reads he).mono hrank) ht

theorem parse_render_product :
    let l : Location := ⟨"", 0, 0⟩
    let e : Expr := .binary l .multiply
      (.binary l .subtract (.literal l "1") (.unary l .negate (.literal l "02")))
      (.binary l .divide (.literal l "3") (.unary l .logicalNot (.literal l "4")))
    e.Numeric ∧ e.readingWeight = 6 ∧
      (∃ f, Function.parse 1000 "a.c" "int f()\x7breturn (1--02)*(3/!4);\x7d" = .ok f ∧
        ∀ l m, f.toTree.same (Function.toTree ⟨l, "f", ⟨m, e⟩⟩)) ∧
      ∃ f, Function.parse 1000 "a.c" "int f()\x7breturn (1 - -02)\n*\t(3/ !4);\x7d" = .ok f ∧
        ∀ l m, f.toTree.same (Function.toTree ⟨l, "f", ⟨m, e⟩⟩) := by
  intro l e
  have hw : IsWord "f".toList := ⟨⟨'f', rfl, .inl rfl⟩, by simp⟩
  have he : e.Numeric := by simp [e, Expr.Numeric]
  have hweight : e.readingWeight = 6 := by decide +kernel
  have hlimit : e.readingWeight ≤ 1000 := by
    rw [hweight]
    decide
  refine ⟨he, hweight, ?_, ?_⟩
  · have h := parse_render 1000 "a.c" (e.render.map fun l => ([], l)) hw (by decide) he
      (by simp [List.map_map, Function.comp_def]) (by simp)
    rw [if_pos hlimit] at h
    exact h
  · have h := parse_render 1000 "a.c"
      [([], ⟨.openParen, "("⟩), ([], ⟨.intLiteral, "1"⟩), ([' '], ⟨.operator, "-"⟩),
        ([' '], ⟨.operator, "-"⟩), ([], ⟨.intLiteral, "02"⟩), ([], ⟨.closeParen, ")"⟩),
        (['\n'], ⟨.operator, "*"⟩), (['\t'], ⟨.openParen, "("⟩), ([], ⟨.intLiteral, "3"⟩),
        ([], ⟨.operator, "/"⟩), ([' '], ⟨.operator, "!"⟩), ([], ⟨.intLiteral, "4"⟩),
        ([], ⟨.closeParen, ")"⟩)] hw (by decide) he (by decide) (by simp [IsBlank])
    rw [if_pos hlimit] at h
    exact h

end TinyC

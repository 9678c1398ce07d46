import Mathlib.Tactic.Common
import TinyC.Proofs.Text.Written
import TinyC.Proofs.Tree.Sameness
import TinyC.Tree.Description
import TinyC.Tree.Visit

namespace TinyC

open Text

def EndsDescription (r : List Char) : Prop :=
  ∀ c ∈ r.head?, c = ',' ∨ c = ')'

namespace EndsDescription

variable {r : List Char}

lemma nil : EndsDescription [] := by
  rintro c ⟨⟩

lemma comma : EndsDescription (',' :: r) := by
  rintro c ⟨⟩
  exact .inl rfl

lemma paren : EndsDescription (')' :: r) := by
  rintro c ⟨⟩
  exact .inr rfl

lemma not_isNumeral (h : EndsDescription r) : ∀ c ∈ r.head?, isNumeral c = false := by
  intro c hc
  rcases h c hc with rfl | rfl <;> decide

end EndsDescription

namespace Foreign

lemma isIntegral_of_mem_integer {n : Int} {c : Char} (h : c ∈ (integer n).describe.toList) :
    isIntegral c = true := by
  rcases isDigit_or_of_mem_repr h with h | h <;> simp [isIntegral, h]

lemma isNumeral_of_mem_integer {n : Int} {c : Char} (h : c ∈ (integer n).describe.toList) :
    isNumeral c = true := by
  rw [isNumeral, isIntegral_of_mem_integer h, Bool.true_or]

end Foreign

def Text.openings : List (List Char × String) :=
  [(['N', 'o'], "NoneType"), (['T', 'r'], "bool"), (['F', 'a'], "bool"), (['[', ']'], "list"),
    (['A', 'S'], "ASTNode"), (['I', 'n'], "IntLiteral"), (['U', 'n'], "UnaryOperation"),
    (['B', 'i'], "BinaryOperation"), (['R', 'e'], "Return"), (['F', 'u'], "Function")]

def Text.describedType (s : List Char) : String :=
  let number := s.takeWhile isNumeral
  if number = [] then (openings.lookup (s.take 2)).getD "str"
  else if number.all isIntegral then "int"
  else "float"

lemma Text.describedType_number {a r : List Char} (ha : ∀ c ∈ a, isNumeral c = true) (hne : a ≠ [])
    (hr : EndsDescription r) :
    describedType (a ++ r) = if a.all isIntegral then "int" else "float" := by
  simp only [describedType, takeWhile_run ha hr.not_isNumeral, if_neg hne]

lemma Text.describedType_of_take {s : List Char} {c d : Char} (h : s.take 2 = [c, d])
    (hc : isNumeral c = false) : describedType s = (openings.lookup [c, d]).getD "str" := by
  have hnumber : s.takeWhile isNumeral = [] := by
    cases s with
    | nil => rfl
    | cons x s =>
      obtain rfl : x = c := (List.cons.inj h).1
      simp [hc]
  rw [describedType, hnumber, if_pos rfl, h]

namespace Foreign

lemma describedType_text (s : String) (r : List Char) :
    describedType ((text s).describe.toList ++ r) = "str" := by
  obtain ⟨d, hd⟩ : ∃ d, ((text s).describe.toList ++ r).take 2 = [quoteMark s.toList, d] := by
    rw [describe, toList_quote]
    cases s.toList.flatMap (escape (quoteMark s.toList)) with
    | nil => exact ⟨_, rfl⟩
    | cons d t => exact ⟨d, rfl⟩
  rcases quoteMark_eq s.toList with hm | hm
  · rw [hm] at hd
    rw [describedType_of_take hd rfl]
    rfl
  · rw [hm] at hd
    rw [describedType_of_take hd rfl]
    rfl

lemma describedType_describe (v : Foreign) {r : List Char} (hr : EndsDescription r) :
    describedType (v.describe.toList ++ r) = v.typeName := by
  cases v with
  | nothing => exact describedType_of_take (c := 'N') (d := 'o') rfl rfl
  | text s => exact describedType_text s r
  | integer n =>
    have hall : (integer n).describe.toList.all isIntegral = true :=
      List.all_eq_true.mpr fun _ => isIntegral_of_mem_integer
    have hne : (integer n).describe.toList ≠ [] := by
      cases n with
      | ofNat n => simp [describe, Int.repr]
      | negSucc n => simp [describe, Int.repr]
    rw [describedType_number (fun _ => isNumeral_of_mem_integer) hne hr, if_pos hall]
    rfl
  | float d =>
    obtain ⟨c, hc, hletter⟩ := d.exists_not_isIntegral
    have hall : ¬ d.text.toList.all isIntegral = true := by
      intro h
      cases hletter.symm.trans (List.all_eq_true.mp h c hc)
    rw [describe, describedType_number d.isNumeral_text (List.ne_nil_of_mem hc) hr, if_neg hall]
    rfl
  | truth b =>
    cases b with
    | false => exact describedType_of_take (c := 'F') (d := 'a') rfl rfl
    | true => exact describedType_of_take (c := 'T') (d := 'r') rfl rfl
  | emptyList => exact describedType_of_take (c := '[') (d := ']') rfl rfl

lemma describe_append_inj {v w : Foreign} {r s : List Char} (hr : EndsDescription r)
    (hs : EndsDescription s) (h : v.describe.toList ++ r = w.describe.toList ++ s) :
    v = w ∧ r = s := by
  have htype : v.typeName = w.typeName := by
    rw [← v.describedType_describe hr, h, w.describedType_describe hs]
  cases v with
  | nothing =>
    cases w with
    | nothing => exact ⟨rfl, List.append_cancel_left h⟩
    | _ => simp [typeName] at htype
  | text t =>
    cases w with
    | text u =>
      obtain ⟨htu, hrs⟩ := quote_append_inj h
      exact ⟨congrArg text htu, hrs⟩
    | _ => simp [typeName] at htype
  | integer n =>
    cases w with
    | integer m =>
      obtain ⟨hnm, hrs⟩ := run_append_inj (fun _ => isNumeral_of_mem_integer)
        (fun _ => isNumeral_of_mem_integer) hr.not_isNumeral hs.not_isNumeral h
      exact ⟨congrArg integer (intRepr_injective (String.toList_injective hnm)), hrs⟩
    | _ => simp [typeName] at htype
  | float d =>
    cases w with
    | float e =>
      obtain ⟨hde, hrs⟩ := run_append_inj d.isNumeral_text e.isNumeral_text hr.not_isNumeral
        hs.not_isNumeral h
      exact ⟨congrArg float (Double.text_injective (String.toList_injective hde)), hrs⟩
    | _ => simp [typeName] at htype
  | truth b =>
    cases w with
    | truth c =>
      cases b <;> cases c
      · exact ⟨rfl, List.append_cancel_left h⟩
      · simp [describe] at h
      · simp [describe] at h
      · exact ⟨rfl, List.append_cancel_left h⟩
    | _ => simp [typeName] at htype
  | emptyList =>
    cases w with
    | emptyList => exact ⟨rfl, List.append_cancel_left h⟩
    | _ => simp [typeName] at htype

end Foreign

lemma Foreign.typeName_ne (v : Foreign) {b : Tree} (hb : b.isNode = true) :
    v.typeName ≠ b.typeName := by
  cases b with
  | foreign w => cases hb
  | _ => cases v <;> simp [typeName, Tree.typeName]

namespace Tree

variable {l : Option Location} {op : Option Operator}

lemma describe_blank : (blank l).describe = "ASTNode()" := rfl

lemma describe_literal {v : String} :
    (literal l v).describe = "IntLiteral(value=" ++ quote v ++ ")" := rfl

lemma describe_unary {x : Tree} : (unary l op x).describe =
    "UnaryOperation(operator=" ++ describeOperator op ++ ", operand=" ++ x.describe ++ ")" := rfl

lemma describe_binary {x y : Tree} : (binary l op x y).describe =
    "BinaryOperation(operator=" ++ describeOperator op ++ ", left=" ++ x.describe ++
      ", right=" ++ y.describe ++ ")" := rfl

lemma describe_ret {x : Tree} :
    (ret l x).describe = "Return(expression=" ++ x.describe ++ ")" := rfl

lemma describe_function {name : String} {x : Tree} : (function l name x).describe =
    "Function(name=" ++ quote name ++ ", body=" ++ x.describe ++ ")" := rfl

lemma describedType_describe (a : Tree) {r : List Char} (hr : EndsDescription r) :
    describedType (a.describe.toList ++ r) = a.typeName := by
  cases a with
  | foreign v => exact v.describedType_describe hr
  | blank l => exact describedType_of_take (c := 'A') (d := 'S') (by simp [describe_blank]) rfl
  | literal l v =>
    exact describedType_of_take (c := 'I') (d := 'n') (by simp [describe_literal]) rfl
  | unary l op x => exact describedType_of_take (c := 'U') (d := 'n') (by simp [describe_unary]) rfl
  | binary l op x y =>
    exact describedType_of_take (c := 'B') (d := 'i') (by simp [describe_binary]) rfl
  | ret l x => exact describedType_of_take (c := 'R') (d := 'e') (by simp [describe_ret]) rfl
  | function l name x =>
    exact describedType_of_take (c := 'F') (d := 'u') (by simp [describe_function]) rfl

lemma describeOperator_append_inj {op op' : Option Operator} {r s : List Char}
    (h : (describeOperator op).toList ++ ',' :: r = (describeOperator op').toList ++ ',' :: s) :
    op = op' ∧ r = s := by
  have hmem (op : Option Operator) : op ∈ none :: Operator.all.map some := by
    rcases op with - | (op | op)
    · decide
    · cases op <;> decide
    · cases op <;> decide
  have hcomma : ∀ op ∈ none :: Operator.all.map some, ',' ∉ (describeOperator op).toList := by
    decide
  have hinj : ∀ op ∈ none :: Operator.all.map some, ∀ op' ∈ none :: Operator.all.map some,
      describeOperator op = describeOperator op' → op = op' := by
    decide
  obtain ⟨hop, hrs⟩ := append_cons_inj (hcomma op (hmem op)) (hcomma op' (hmem op')) h
  exact ⟨hinj op (hmem op) op' (hmem op') (String.toList_injective hop), hrs⟩

inductive SameSort : Tree → Tree → Prop
  | foreign {v w : Foreign} : SameSort (foreign v) (foreign w)
  | blank {l l' : Option Location} : SameSort (blank l) (blank l')
  | literal {l l' : Option Location} {v v' : String} : SameSort (literal l v) (literal l' v')
  | unary {l l' : Option Location} {op op' : Option Operator} {x x' : Tree} :
      SameSort (unary l op x) (unary l' op' x')
  | binary {l l' : Option Location} {op op' : Option Operator} {x x' y y' : Tree} :
      SameSort (binary l op x y) (binary l' op' x' y')
  | ret {l l' : Option Location} {x x' : Tree} : SameSort (ret l x) (ret l' x')
  | function {l l' : Option Location} {name name' : String} {x x' : Tree} :
      SameSort (function l name x) (function l' name' x')

lemma SameSort.of_typeName {a b : Tree} (h : a.typeName = b.typeName) : SameSort a b := by
  cases a with
  | foreign v =>
    cases b with
    | foreign w => exact .foreign
    | _ => exact absurd h (v.typeName_ne rfl)
  | blank l =>
    cases b with
    | foreign w => exact absurd h.symm (w.typeName_ne rfl)
    | blank l' => exact .blank
    | _ => simp [typeName] at h
  | literal l v =>
    cases b with
    | foreign w => exact absurd h.symm (w.typeName_ne rfl)
    | literal l' v' => exact .literal
    | _ => simp [typeName] at h
  | unary l op x =>
    cases b with
    | foreign w => exact absurd h.symm (w.typeName_ne rfl)
    | unary l' op' x' => exact .unary
    | _ => simp [typeName] at h
  | binary l op x y =>
    cases b with
    | foreign w => exact absurd h.symm (w.typeName_ne rfl)
    | binary l' op' x' y' => exact .binary
    | _ => simp [typeName] at h
  | ret l x =>
    cases b with
    | foreign w => exact absurd h.symm (w.typeName_ne rfl)
    | ret l' x' => exact .ret
    | _ => simp [typeName] at h
  | function l name x =>
    cases b with
    | foreign w => exact absurd h.symm (w.typeName_ne rfl)
    | function l' name' x' => exact .function
    | _ => simp [typeName] at h

lemma sameSort_of_describe {a b : Tree} {r s : List Char} (hr : EndsDescription r)
    (hs : EndsDescription s) (h : a.describe.toList ++ r = b.describe.toList ++ s) :
    SameSort a b := by
  apply SameSort.of_typeName
  rw [← a.describedType_describe hr, h, b.describedType_describe hs]

lemma describe_append_inj {a b : Tree} {r s : List Char} (hr : EndsDescription r)
    (hs : EndsDescription s) (h : a.describe.toList ++ r = b.describe.toList ++ s) :
    a.unplaced = b.unplaced ∧ r = s := by
  -- what follows an operand starts with a comma or a parenthesis, so the operand is told by itself
  induction a generalizing b r s with
  | foreign v =>
    cases sameSort_of_describe hr hs h
    obtain ⟨hvw, hrs⟩ := Foreign.describe_append_inj hr hs h
    exact ⟨congrArg foreign hvw, hrs⟩
  | blank l =>
    cases sameSort_of_describe hr hs h
    exact ⟨rfl, List.append_cancel_left h⟩
  | literal l v =>
    cases sameSort_of_describe hr hs h
    simp only [describe_literal, String.toList_append, List.append_assoc] at h
    obtain ⟨hvw, hrs⟩ := quote_append_inj (List.append_cancel_left h)
    exact ⟨congrArg (literal none) hvw, List.append_cancel_left hrs⟩
  | unary l op x ih =>
    cases sameSort_of_describe hr hs h
    simp only [describe_unary, String.toList_append, List.append_assoc] at h
    obtain ⟨hop, h⟩ := describeOperator_append_inj (List.append_cancel_left h)
    have h := @List.append_cancel_left _ " operand=".toList _ _ h
    obtain ⟨hx, hrs⟩ := ih .paren .paren h
    rw [unplaced, unplaced, hop, hx]
    exact ⟨rfl, (List.cons.inj hrs).2⟩
  | binary l op x y ihx ihy =>
    cases sameSort_of_describe hr hs h
    simp only [describe_binary, String.toList_append, List.append_assoc] at h
    obtain ⟨hop, h⟩ := describeOperator_append_inj (List.append_cancel_left h)
    have h := @List.append_cancel_left _ " left=".toList _ _ h
    obtain ⟨hx, h⟩ := ihx .comma .comma h
    have h := @List.append_cancel_left _ " right=".toList _ _ (List.cons.inj h).2
    obtain ⟨hy, hrs⟩ := ihy .paren .paren h
    rw [unplaced, unplaced, hop, hx, hy]
    exact ⟨rfl, (List.cons.inj hrs).2⟩
  | ret l x ih =>
    cases sameSort_of_describe hr hs h
    simp only [describe_ret, String.toList_append, List.append_assoc] at h
    obtain ⟨hx, hrs⟩ := ih .paren .paren (List.append_cancel_left h)
    rw [unplaced, unplaced, hx]
    exact ⟨rfl, (List.cons.inj hrs).2⟩
  | function l name x ih =>
    cases sameSort_of_describe hr hs h
    simp only [describe_function, String.toList_append, List.append_assoc] at h
    obtain ⟨hname, h⟩ := quote_append_inj (List.append_cancel_left h)
    obtain ⟨hx, hrs⟩ := ih .paren .paren (List.append_cancel_left h)
    rw [unplaced, unplaced, hname, hx]
    exact ⟨rfl, (List.cons.inj hrs).2⟩

lemma describe_unplaced (a : Tree) : a.unplaced.describe = a.describe := by
  induction a with
  | foreign v => rfl
  | blank l => rfl
  | literal l v => rfl
  | unary l op x ih => rw [unplaced, describe_unary, describe_unary, ih]
  | binary l op x y ihx ihy => rw [unplaced, describe_binary, describe_binary, ihx, ihy]
  | ret l x ih => rw [unplaced, describe_ret, describe_ret, ih]
  | function l name x ih => rw [unplaced, describe_function, describe_function, ih]

lemma describe_eq_iff_unplaced {a b : Tree} :
    a.describe = b.describe ↔ a.unplaced = b.unplaced := by
  constructor
  · intro h
    exact (describe_append_inj .nil .nil (by rw [h])).1
  · intro h
    rw [← describe_unplaced, h, describe_unplaced]

end Tree

/-- Descriptions are equal exactly if the trees are the same, what is no node in them is of the same
sort at the same places, and no zeros of opposite signs stand there. Neither of the two shows the
locations. -/
theorem describe_eq_iff_same (a b : Tree) :
    (a.describe = b.describe ↔ a.same b = true ∧ a.foreignTypes = b.foreignTypes ∧
        a.negativeZeros = b.negativeZeros) ∧
      a.unplaced.describe = a.describe ∧ a.unplaced.same b.unplaced = a.same b := by
  refine ⟨?_, a.describe_unplaced, ?_⟩
  · rw [Tree.describe_eq_iff_unplaced, Tree.unplaced_eq_iff]
  · exact Tree.same_unplaced a b

/-- One and truth are the same number, and so are the two zeros; their descriptions differ. -/
theorem same_of_different_descriptions :
    (let a := Tree.ret none (.foreign (.integer 1))
      let b := Tree.ret none (.foreign (.truth true))
      a.same b = true ∧ a.describe ≠ b.describe) ∧
      let a := Tree.ret none (.foreign (.float ⟨false, 0, by decide⟩))
      let b := Tree.ret none (.foreign (.float ⟨true, 0, by decide⟩))
      a.same b = true ∧ a.describe ≠ b.describe := by
  decide +kernel

end TinyC

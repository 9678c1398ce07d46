import Mathlib.Data.List.Forall2
import Mathlib.Tactic.Common
import TinyC.Proofs.Text.Written
import TinyC.Proofs.Token.Tiling

namespace TinyC

open Text

lemma Kind.name_injective {k k' : Kind} (h : k.name = k'.name) : k = k' := by
  have hall : ∀ k ∈ all, ∀ k' ∈ all, k.name = k'.name → k = k' := by decide
  exact hall k k.mem_all k' k'.mem_all h

lemma Kind.notMem_newline_name (k : Kind) : '\n' ∉ k.name.toList := by
  cases k with
  | _ => decide

namespace Token

variable {t u : Token}

def Alike (t u : Token) : Prop :=
  t.kind = u.kind ∧ t.text = u.text ∧ t.location.line = u.location.line ∧
    t.location.column = u.location.column

def Plain (t : Token) : Prop :=
  t.kind = .eof → t.text = ""

lemma place_inj (h : t.place = u.place) :
    t.location.line = u.location.line ∧ t.location.column = u.location.column := by
  have hcolon (n : Int) : ':' ∉ n.repr.toList := by
    intro hn
    rcases isDigit_or_of_mem_repr hn with hn | hn <;> revert hn <;> decide
  have hchars := congrArg String.toList h
  simp only [place, String.toList_append, List.append_assoc] at hchars
  obtain ⟨hline, hcolumn⟩ := append_cons_inj (hcolon _) (hcolon _) hchars
  exact ⟨intRepr_injective (String.toList_injective hline),
    intRepr_injective (String.toList_injective hcolumn)⟩

def quotedText (t : Token) : String :=
  if t.kind = .eof then "" else quote t.text ++ ", "

lemma dump_eq (t : Token) :
    t.dump = "Token(" ++ t.kind.name ++ ", " ++ t.quotedText ++ t.place ++ ")" := by
  rw [dump, quotedText]
  split
  · rw [String.append_empty]
  · simp only [String.append_assoc]

lemma quotedText_append_inj (ht : t.Plain) (hu : u.Plain) (hkind : t.kind = u.kind)
    {r s : List Char} (h : t.quotedText.toList ++ r = u.quotedText.toList ++ s) :
    t.text = u.text ∧ r = s := by
  by_cases hk : u.kind = .eof
  · rw [quotedText, if_pos (hkind.trans hk), quotedText, if_pos hk] at h
    exact ⟨(ht (hkind.trans hk)).trans (hu hk).symm, h⟩
  · rw [quotedText, if_neg (hkind ▸ hk), quotedText, if_neg hk, String.toList_append,
      String.toList_append, List.append_assoc, List.append_assoc] at h
    obtain ⟨htext, hrest⟩ := quote_append_inj h
    exact ⟨htext, List.append_cancel_left hrest⟩

lemma dump_eq_iff (ht : t.Plain) (hu : u.Plain) : t.dump = u.dump ↔ t.Alike u := by
  constructor
  · intro h
    have hcomma (k : Kind) : ',' ∉ k.name.toList := by
      cases k <;> decide
    have hchars := congrArg String.toList h
    simp only [dump_eq, String.toList_append, List.append_assoc] at hchars
    obtain ⟨hname, hrest⟩ := append_cons_inj (hcomma _) (hcomma _) (List.append_cancel_left hchars)
    have hkind : t.kind = u.kind := Kind.name_injective (String.toList_injective hname)
    obtain ⟨htext, hplace⟩ := quotedText_append_inj ht hu hkind (List.cons.inj hrest).2
    have hplace := String.toList_injective (List.append_cancel_right hplace)
    exact ⟨hkind, htext, place_inj hplace⟩
  · rintro ⟨hkind, htext, hline, hcolumn⟩
    rw [dump, dump, place, place, hkind, htext, hline, hcolumn]

lemma graphic_dump (t : Token) : Graphic t.dump := by
  have hkind : Graphic t.kind.name := by
    cases t.kind <;> decide
  have hquoted : Graphic t.quotedText := by
    rw [quotedText]
    split
    · decide
    · exact (graphic_quote _).append (by decide)
  have hplace : Graphic t.place :=
    ((Graphic.int _).append (by decide)).append (.int _)
  have hopening : Graphic ("Token(" ++ t.kind.name ++ ", ") :=
    (Graphic.append (by decide) hkind).append (by decide)
  rw [dump_eq]
  exact ((hopening.append hquoted).append hplace).append (by decide)

lemma dump_ne_empty (t : Token) : t.dump ≠ "" := by
  intro h
  have hchars := congrArg String.toList h
  simp [dump_eq] at hchars

lemma map_dump_eq_iff {ts us : List Token} (hts : ∀ t ∈ ts, t.Plain) (hus : ∀ u ∈ us, u.Plain) :
    ts.map dump = us.map dump ↔ List.Forall₂ Alike ts us := by
  induction ts generalizing us with
  | nil => cases us <;> simp
  | cons t ts ih =>
    cases us with
    | nil => simp
    | cons u us =>
      obtain ⟨ht, hts⟩ := List.forall_mem_cons.mp hts
      obtain ⟨hu, hus⟩ := List.forall_mem_cons.mp hus
      rw [List.map_cons, List.map_cons, List.cons.injEq, dump_eq_iff ht hu, ih hts hus,
        List.forall₂_cons]

end Token

lemma Cursor.plain_of_mem_scan (c : Cursor) : ∀ t ∈ c.scan.tokens, t.Plain := by
  have hnext {c d : Cursor} {t : Token} (h : c.next = .ok t d) : t.Plain := by
    intro ht
    rcases (Lexis.next_eq_ok_iff.mp h).1 with ⟨-, he⟩ | hb
    · exact congrArg Lexeme.text he
    · exact absurd ht hb.kind_ne_eof
  fun_induction scan c with
  | case1 c f d h => simp
  | case2 c t d h ht => exact List.forall_mem_singleton.mpr (hnext h)
  | case3 c t d h ht s ih => exact List.forall_mem_cons.mpr ⟨hnext h, ih⟩

end TinyC

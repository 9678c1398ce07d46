namespace TinyC.Text

def pieces (separator : Char) : List Char → List (List Char)
  | [] => [[]]
  | c :: cs =>
    if c = separator then [] :: pieces separator cs
    else match pieces separator cs with
      | [] => [[c]]
      | p :: ps => (c :: p) :: ps

def lines (s : List Char) : List (List Char) :=
  pieces '\n' s

def line? (s : List Char) (n : Int) : Option String :=
  if 0 < n then (lines s)[n.toNat - 1]?.map String.ofList else none

def unifyLineEndings : List Char → List Char
  | [] => []
  | '\r' :: '\n' :: cs => '\n' :: unifyLineEndings cs
  | '\r' :: cs => '\n' :: unifyLineEndings cs
  | c :: cs => c :: unifyLineEndings cs

theorem pieces_eq_splitOn (c : Char) (s : List Char) : pieces c s = s.splitOn c := by
  induction s with
  | nil => rfl
  | cons d s ih =>
    rw [pieces, ih, List.splitOn_cons_eq_if_modifyHead]
    by_cases h : d = c
    · simp [h]
    · rw [if_neg h, if_neg (by simpa using h)]
      cases hp : s.splitOn c with
      | nil => exact absurd hp (List.splitOn_ne_nil c s)
      | cons p ps => rfl

end TinyC.Text

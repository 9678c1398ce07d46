namespace TinyC.Text

def afterControl? : List Char → Option (List Char)
  | '\x1b' :: '[' :: r =>
    match r.dropWhile fun c => c.isDigit || c = ';' || c = '?' with
    | c :: t => if c.isAlpha then some t else none
    | [] => none
  | _ => none

theorem length_dropWhile_le (p : Char → Bool) (s : List Char) :
    (s.dropWhile p).length ≤ s.length :=
  (List.dropWhile_sublist p).length_le

theorem length_afterControl {s t : List Char} (h : afterControl? s = some t) :
    t.length < s.length := by
  unfold afterControl? at h
  split at h
  · rename_i r
    split at h
    · rename_i c u hr
      have hl := length_dropWhile_le (fun c => c.isDigit || c = ';' || c = '?') r
      rw [hr] at hl
      split at h
      · cases h
        simp only [List.length_cons] at hl ⊢
        omega
      · cases h
    · cases h
  · cases h

def withoutControls (s : List Char) : List Char :=
  match s with
  | [] => []
  | c :: r =>
    match _h : afterControl? (c :: r) with
    | some t => withoutControls t
    | none => c :: withoutControls r
termination_by s.length
decreasing_by
  · exact length_afterControl _h
  · simp

end TinyC.Text

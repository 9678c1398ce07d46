import TinyC.Text.Lines

namespace TinyC

structure Path where
  root : String
  parts : List String
deriving DecidableEq

namespace Path

def rootOf (s : List Char) : String :=
  match (s.takeWhile (· = '/')).length with
  | 0 => ""
  | 2 => "//"
  | _ => "/"

def names (s : String) : List String :=
  (Text.pieces '/' s.toList).map String.ofList

def ofString (s : String) : Path :=
  ⟨rootOf s.toList, (names s).filter fun n => n ≠ "" && n ≠ "."⟩

def text (p : Path) : String :=
  if p.root = "" ∧ p.parts = [] then "." else p.root ++ "/".intercalate p.parts

def splitSuffix (name : String) : String × String :=
  let r := name.toList.reverse
  match r.takeWhile (· ≠ '.'), r.dropWhile (· ≠ '.') with
  | e :: extension, _ :: s :: stem =>
    (String.ofList (s :: stem).reverse, String.ofList ('.' :: (e :: extension).reverse))
  | _, _ => (name, "")

def name (p : Path) : String :=
  p.parts.getLast?.getD ""

def suffix (p : Path) : String :=
  (splitSuffix p.name).2

def withSuffix (p : Path) (suffix : String) : Path :=
  ⟨p.root, p.parts.dropLast ++ [(splitSuffix p.name).1 ++ suffix]⟩

end Path

end TinyC

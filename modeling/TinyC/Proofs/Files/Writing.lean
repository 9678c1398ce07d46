import Mathlib.Tactic.Common
import TinyC.Files.Source

namespace TinyC

namespace Store

variable {s t : Store} {p q : Place} {e : Entry}

/-- The stores differ in one place only, where the second has a file and the first no directory. -/
structure Writes (s : Store) (p : Place) (bytes : List UInt8) (t : Store) : Prop where
  kept : ∀ q, q ≠ p → t.find? q = s.find? q
  written : t.find? p = some (.file bytes)
  free : s.find? p ≠ some .directory
  rights : t.rights = s.rights

section

variable {codec : Text.Codec} {path : Path} {text : String} {f : FileFault}

end

end Store

namespace Path

def stem (p : Path) : String :=
  (splitSuffix p.name).1

variable {p : Path}

end Path

namespace Store

variable {s : Store} {p q : Place}

end Store

end TinyC

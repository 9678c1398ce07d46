import Mathlib.Tactic.Common
import TinyC.Proofs.Command.Frame
import TinyC.Proofs.Command.Printing
import TinyC.Proofs.Compile.Outcome
import TinyC.Proofs.Compile.Tally

namespace TinyC

namespace Arguments

def shared (a : Arguments) : Arguments :=
  ⟨a.given.filter fun g => g ≠ .flag .tokens && g ≠ .flag .outline, a.positional⟩

section

variable {a b : Arguments} (h : b.shared = a.shared)

include h

end

end Arguments

namespace Job

variable {s : Store} {a b : Arguments} {j : Job}

end Job

namespace Job

variable {j : Job} {host : Host} {s : Store} {source : String}

end Job

section

variable {limit : Nat} {o : Options} {file source : String}

end

namespace Job

variable {j : Job} {host : Host} {s : Store} {source : String}
  (hshows : host.stdout.Shows) (hs : s.readText j.input = .ok source) (hv : j.verbose = false)

include hshows hs hv

end Job

end TinyC

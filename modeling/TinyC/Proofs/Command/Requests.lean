import Mathlib.Tactic.Common
import TinyC.Command.Job

namespace TinyC

namespace Job

variable {s : Store} {a : Arguments} {j : Job}

end Job

namespace Arguments

def OnlyPrints (a : Arguments) : Prop :=
  ∃ f ∈ [Flag.tokens, .outline, .help, .version], a.has f = true

end Arguments

namespace Request

variable {s : Store} {args : List String} {j : Job}

end Request

end TinyC

import Mathlib.Tactic.Common
import TinyC.Command.Run
import TinyC.Proofs.Command.Requests
import TinyC.Proofs.Files.Writing

namespace TinyC

namespace Job

variable {j : Job} {host : Host} {s : Store}

def OnlyPrints (j : Job) : Prop :=
  j.tokens = true ∨ j.outline = true

def ClosingRefused (j : Job) (host : Host) : Prop :=
  host.stdout.fault? "" (echo j.closing) ≠ none

/-- How a job ends: with a fault, with something printed, or after its output was opened. Then the
output was written as a whole, unless the text could not be encoded, and the run succeeds, unless
the closing line cannot be printed. -/
inductive Ending (j : Job) (host : Host) (s : Store) : Run → Prop
  | fault {f out log} : Ending j host s (JobFault.run f j.verbose s out log)
  | shown {out log} : j.OnlyPrints → Ending j host s ⟨.success, out, log, false, s⟩
  | broken {source assembly f log t} : s.readText j.input = .ok source →
      (compile host.nestingLimit j.options j.file source).unwrap = .ok assembly →
      s.writeText host.codec j.destination assembly = (some f, t) →
      Ending j host s ((JobFault.ofFileFault f).run j.verbose t "" log)
  | written {source assembly r t} : ¬ j.OnlyPrints → s.readText j.input = .ok source →
      (compile host.nestingLimit j.options j.file source).unwrap = .ok assembly →
      s.writeText host.codec j.destination assembly = (none, t) → r.store = t →
      (r.code = .success ∨ r.code = .internalError ∧ j.ClosingRefused host) → Ending j host s r

end Job

end TinyC

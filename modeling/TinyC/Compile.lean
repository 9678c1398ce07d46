import TinyC.Assembly.Emit
import TinyC.Parse.Program

namespace TinyC

structure Options where
  target : String := "x86_64"
  symbolPrefix : String := ""
  comments : Bool := false
deriving DecidableEq

namespace Options

def settings? (o : Options) : Option Settings :=
  (Target.ofName? o.target).map fun t => ⟨t, o.symbolPrefix, o.comments⟩

def refusal (o : Options) : String :=
  "unknown target '" ++ o.target ++ "' (expected one of: " ++ Target.choices ++ ")"

end Options

def Diagnostic.unknownTarget (name : String) : Diagnostic :=
  ⟨.generation, "unknown target '" ++ name ++ "'", none, some ("choose one of: " ++ Target.choices),
    none⟩

/-- Why a text is not compiled. `depth` is too deep a nesting of a program that could be read. -/
inductive Failure where
  | reading (fault : ParseFault)
  | target (name : String)
  | depth (location : Location) (sourceLine : Option String)
  | emission (fault : EmitFault)
deriving DecidableEq

namespace Failure

def diagnostic : Failure → Diagnostic
  | reading f => f.diagnostic
  | target name => .unknownTarget name
  | depth location sourceLine => .nesting (some location) sourceLine
  | emission f => f.diagnostic

end Failure

structure Outcome (φ : Type) where
  file : String := ""
  success : Bool := false
  assembly : String := ""
  program : Option Function := none
  tokens : Nat := 0
  failure : Option φ := none

namespace Outcome

def unwrap {φ : Type} (o : Outcome φ) : Except φ String :=
  match o.failure with
  | some f => .error f
  | none => .ok o.assembly

def failed {φ : Type} (file : String) (tokens : Nat) (f : φ) : Outcome φ :=
  ⟨file, false, "", none, tokens, some f⟩

end Outcome

def Function.assemble (f : Function) (o : Options) (r : Reader) : Except Failure String :=
  match o.settings? with
  | none => .error (.target o.target)
  | some s =>
    if r.limit < f.body.value.emissionWeight then
      .error (.depth r.lookahead.location (r.lineOf? r.lookahead))
    else match Emit.tree s f.toTree #[] with
      | .ok _ ls => .ok ls.text
      | .error e _ => .error (.emission e)

def compile (limit : Nat) (o : Options) (file source : String) : Outcome Failure :=
  match Reader.start? limit file source with
  | .error e => .failed file 0 (.reading (.lexical e))
  | .ok r =>
    match Parse.program r with
    | .error e q => .failed file q.pulled (.reading e)
    | .ok f q =>
      match f.assemble o q with
      | .error e => .failed file q.pulled e
      | .ok assembly => ⟨file, true, assembly, some f, q.pulled, none⟩

end TinyC

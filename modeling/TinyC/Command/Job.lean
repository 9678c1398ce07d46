import TinyC.Command.Arguments
import TinyC.Command.Host
import TinyC.Command.Manual
import TinyC.Files.Source

namespace TinyC

structure Job where
  input : Path
  output : Option Path := none
  options : Options := {}
  tokens : Bool := false
  outline : Bool := false
  verbose : Bool := false
deriving DecidableEq

namespace Job

def file (j : Job) : String :=
  j.input.text

def destination (j : Job) : Path :=
  j.output.getD (j.input.withSuffix ".s")

def checkOutput (s : Store) (path : String) : Except UsageFault Unit :=
  match s.look path with
  | .error _ => .ok ()
  | .ok (_, .directory) =>
    .error (.invalidOutput ("File " ++ Text.quote path ++ " is a directory."))
  | .ok (place, .file _) =>
    if (s.rightsAt place).read then .ok ()
    else .error (.invalidOutput ("File " ++ Text.quote path ++ " is not readable."))

def checkTarget (name : String) : Except UsageFault Unit :=
  if (Target.ofName? name).isSome then .ok ()
  else
    let choices := ", ".intercalate (Target.all.map fun t => Text.quote t.name)
    .error (.invalidTarget (Text.quote name ++ " is not one of " ++ choices ++ "."))

def checkSetting (s : Store) (a : Arguments) (name : Setting) : Except UsageFault Unit :=
  match name with
  | .output => checkOutput s ((a.value? .output).getD "")
  | .target => checkTarget ((a.value? .target).getD "")
  | .symbolPrefix => .ok ()

def checkSuffix (p : Path) : Except UsageFault Path :=
  if p.suffix = ".c" then .ok p
  else .error (.invalidInput ("'" ++ p.text ++ "' is not a .c file"))

def checkInput (s : Store) (path : String) : Except UsageFault Path :=
  match s.look path with
  | .error _ => .error (.invalidInput ("File " ++ Text.quote path ++ " does not exist."))
  | .ok (_, .directory) =>
    .error (.invalidInput ("File " ++ Text.quote path ++ " is a directory."))
  | .ok (place, .file _) =>
    if (s.rightsAt place).read then checkSuffix (Path.ofString path)
    else .error (.invalidInput ("File " ++ Text.quote path ++ " is not readable."))

/-- Settings are checked first, in the order of their first use, then the input, then that nothing
is left over. -/
def ofArguments (s : Store) (a : Arguments) : Except UsageFault Job := do
  a.settings.forM (checkSetting s a)
  match a.positional with
  | [] => .error .missingInput
  | path :: extra =>
    let input ← checkInput s path
    if extra = [] then
      let options : Options :=
        ⟨(a.value? .target).getD "x86_64", (a.value? .symbolPrefix).getD "", a.has .comments⟩
      return ⟨input, (a.value? .output).map Path.ofString, options, a.has .tokens, a.has .outline,
        a.has .verbose⟩
    else .error (.extraArguments extra)

end Job

namespace Arguments

def question? (a : Arguments) : Option Flag :=
  a.given.findSome? fun
    | .flag .help => some .help
    | .flag .version => some .version
    | _ => none

end Arguments

inductive Request where
  | refused (report : String)
  | question (text : String)
  | job (j : Job)
deriving DecidableEq

namespace Request

def refuse (f : UsageFault) : Request :=
  let usage := if f.showsUsage then echo (Manual.usage ++ "\n" ++ Manual.hint ++ "\n") else ""
  .refused (usage ++ echo ("Error: " ++ f.message))

def read (s : Store) (args : List String) : Request :=
  match Arguments.read args with
  | .error f => .refuse f
  | .ok a =>
    match a.question? with
    | some .help => .question Manual.helpText
    | some _ => .question Manual.versionText
    | none =>
      match Job.ofArguments s a with
      | .error f => .refuse f
      | .ok j => .job j

end Request

end TinyC

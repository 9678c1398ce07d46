import TinyC.Text.Quoted
import TinyC.Text.Similarity

namespace TinyC

inductive Setting where
  | output
  | target
  | symbolPrefix
deriving DecidableEq

inductive Flag where
  | comments
  | tokens
  | outline
  | verbose
  | version
  | help
deriving DecidableEq

inductive OptionName where
  | setting (s : Setting)
  | flag (f : Flag)
deriving DecidableEq

namespace OptionName

def long : List (String × OptionName) :=
  [("--output", .setting .output), ("--target", .setting .target),
    ("--symbol-prefix", .setting .symbolPrefix), ("--comments", .flag .comments),
    ("--tokens", .flag .tokens), ("--ast", .flag .outline), ("--verbose", .flag .verbose),
    ("--version", .flag .version), ("--help", .flag .help)]

def short : List (Char × OptionName) :=
  [('o', .setting .output), ('t', .setting .target), ('v', .flag .verbose)]

end OptionName

inductive Given where
  | value (s : Setting) (text : String)
  | flag (f : Flag)
deriving DecidableEq

inductive UsageFault where
  | noSuchOption (name : String) (suggestions : List String)
  | needsArgument (name : String)
  | takesNoValue (name : String)
  | missingInput
  | invalidInput (reason : String)
  | invalidOutput (reason : String)
  | invalidTarget (reason : String)
  | extraArguments (arguments : List String)
deriving DecidableEq

namespace UsageFault

def suggest : List String → String
  | [] => ""
  | [s] => " Did you mean " ++ s ++ "?"
  | ss => " (Possible options: " ++ ", ".intercalate ss ++ ")"

def message : UsageFault → String
  | noSuchOption name suggestions => "No such option: " ++ name ++ suggest suggestions
  | needsArgument name => "Option " ++ Text.quote name ++ " requires an argument."
  | takesNoValue name => "Option " ++ Text.quote name ++ " does not take a value."
  | missingInput => "Missing argument 'INPUT_FILE'."
  | invalidInput reason => "Invalid value for 'INPUT_FILE': " ++ reason
  | invalidOutput reason => "Invalid value for '-o' / '--output': " ++ reason
  | invalidTarget reason => "Invalid value for '-t' / '--target': " ++ reason
  | extraArguments [a] => "Got unexpected extra argument (" ++ a ++ ")"
  | extraArguments as => "Got unexpected extra arguments (" ++ " ".intercalate as ++ ")"

def showsUsage : UsageFault → Bool
  | needsArgument _ => false
  | takesNoValue _ => false
  | _ => true

end UsageFault

structure OptionUse where
  given : List Given
  waiting : Option (Setting × String)

structure Arguments where
  given : List Given := []
  positional : List String := []
deriving DecidableEq

namespace Arguments

def letters : List Char → Except UsageFault OptionUse
  | [] => .ok ⟨[], none⟩
  | c :: cs =>
    match OptionName.short.lookup c with
    | none => .error (.noSuchOption (String.ofList ['-', c]) [])
    | some (.flag f) => do
      let r ← letters cs
      return ⟨.flag f :: r.given, r.waiting⟩
    | some (.setting s) =>
      if cs = [] then .ok ⟨[], some (s, String.ofList ['-', c])⟩
      else .ok ⟨[.value s (String.ofList cs)], none⟩

def splitValue (a : String) : String × Option String :=
  let name := String.ofList (a.toList.takeWhile (· ≠ '='))
  match a.toList.dropWhile (· ≠ '=') with
  | _ :: value => (name, some (String.ofList value))
  | [] => (name, none)

def option (a : String) : Except UsageFault OptionUse :=
  let (name, value) := splitValue a
  match OptionName.long.lookup name, value with
  | some (.setting s), some v => .ok ⟨[.value s v], none⟩
  | some (.setting s), none => .ok ⟨[], some (s, name)⟩
  | some (.flag _), some _ => .error (.takesNoValue name)
  | some (.flag f), none => .ok ⟨[.flag f], none⟩
  | none, _ =>
    match a.toList with
    | '-' :: '-' :: _ =>
      .error (.noSuchOption name (Text.closest name (OptionName.long.map Prod.fst)))
    | cs => letters (cs.drop 1)

def isOption (a : String) : Bool :=
  match a.toList with
  | '-' :: _ :: _ => true
  | _ => false

/-- Reads on where an option may wait for its value. Two hyphens end the options. -/
def readFrom (waiting : Option (Setting × String)) (seen : Arguments) :
    List String → Except UsageFault Arguments
  | [] =>
    match waiting with
    | some (_, name) => .error (.needsArgument name)
    | none => .ok seen
  | a :: as =>
    match waiting with
    | some (s, _) => readFrom none ⟨seen.given ++ [.value s a], seen.positional⟩ as
    | none =>
      if a = "--" then .ok ⟨seen.given, seen.positional ++ as⟩
      else if isOption a then
        match option a with
        | .error f => .error f
        | .ok r => readFrom r.waiting ⟨seen.given ++ r.given, seen.positional⟩ as
      else readFrom none ⟨seen.given, seen.positional ++ [a]⟩ as

def read (args : List String) : Except UsageFault Arguments :=
  readFrom none {} args

def value? (a : Arguments) (s : Setting) : Option String :=
  (a.given.filterMap fun
    | .value t v => if t = s then some v else none
    | .flag _ => none).getLast?

def has (a : Arguments) (f : Flag) : Bool :=
  a.given.contains (.flag f)

def settings (a : Arguments) : List Setting :=
  (a.given.filterMap fun
    | .value s _ => some s
    | .flag _ => none).eraseDups

end Arguments

end TinyC

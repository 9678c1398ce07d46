import TinyC.Command.Job
import TinyC.Tree.Printer

namespace TinyC

inductive ExitCode where
  | success
  | buildError
  | invalidArguments
  | internalError
deriving DecidableEq

namespace ExitCode

def all : List ExitCode :=
  [success, buildError, invalidArguments, internalError]

def name : ExitCode → String
  | success => "SUCCESS"
  | buildError => "BUILD_ERROR"
  | invalidArguments => "INVALID_ARGS"
  | internalError => "INTERNAL_ERROR"

def value : ExitCode → Nat
  | success => 0
  | buildError => 1
  | invalidArguments => 2
  | internalError => 3

end ExitCode

structure Run where
  code : ExitCode
  out : String := ""
  err : String := ""
  traced : Bool := false
  store : Store
deriving DecidableEq

def logLine (s : String) : String :=
  "DEBUG: " ++ s ++ "\n"

inductive JobFault where
  | compilation (d : Diagnostic)
  | decoding (f : Text.DecodeFault)
  | plain (e : PlainError) (message : String)
deriving DecidableEq

def ErrorClass.exitCode : ErrorClass → ExitCode
  | compilation _ => .buildError
  | unicodeDecode => .invalidArguments
  | plain .badParameter => .invalidArguments
  | plain .fileNotFound => .invalidArguments
  | plain .permission => .invalidArguments
  | plain _ => .internalError

namespace JobFault

def errorClass : JobFault → ErrorClass
  | compilation d => .compilation d.stage
  | decoding _ => .unicodeDecode
  | plain e _ => .plain e

def code (f : JobFault) : ExitCode :=
  f.errorClass.exitCode

def text : JobFault → String
  | compilation d => d.report
  | decoding f => "source file is not valid UTF-8: " ++ f.message
  | plain .key message => Text.quote message
  | plain _ message => message

def report (f : JobFault) : String :=
  match f.code with
  | .invalidArguments => "Error: " ++ f.text
  | .internalError => "Internal error: " ++ f.text
  | _ => f.text

def ofFileFault : FileFault → JobFault
  | .compilation e => .compilation e.diagnostic
  | .decoding e => .decoding e
  | .encoding e => .plain .unicodeEncode e.message
  | .access e path => .plain e.error (e.message path)
  | .noSource path => .plain .fileNotFound (FileFault.noSource path).message

def ofPrintFault (f : PrintFault) : JobFault :=
  .plain f.error f.message

def run (f : JobFault) (verbose : Bool) (s : Store) (out log : String) : Run :=
  ⟨f.code, out, log ++ echo f.report, verbose && f.code = .internalError, s⟩

end JobFault

namespace Job

def log (j : Job) (o : Outcome Failure) : String :=
  let parsing := logLine ("parsing " ++ j.file)
  let generating := logLine ("generating " ++ j.options.target ++ " code for " ++ j.file)
  let failing (f : Failure) :=
    logLine ("compilation of " ++ j.file ++ " failed: " ++ f.diagnostic.text)
  if j.verbose then
    match o.failure with
    | none => parsing ++ generating
    | some (.reading f) => parsing ++ failing (.reading f)
    | some f => parsing ++ generating ++ failing f
  else ""

def conclude (j : Job) (stdout : Console) (s : Store) (text log : String) : Run :=
  match stdout.print [echo text] with
  | (out, none) => ⟨.success, out, log, false, s⟩
  | (out, some f) => (JobFault.ofPrintFault f).run j.verbose s out log

def runTokens (j : Job) (stdout : Console) (s : Store) (source : String) : Run :=
  let r := (Cursor.start j.file source).scan
  match stdout.print (r.tokens.map fun t => echo t.dump), r.fault with
  | (out, some f), _ => (JobFault.ofPrintFault f).run j.verbose s out ""
  | (out, none), some f => JobFault.run (.compilation f.diagnostic) j.verbose s out ""
  | (out, none), none => ⟨.success, out, "", false, s⟩

def runOutline (j : Job) (stdout : Console) (s : Store) (o : Outcome Failure) : Run :=
  let t := (o.program.map Function.toTree).getD (.foreign .nothing)
  match (Printer.answer {} t).1 with
  | .ok text => j.conclude stdout s text (j.log o)
  | .error f => JobFault.run (.plain .noAttribute f.message) j.verbose s "" (j.log o)

def closing (j : Job) : String :=
  "Compiled " ++ j.file ++ " -> " ++ j.destination.text

/-- The file is written before the closing line is printed, which may fail. -/
def runWrite (j : Job) (host : Host) (s : Store) (o : Outcome Failure) (assembly : String) : Run :=
  match s.writeText host.codec j.destination assembly with
  | (some f, t) => (JobFault.ofFileFault f).run j.verbose t "" (j.log o)
  | (none, t) =>
    let written :=
      logLine ("tokenized: " ++ o.tokens.repr ++ " tokens") ++
        logLine ("wrote " ++ assembly.length.repr ++ " bytes to " ++ j.destination.text)
    j.conclude host.stdout t j.closing (j.log o ++ (if j.verbose then written else ""))

def runCompile (j : Job) (host : Host) (s : Store) (source : String) : Run :=
  let o := compile host.nestingLimit j.options j.file source
  match o.unwrap with
  | .error f => JobFault.run (.compilation f.diagnostic) j.verbose s "" (j.log o)
  | .ok assembly =>
    if j.outline then j.runOutline host.stdout s o else j.runWrite host s o assembly

def run (j : Job) (host : Host) (s : Store) : Run :=
  match s.readText j.input with
  | .error f => (JobFault.ofFileFault f).run j.verbose s "" ""
  | .ok source =>
    if j.tokens then j.runTokens host.stdout s source else j.runCompile host s source

end Job

/-- An answer that cannot be printed ends the run outside of all jobs, with the status and the trace
of an error that nobody handles. -/
def Request.run (host : Host) (s : Store) : Request → Run
  | refused report => ⟨.invalidArguments, "", report, false, s⟩
  | question text =>
    match host.stdout.print [echo text] with
    | (out, none) => ⟨.success, out, "", false, s⟩
    | (out, some _) => ⟨.buildError, out, "", true, s⟩
  | job j => j.run host s

def runWith (read : Store → List String → Request) (host : Host) (s : Store)
    (args : List String) : Run :=
  (read s args).run host s

def runCommand (host : Host) (s : Store) (args : List String) : Run :=
  runWith Request.read host s args

end TinyC

import TinyC.Command.Run

/-! The command line program. The files that the arguments name are loaded into a store, the
command runs on the store, and what it wrote is saved. -/

namespace TinyC.Main

def candidates (a : String) : List String :=
  [a, String.ofList (a.toList.drop 2)] ++ (Arguments.splitValue a).2.toList

def probe (path : String) : IO (Option Entry) := do
  try
    return some (.file (← IO.FS.readBinFile path).data.toList)
  catch
    | .inappropriateType .. => return some .directory
    | _ => return none

def pathTo : Place → String
  | "/" :: names => "/" ++ "/".intercalate names
  | names => "/".intercalate names

def load (s : Store) (path : String) : IO Store := do
  let p := Path.ofString path
  let mut s := s
  let mut place : Place := if p.root = "" then [] else ["/"]
  for name in p.parts do
    match s.enter place name with
    | .error _ => return s
    | .ok next =>
      if (s.find? next).isNone then
        if let some e ← probe (pathTo next) then
          s := s.put next e
      place := next
  return s

def save (before after : Store) : IO Unit := do
  for (place, e) in after.entries do
    if let .file bytes := e then
      if before.find? place ≠ some e then
        IO.FS.writeBinFile (pathTo place) ⟨bytes.toArray⟩

end TinyC.Main

def main (args : List String) : IO UInt32 := do
  let mut s : TinyC.Store := .empty
  for path in args.flatMap TinyC.Main.candidates do
    s ← TinyC.Main.load s path
    let p := TinyC.Path.ofString path
    if p.suffix = ".c" then
      s ← TinyC.Main.load s (p.withSuffix ".s").text
  let r := TinyC.runCommand { nestingLimit := 1000 } s args
  (← IO.getStdout).putStr r.out
  (← IO.getStderr).putStr r.err
  TinyC.Main.save s r.store
  return UInt32.ofNat r.code.value

import TinyC.Compile
import TinyC.Files.Store
import TinyC.Text.Encode
import TinyC.Text.Utf8

namespace TinyC

inductive FileFault where
  | noSource (path : String)
  | access (fault : AccessFault) (path : Path)
  | decoding (fault : Text.DecodeFault)
  | encoding (fault : Text.EncodeFault)
  | compilation (failure : Failure)
deriving DecidableEq

namespace FileFault

def message : FileFault → String
  | noSource path => "Source file not found: " ++ path
  | access f path => f.message path
  | decoding f => f.message
  | encoding f => f.message
  | compilation f => f.diagnostic.text

def errorClass : FileFault → ErrorClass
  | noSource _ => .plain .fileNotFound
  | access f _ => .plain f.error
  | decoding _ => .unicodeDecode
  | encoding _ => .plain .unicodeEncode
  | compilation f => .compilation f.diagnostic.stage

end FileFault

namespace Store

def readText (s : Store) (p : Path) : Except FileFault String :=
  match s.read p with
  | .error f => .error (.access f p)
  | .ok bytes =>
    match Text.decode bytes with
    | .error f => .error (.decoding f)
    | .ok text => .ok (String.ofList (Text.unifyLineEndings text))

/-- Writes a text to a file. The file is emptied before the text is encoded. -/
def writeText (s : Store) (codec : Text.Codec) (p : Path) (text : String) :
    Option FileFault × Store :=
  match s.openPlace p with
  | .error f => (some (.access f p), s)
  | .ok place =>
    match codec.fault? text with
    | some f => (some (.encoding f), s.put place (.file []))
    | none => (none, s.put place (.file text.toUTF8.data.toList))

def contains (s : Store) (p : Path) : Except AccessFault Bool :=
  match s.locate p >>= s.entryAt with
  | .ok _ => .ok true
  | .error .nameTooLong => .error .nameTooLong
  | .error .denied => .error .denied
  | .error _ => .ok false

def compileFile (s : Store) (limit : Nat) (o : Options) (path : String) :
    Except FileFault String :=
  let p := Path.ofString path
  match s.contains p with
  | .error f => .error (.access f p)
  | .ok false => .error (.noSource path)
  | .ok true =>
    match s.readText p with
    | .error f => .error f
    | .ok source => (compile limit o path source).unwrap.mapError .compilation

def compileTo (s : Store) (limit : Nat) (codec : Text.Codec) (o : Options)
    (path output : String) : Except FileFault String × Store :=
  match s.compileFile limit o path with
  | .error f => (.error f, s)
  | .ok assembly =>
    if output = "" then (.ok assembly, s)
    else match s.writeText codec (Path.ofString output) assembly with
      | (some f, t) => (.error f, t)
      | (none, t) => (.ok assembly, t)

end Store

end TinyC

import TinyC.Error
import TinyC.Text.Encode
import TinyC.Text.Escape

namespace TinyC

inductive PrintFault where
  | encoding (fault : Text.EncodeFault)
  | device (message : String)
deriving DecidableEq

namespace PrintFault

def message : PrintFault → String
  | encoding f => f.message
  | device message => message

def error : PrintFault → PlainError
  | encoding _ => .unicodeEncode
  | device _ => .os

end PrintFault

def echo (s : String) : String :=
  String.ofList (Text.withoutControls s.toList) ++ "\n"

/-- Where a run prints to. Given what was printed before, a text may be refused. -/
structure Console where
  fault? : String → String → Option PrintFault := fun _ _ => none

namespace Console

def ofCodec (codec : Text.Codec) : Console :=
  ⟨fun _ text => (codec.fault? text).map .encoding⟩

def printFrom (c : Console) (out : String) : List String → String × Option PrintFault
  | [] => (out, none)
  | text :: texts =>
    match c.fault? out text with
    | some f => (out, some f)
    | none => c.printFrom (out ++ text) texts

def print (c : Console) (texts : List String) : String × Option PrintFault :=
  c.printFrom "" texts

end Console

/-- What a run depends on besides its arguments and the files. Bytes of an argument that are no text
are carried by stray characters, each of which stands for a lone surrogate: paths may hold them, but
no file can be written with them. Standard output may refuse these and others; what goes to the
error output is escaped where it has to be. -/
structure Host where
  stdout : Console := {}
  stray? : Char → Option Nat := fun _ => none
  nestingLimit : Nat

namespace Host

def codec (h : Host) : Text.Codec :=
  .utf8 h.stray?

end Host

end TinyC

import TinyC.Text.Quoted

namespace TinyC.Text

structure EncodeFault where
  codec : String
  code : Nat
  start : Nat
  stop : Nat
  reason : String
deriving DecidableEq

namespace EncodeFault

def message (f : EncodeFault) : String :=
  let place :=
    if f.stop = f.start + 1 then
      "character '" ++ String.ofList (escapeCode f.code) ++ "' in position " ++ f.start.repr
    else "characters in position " ++ f.start.repr ++ "-" ++ (f.stop - 1).repr
  "'" ++ f.codec ++ "' codec can't encode " ++ place ++ ": " ++ f.reason

end EncodeFault

structure Codec where
  name : String
  reason : String
  refused? : Char → Option Nat

namespace Codec

def utf8 (stray? : Char → Option Nat) : Codec :=
  ⟨"utf-8", "surrogates not allowed", stray?⟩

def accepts (codec : Codec) (c : Char) : Bool :=
  (codec.refused? c).isNone

def fault? (codec : Codec) (text : String) : Option EncodeFault :=
  let start := (text.toList.takeWhile codec.accepts).length
  let run := (text.toList.dropWhile codec.accepts).takeWhile fun c => !codec.accepts c
  (run.head?.bind codec.refused?).map fun code =>
    ⟨codec.name, code, start, start + run.length, codec.reason⟩

end Codec

end TinyC.Text

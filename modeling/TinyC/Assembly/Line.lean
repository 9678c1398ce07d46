namespace TinyC

inductive Line where
  | raw (text : String)
  | comment (text : String)
  | label (name : String)
  | directive (name : String) (arguments : List String)
  | instruction (mnemonic : String) (operands : List String)
deriving DecidableEq

namespace Line

def margin : String :=
  "        "

def padded (mnemonic : String) : String :=
  mnemonic ++ String.ofList (List.replicate (8 - mnemonic.length) ' ')

def text : Line → String
  | raw s => s
  | comment s => margin ++ "# " ++ s
  | label name => name ++ ":"
  | directive name [] => margin ++ name
  | directive name arguments => margin ++ name ++ " " ++ ", ".intercalate arguments
  | instruction mnemonic [] => margin ++ mnemonic
  | instruction mnemonic operands => margin ++ padded mnemonic ++ ", ".intercalate operands

end Line

abbrev Listing : Type :=
  Array Line

namespace Listing

def text (l : Listing) : String :=
  String.join (l.toList.map fun line => line.text ++ "\n")

end Listing

end TinyC

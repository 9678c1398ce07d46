namespace TinyC

structure Location where
  file : String
  line : Int
  column : Int
deriving DecidableEq

namespace Location

def text (l : Location) : String :=
  l.file ++ ":" ++ l.line.repr ++ ":" ++ l.column.repr

end Location

end TinyC

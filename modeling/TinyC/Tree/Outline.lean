import TinyC.Error
import TinyC.Tree

namespace TinyC

inductive TreeFault where
  | noNode (value : Foreign)
  | noOperator
deriving DecidableEq

namespace TreeFault

def message : TreeFault → String
  | noNode v => "'" ++ v.typeName ++ "' object has no attribute '__dataclass_fields__'"
  | noOperator => "'NoneType' object has no attribute 'value'"

def errorClass (_ : TreeFault) : ErrorClass :=
  .plain .noAttribute

end TreeFault

namespace Tree

def indented (depth : Nat) (s : String) : String :=
  String.ofList (List.replicate (2 * depth) ' ') ++ s

def symbolOf : Option Operator → Except TreeFault String
  | some op => .ok op.symbol
  | none => .error .noOperator

def outlineAt (depth : Nat) : Tree → Except TreeFault (List String)
  | foreign _ => .ok []
  | blank _ => .ok []
  | literal _ v => .ok [indented depth ("Int " ++ v)]
  | unary _ op x => do
    let s ← symbolOf op
    return indented depth ("Unary " ++ s) :: (← x.outlineAt (depth + 1))
  | binary _ op l r => do
    let s ← symbolOf op
    return indented depth ("Binary " ++ s) ::
      ((← l.outlineAt (depth + 1)) ++ (← r.outlineAt (depth + 1)))
  | ret _ x => return indented depth "Return" :: (← x.outlineAt (depth + 1))
  | function _ name body =>
    return indented depth ("Function: " ++ name) :: (← body.outlineAt (depth + 1))

def outline : Tree → Except TreeFault String
  | foreign v => .error (.noNode v)
  | t => "\n".intercalate <$> t.outlineAt 0

end Tree

end TinyC

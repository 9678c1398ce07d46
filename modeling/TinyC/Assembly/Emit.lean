import TinyC.Assembly.Instruction
import TinyC.Error
import TinyC.Text.Digit
import TinyC.Tree.Description

namespace TinyC

structure Settings where
  target : Target := .x86_64
  symbolPrefix : String := ""
  comments : Bool := false
deriving DecidableEq

inductive EmitFault where
  | unaryOperator (op : Option Operator) (location : Option Location)
  | binaryOperator (op : Option Operator) (location : Option Location)
  | noCode (typeName : String) (location : Option Location)
  | noDigit (c : Char)
  | noOperator
  | noNode (typeName : String)
deriving DecidableEq

namespace EmitFault

def message : EmitFault → String
  | unaryOperator op _ => "unsupported unary operator " ++ Tree.describeOperator op
  | binaryOperator op _ => "unsupported binary operator " ++ Tree.describeOperator op
  | noCode typeName _ => "cannot generate code for " ++ typeName
  | noDigit c => "invalid literal for int() with base 10: " ++ Text.quote c.toString
  | noOperator => "'NoneType' object has no attribute 'value'"
  | noNode typeName => "'" ++ typeName ++ "' object has no attribute 'emit'"

def location : EmitFault → Option Location
  | unaryOperator _ l => l
  | binaryOperator _ l => l
  | noCode _ l => l
  | noDigit _ => none
  | noOperator => none
  | noNode _ => none

def errorClass : EmitFault → ErrorClass
  | unaryOperator _ _ => .compilation .generation
  | binaryOperator _ _ => .compilation .generation
  | noCode _ _ => .compilation .generation
  | noDigit _ => .plain .value
  | noOperator => .plain .noAttribute
  | noNode _ => .plain .noAttribute

def diagnostic (f : EmitFault) : Diagnostic :=
  ⟨.generation, f.message, f.location, none, none⟩

end EmitFault

def wordOfDigits (digits : List Char) : Except Char UInt32 :=
  digits.foldlM (fun w c =>
    match Text.digitValue? c with
    | some d => .ok (w * 10 + UInt32.ofNat d)
    | none => .error c) 0

abbrev Emit (α : Type) : Type :=
  EStateM EmitFault Listing α

namespace Emit

def write (new : List Line) : Emit Unit := fun ls =>
  .ok () (ls ++ new.toArray)

def fail {α : Type} (f : EmitFault) : Emit α := fun ls =>
  .error f ls

def note (s : Settings) (text : String) : Emit Unit :=
  if s.comments then write [.comment text] else pure ()

def code (s : Settings) (is : List Instruction) : Emit Unit :=
  write (is.map (Instruction.line s.target))

def literal (s : Settings) (digits : String) : Emit Unit :=
  match wordOfDigits digits.toList with
  | .ok w => code s [.load w]
  | .error c => fail (.noDigit c)

def noteBinary (s : Settings) (op : Option Operator) : Emit Unit :=
  match op with
  | some o => note s ("binary " ++ o.symbol)
  | none => if s.comments then fail .noOperator else pure ()

def tree (s : Settings) : Tree → Emit Unit
  | .foreign v => fail (.noCode v.typeName none)
  | .blank l => fail (.noCode (Tree.blank l).typeName l)
  | .literal _ digits => literal s digits
  | .unary l op x => do
    tree s x
    match op with
    | some (.unary u) => code s u.code
    | _ => fail (.unaryOperator op l)
  | .binary l op x y => do
    noteBinary s op
    match op with
    | some (.binary b) => do
      if b.leftFirst then tree s x else tree s y
      code s [.spill]
      if b.leftFirst then tree s y else tree s x
      code s (.reload :: b.code)
    | _ => fail (.binaryOperator op l)
  | .ret _ x => do
    tree s x
    note s "return value in %eax"
    code s [.ret]
  | .function _ name body => do
    note s ("Function: " ++ name)
    write [.directive ".globl" [s.symbolPrefix ++ name], .label (s.symbolPrefix ++ name)]
    tree s body

end Emit

end TinyC

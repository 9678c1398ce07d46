namespace TinyC

/-- Arithmetic has 32 bits on both; they differ in the width of a stack slot. -/
inductive Target where
  | i386
  | x86_64
deriving DecidableEq

namespace Target

def all : List Target :=
  [i386, x86_64]

def name : Target → String
  | i386 => "i386"
  | x86_64 => "x86_64"

def push : Target → String
  | i386 => "pushl"
  | x86_64 => "pushq"

def pop : Target → String
  | i386 => "popl"
  | x86_64 => "popq"

def spillRegister : Target → String
  | i386 => "%eax"
  | x86_64 => "%rax"

def reloadRegister : Target → String
  | i386 => "%ecx"
  | x86_64 => "%rcx"

def ofName? (s : String) : Option Target :=
  all.find? (·.name = s)

def choices : String :=
  ", ".intercalate (all.map name)

theorem ofName?_name (t : Target) : ofName? t.name = some t := by
  cases t <;> decide

end Target

end TinyC

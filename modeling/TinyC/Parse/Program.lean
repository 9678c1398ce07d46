import TinyC.Parse.Expression

namespace TinyC

namespace Parse

def statement : Parse Return := do
  let start ← keyword "return"
  let value ← part .expression
  let _ ← expect .semicolon
  return ⟨start.location, value⟩

def function : Parse Function := do
  let start ← keyword "int"
  let name ← expect .identifier
  let _ ← expect .openParen
  let _ ← expect .closeParen
  let _ ← expect .openBrace
  let body ← statement
  let _ ← expect .closeBrace
  return ⟨start.location, name.text, body⟩

def program : Parse Function := do
  let f ← function
  let _ ← expect .eof
  return f

end Parse

def Function.parse (limit : Nat) (file source : String) : Except ParseFault Function :=
  match Reader.start? limit file source with
  | .error f => .error (.lexical f)
  | .ok r =>
    match Parse.program r with
    | .ok f _ => .ok f
    | .error f _ => .error f

end TinyC

import TinyC.Error
import TinyC.Files.Path
import TinyC.Text.Quoted

namespace TinyC

inductive Entry where
  | directory
  | file (bytes : List UInt8)
deriving DecidableEq

/-- The names that lead to an entry, the outermost first. A place outside of the working directory
starts with double dots, one from the root with a slash. -/
abbrev Place : Type :=
  List String

inductive AccessFault where
  | missing
  | denied
  | notDirectory
  | isDirectory
  | nameTooLong
  | embeddedNull
deriving DecidableEq

namespace AccessFault

def message (f : AccessFault) (p : Path) : String :=
  match f with
  | missing => "[Errno 2] No such file or directory: " ++ Text.quote p.text
  | denied => "[Errno 13] Permission denied: " ++ Text.quote p.text
  | notDirectory => "[Errno 20] Not a directory: " ++ Text.quote p.text
  | isDirectory => "[Errno 21] Is a directory: " ++ Text.quote p.text
  | nameTooLong => "[Errno 36] File name too long: " ++ Text.quote p.text
  | embeddedNull => "embedded null byte"

def error : AccessFault → PlainError
  | missing => .fileNotFound
  | denied => .permission
  | notDirectory => .notADirectory
  | isDirectory => .isADirectory
  | nameTooLong => .os
  | embeddedNull => .value

end AccessFault

structure Rights where
  read : Bool := true
  write : Bool := true
  search : Bool := true
deriving DecidableEq

/-- Files and directories, seen from a working directory. Rights that are not listed are full. -/
structure Store where
  entries : List (Place × Entry) := []
  rights : List (Place × Rights) := []
deriving DecidableEq

namespace Store

def empty : Store :=
  {}

def isFixed (p : Place) : Bool :=
  p.all (· = "..") || p = ["/"]

def find? (s : Store) (p : Place) : Option Entry :=
  if isFixed p then some .directory else s.entries.lookup p

def rightsAt (s : Store) (p : Place) : Rights :=
  (s.rights.lookup p).getD {}

def put (s : Store) (p : Place) (e : Entry) : Store :=
  ⟨(p, e) :: s.entries.filter fun x => x.1 ≠ p, s.rights⟩

def install (s : Store) (p : Place) (e : Entry) : Store :=
  let ways := (List.range p.length).map p.take
  (ways.foldl (fun s w => if (s.find? w).isSome then s else s.put w .directory) s).put p e

def parent (p : Place) : Place :=
  if p = ["/"] then p
  else if p.all (· = "..") then p ++ [".."]
  else p.dropLast

def enter (s : Store) (p : Place) (name : String) : Except AccessFault Place :=
  match s.find? p with
  | none => .error .missing
  | some (.file _) => .error .notDirectory
  | some .directory =>
    if name = "" then .ok p
    else if (s.rightsAt p).search = false then .error .denied
    else if name = "." then .ok p
    else if name = ".." then .ok (parent p)
    else if 255 < name.utf8ByteSize then .error .nameTooLong
    else .ok (p ++ [name])

def follow (s : Store) (start : Place) (names : List String) : Except AccessFault Place :=
  names.foldlM s.enter start

/-- What is wrong with the text of a path, whatever the store. With the null byte that ends it, it
may have 4096 bytes. -/
def textFault? (path : String) : Option AccessFault :=
  if path.toList.contains '\x00' then some .embeddedNull
  else if 4095 < path.utf8ByteSize then some .nameTooLong
  else none

def locate (s : Store) (p : Path) : Except AccessFault Place :=
  match textFault? p.text with
  | some f => .error f
  | none => s.follow (if p.root = "" then [] else ["/"]) p.parts

def entryAt (s : Store) (place : Place) : Except AccessFault (Place × Entry) :=
  (s.find? place).elim (.error .missing) fun e => .ok (place, e)

def look (s : Store) (path : String) : Except AccessFault (Place × Entry) :=
  if path = "" then .error .missing
  else match textFault? path with
    | some f => .error f
    | none => do
      let place ← match Path.names path with
        | "" :: names => s.follow ["/"] names
        | names => s.follow [] names
      s.entryAt place

def read (s : Store) (p : Path) : Except AccessFault (List UInt8) := do
  let (place, e) ← s.entryAt (← s.locate p)
  if (s.rightsAt place).read = false then .error .denied
  else match e with
    | .file bytes => .ok bytes
    | .directory => .error .isDirectory

/-- The place of a file that is opened for writing, whether or not it is there. A new one takes the
right to write to its directory. -/
def openPlace (s : Store) (p : Path) : Except AccessFault Place := do
  let place ← s.locate p
  match s.find? place with
  | some .directory => .error .isDirectory
  | some (.file _) => if (s.rightsAt place).write then .ok place else .error .denied
  | none => if (s.rightsAt (parent place)).write then .ok place else .error .denied

end Store

end TinyC

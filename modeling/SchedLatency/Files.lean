import SchedLatency.Kernel.Object

namespace SchedLatency

inductive FileContent where
  | bytes (bs : List UInt8)
  | object (o : Kernel.Object)

inductive PathFault where
  | notFound
  | notFolder
  | nameTooLong
  /-- A path that ends before its last character. -/
  | nullCharacter
  deriving DecidableEq, Repr

def PathFault.message : PathFault → String
  | notFound => "No such file or directory (os error 2)"
  | notFolder => "Not a directory (os error 20)"
  | nameTooLong => "File name too long (os error 36)"
  | nullCharacter => "file name contained an unexpected NUL byte"

inductive Found where
  | file (content : FileContent)
  | folder
  | nothing (fault : PathFault)

structure Files where
  home : String
  find : String → Found

namespace Files

def folderMessage : String := "Is a directory (os error 21)"

def read (files : Files) (path : String) : Except String FileContent :=
  match files.find path with
  | .file content => .ok content
  | .folder => .error folderMessage
  | .nothing fault => .error fault.message

def hasFile (files : Files) (path : String) : Bool := files.find path matches .file _

end Files

/-- The parts of a path between its slashes. A slash at its end asks for a folder, as a point
does. -/
def pathParts (path : String) : List String :=
  let parts := path.splitOn "/"
  let asksFolder := parts.getLast?=some ""
  parts.filter (· ≠ "")++(if asksFolder then ["."] else [])

/-- A directory: what its names stand for. Where a name has several parts, all but the last are
folders. -/
structure Directory where
  entries : List (List String×Option FileContent)

namespace Directory

def longestName : Nat := 255

def longestPath : Nat := 4095

inductive Place where
  | inside (parts : List String)
  | outside

/-- What is at some place. Above and beside the directory there are only folders. -/
def lookUp (d : Directory) : Place → Found
  | .outside => .folder
  | .inside parts =>
    match d.entries.lookup parts with
    | some (some content) => .file content
    | some none => .folder
    | none =>
      if parts.isEmpty || d.entries.any fun e => parts.isPrefixOf e.1 then .folder
      else .nothing .notFound

def Place.enter (p : Place) (name : String) : Option Place :=
  match p with
  | outside => if name = ".." || name = "." then some outside else none
  | inside parts =>
    if name = "." then some p
    else if name = ".." then if parts.isEmpty then some outside else some (inside parts.dropLast)
    else some (inside (parts++[name]))

def follow (d : Directory) : Place → List String → Found
  | p,[] => d.lookUp p
  | p,name :: rest =>
    match d.lookUp p with
    | .folder =>
      if longestName<name.utf8ByteSize then .nothing .nameTooLong
      else match p.enter name with
        | some p => follow d p rest
        | none => .nothing .notFound
    | .file _ => .nothing .notFolder
    | .nothing fault => .nothing fault

def find (d : Directory) (path : String) : Found :=
  if path.toList.contains '\x00' then .nothing .nullCharacter
  else if path = "" then .nothing .notFound
  else if longestPath<path.utf8ByteSize then .nothing .nameTooLong
  else follow d (if path.startsWith "/" then .outside else .inside []) (pathParts path)

def files (d : Directory) (home : String) : Files := ⟨home,d.find⟩

end Directory
end SchedLatency

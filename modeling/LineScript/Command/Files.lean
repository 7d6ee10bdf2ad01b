import LineScript.Source
import LineScript.Text.Bytes

namespace LineScript.Command

abbrev Files := List (Bytes × Bytes)

def pathParts (path : Bytes) : List Bytes :=
  path.splitOn '/'.toUInt8

def cannotOpen (path : Bytes) (why : String) : Bytes :=
  utf8 "open " ++ path ++ utf8 ": " ++ utf8 why

def cannotRead (path : Bytes) : Bytes :=
  utf8 "read " ++ path ++ utf8 ": is a directory"

inductive Place where
  | inside
  | outside
  | file (content : Bytes)
  deriving DecidableEq, Repr, Inhabited

/-- Follows one part of a path, or tells why it leads nowhere. What lies outside the working
directory does not exist, apart from directories above. -/
def Files.follow (files : Files) (place : Place) (part : Bytes) : Except String Place :=
  match place with
  | .file _ => .error "not a directory"
  | _ =>
      if part = [] ∨ part = utf8 "." then .ok place
      else if part = utf8 ".." then .ok .outside
      else if 255 < part.length then .error "file name too long"
      else
        match if place = .inside then files.lookup part else none with
        | some content => .ok (.file content)
        | none => .error "no such file or directory"

/-- Follows a path from the working directory or, after a slash at its start, from elsewhere. -/
def Files.resolve (files : Files) (path : Bytes) : Except String Place :=
  if path = [] then .error "no such file or directory"
  else if 0 ∈ path then .error "invalid argument"
  else if 4096 ≤ path.length then .error "file name too long"
  else
    (pathParts path).foldlM files.follow
      (if path.head? = some '/'.toUInt8 then .outside else .inside)

/-- Opens a path and gives what can be read from it. A directory can be opened but not read. -/
def Files.openPath (files : Files) (path : Bytes) : Except Bytes Source :=
  match files.resolve path with
  | .error why => .error (cannotOpen path why)
  | .ok (.file content) => .ok (Source.ofBytes content)
  | .ok _ => .ok [.failed (cannotRead path)]

end LineScript.Command

/-! Paths to files, and what they lead to among files that all lie in one place. -/

namespace Walkthrough.CommandLine

/-- The parts of a path; a dot leads nowhere. -/
def pathParts (path : String) : List String :=
  ((path.splitOn "/").filter fun part => part ≠ "" && part ≠ ".")

/-- The extension of the file that a path names: what follows its last dot, unless the name starts
with that dot. -/
def extension (path : String) : String :=
  match (pathParts path).getLast? with
  | none => ""
  | some name =>
    let backwards := name.toList.reverse
    match backwards.dropWhile (· != '.') with
    | _ :: _ :: _ =>
      if name = ".." then "" else String.ofList (backwards.takeWhile (· != '.')).reverse
    | _ => ""

/-- Files by the parts of their paths. -/
abbrev Files := List (List String × String)

/-- There is a file somewhere below. The place of all files is a folder even if there is none. -/
def Files.isFolder (files : Files) (parts : List String) : Bool :=
  parts.isEmpty || files.any fun f => f.1 ≠ parts && parts.isPrefixOf f.1

inductive Place where
  | file (contents : String)
  | folder (parts : List String)
  /-- A folder outside the place of the files. -/
  | elsewhere
  | missing
  | blocked (reason : String)
deriving DecidableEq, Repr

namespace Place

def notAFolder : Place := .blocked "Not a directory (os error 20)"

/-- What has a name within a folder. -/
def named (files : Files) (parts : List String) : Place :=
  match files.lookup parts with
  | some contents => .file contents
  | none => if files.isFolder parts then .folder parts else .missing

/-- Goes one part further. An empty part or a dot stays, but only within a folder. -/
def enter (files : Files) (place : Place) (part : String) : Place :=
  match place with
  | .file _ => notAFolder
  | .folder parts =>
    if part = "" || part = "." then .folder parts
    else if part = ".." then if parts.isEmpty then .elsewhere else .folder parts.dropLast
    else if part.toList.contains '\x00' then
      .blocked "file name contained an unexpected NUL byte"
    else if 255 < part.utf8ByteSize then .blocked "File name too long (os error 36)"
    else named files (parts ++ [part])
  | .elsewhere => if part = "" || part = "." || part = ".." then .elsewhere else .missing
  | .missing => .missing
  | .blocked reason => .blocked reason

/-- The place at the end of a path, part by part. A path that starts with a slash leads away. -/
def ofParts (files : Files) (parts : List String) : Place :=
  match parts with
  | "" :: rest => rest.foldl (enter files) .elsewhere
  | parts => parts.foldl (enter files) (.folder [])

end Place
end Walkthrough.CommandLine

import LoxLexer.File.Error

/-!
# Directories

A working directory as plain data, and what is found at a path that starts from it. A path is walked
name by name: a dot or nothing between two slashes stays where it is, two dots go up, and only a
directory can be gone through, even where the path then stays or goes up. Above the working
directory, and at the root, only a few places are known.
-/

namespace LoxLexer

/-- What a directory holds under a name. -/
inductive Entry where
  | file (bytes : List UInt8)
  | directory
deriving DecidableEq

/-- A working directory: the paths of what it holds, each path from the directory down. -/
structure Directory where
  entries : List (String × Entry)

namespace Directory

/-- The names in a path, which stand between slashes. -/
def splitNames : List Char → List (List Char)
  | [] => [[]]
  | c :: cs =>
    if c = '/' then [] :: splitNames cs
    else
      match splitNames cs with
      | [] => [[c]]
      | n :: ns => (c :: n) :: ns

/-- Where walking a path has come to. -/
inductive Spot where
  /-- Within the directory, at the end of these names, the last one first. -/
  | within (names : List String)
  /-- Above the directory. -/
  | above
  /-- At the root of all paths, or from there at the end of these names. -/
  | root (names : List String)
  /-- Where nothing is known to be. -/
  | unknown
deriving DecidableEq

/-- The path of names, the last of which comes first. -/
def pathOf (names : List String) : String :=
  "/".intercalate names.reverse

/-- The directories that usually lie right under the root. -/
def usualDirectories : List String :=
  ["bin", "boot", "dev", "etc", "home", "lib", "media", "mnt", "opt", "proc", "root", "run", "sbin",
    "srv", "sys", "tmp", "usr", "var"]

/-- What is known to lie under the root: the usual directories, and the device that is always
empty. -/
def underRoot : List String → Option Entry
  | [] => some .directory
  | [name] => if name ∈ usualDirectories then some .directory else none
  | names => if names = ["null", "dev"] then some (.file []) else none

/-- What is at a spot, if there is anything. What comes later in the list of entries counts, and a
directory in which something lies is there. -/
def entryAt (d : Directory) : Spot → Option Entry
  | .within [] => some .directory
  | .within names =>
    match d.entries.reverse.find? (·.1 == pathOf names) with
    | some e => some e.2
    | none =>
      if d.entries.any (fun e => (pathOf names ++ "/").toList.isPrefixOf e.1.toList) then
        some .directory
      else none
  | .above => some .directory
  | .root names => underRoot names
  | .unknown => none

/-- The spot that a name leads to. -/
def Spot.enter (name : String) : Spot → Spot
  | s@(within names) =>
    if name = "" || name = "." then s
    else if name = ".." then (match names with | [] => above | _ :: rest => within rest)
    else within (name :: names)
  | above => if name = "" || name = "." || name = ".." then above else unknown
  | s@(root names) =>
    if name = "" || name = "." then s
    else if name = ".." then root names.tail
    else root (name :: names)
  | unknown => unknown

/-- Walk the names of a path from a spot. -/
def walk (d : Directory) (spot : Spot) : List String → Except ReadError Entry
  | [] =>
    match d.entryAt spot with
    | some e => .ok e
    | none => .error .notFound
  | name :: names =>
    match d.entryAt spot with
    | some .directory =>
      if 255 < name.utf8ByteSize then .error .nameTooLong else d.walk (spot.enter name) names
    | some (.file _) => .error .notDirectory
    | none => .error .notFound

/-- What is at a path. -/
def find (d : Directory) (path : String) : Except ReadError Entry :=
  if path.toList.contains '\x00' then .error .nulInName
  else if path = "" then .error .notFound
  else if 4096 ≤ path.utf8ByteSize then .error .nameTooLong
  else
    let start : Spot := if path.toList.head? = some '/' then .root [] else .within []
    d.walk start ((splitNames path.toList).map String.ofList)

/-- The bytes of the file at a path. -/
def files (d : Directory) : Files := fun path =>
  match d.find path with
  | .error e => .error e
  | .ok .directory => .error .isDirectory
  | .ok (.file bytes) => .ok bytes

end Directory

end LoxLexer

import Tapewright.Stream.Fault

namespace Tapewright.CommandLine

/-! The files a command can open.

A command runs in a directory of its own, two levels below the root of a file tree.
Beside the files of that directory only the usual directories below the root, the empty
device and the standard input are there.  A path is walked name by name, and the walk
ends at the first name that cannot be followed.
-/

structure Directory where
  files : List (String × List UInt8)
deriving DecidableEq, Repr

namespace Directory

/-- The most bytes a name can have. -/
def maxNameBytes : Nat := 255

/-- The most bytes a path can have. -/
def maxPathBytes : Nat := 4095

inductive Entry where
  | directory
  | file (contents : List UInt8)
  | standardInput
deriving DecidableEq, Repr

/-- The names along a path.  Empty names and single dots stay in place. -/
def steps (path : String) : List String :=
  (path.splitOn "/").filter fun name => name != "" && name != "."

def endsAsDirectory (path : String) : Bool :=
  match (path.splitOn "/").getLast? with
  | some name => name == "" || name == "."
  | none => true

def home : List String :=
  ["tmp", "tapewright"]

/-- The directories below the root that are always there. -/
def topDirectories : List String :=
  ["bin", "boot", "dev", "etc", "home", "lib", "lib64", "media", "mnt", "opt", "proc", "root",
    "run", "sbin", "srv", "sys", "tmp", "usr", "var"]

/-- The entry of a file tree at a place, by the names from the root. -/
def entry? (directory : Directory) (place : List String) : Option Entry :=
  match place with
  | [] => some .directory
  | [name] => if name ∈ topDirectories then some .directory else none
  | ["dev", "null"] => some (.file [])
  | ["dev", "stdin"] => some .standardInput
  | _ =>
      if place = home then some .directory
      else
        let files := directory.files.map fun entry => (home ++ steps entry.1, entry.2)
        match files.find? (·.1 == place) with
        | some (_, contents) => some (.file contents)
        | none => if files.any (place.isPrefixOf ·.1) then some .directory else none

/-- Walk from an entry at a place along names.  Two dots lead to the directory above,
and the root is above itself. -/
def walk (directory : Directory) (place : List String) (entry : Entry) :
    List String → Except Fault Entry
  | [] => .ok entry
  | name :: rest =>
      match entry with
      | .file _ | .standardInput => .error .notDirectory
      | .directory =>
          if name = ".." then
            walk directory place.dropLast .directory rest
          else if name.utf8ByteSize > maxNameBytes then
            .error .nameTooLong
          else
            match directory.entry? (place ++ [name]) with
            | none => .error .noSuchFile
            | some next => walk directory (place ++ [name]) next rest

def find (directory : Directory) (path : String) : Except Fault Entry :=
  if path.utf8ByteSize > maxPathBytes then
    .error .nameTooLong
  else
    let place := if path.startsWith "/" then [] else home
    match directory.walk place .directory (steps path) with
    | .error fault => .error fault
    | .ok .directory => .ok .directory
    | .ok entry => if endsAsDirectory path then .error .notDirectory else .ok entry

/-- What can be read at a path: the contents of a file, or `none` for the standard
input. -/
def read (directory : Directory) (path : String) : Except Fault (Option (List UInt8)) :=
  match directory.find path with
  | .error fault => .error fault
  | .ok .directory => .error .isDirectory
  | .ok (.file contents) => .ok (some contents)
  | .ok .standardInput => .ok none

end Directory

end Tapewright.CommandLine

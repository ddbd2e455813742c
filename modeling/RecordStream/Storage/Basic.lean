import RecordStream.Fault

/-!
# Storage

A tree of files and directories.  A path is a text with slashes between names; it
starts at the root if its first character is a slash, and at the home directory
otherwise.  Every place on the way to the last name has to be a directory.

Storage tells the size of a file before the file is read.  The contents of a
generated file come into being only by reading it, so its size is told as zero.

Reading finds the place of a path and then looks what is there.  Writing first
finds the directory in which a file is to stand, and then judges the last name: a
slash behind it asks for a directory, whether there is one or not.
-/

namespace RecordStream

namespace Storage

/-- The names from the root on. -/
abbrev Place := List String

/-- What can be at a place. -/
inductive Node
  | file (contents : Bytes)
  /-- A file that is made by reading it, and that nobody can write. -/
  | generated (contents : Bytes)
  /-- A file that stays empty: what is written to it is gone if there is room for it,
  and refused if there is none. -/
  | device (room : Bool)
  /-- A directory; in a closed one there is what the system puts there, and nothing can
  be made for the given cause. -/
  | directory (closed? : Option StorageCause)
  deriving DecidableEq

end Storage

structure Storage where
  /-- What is where; the root is not listed. -/
  nodes : List (Storage.Place × Storage.Node)
  home : Storage.Place

namespace Storage

/-- The directory in which paths start. -/
def homeDirectory : Place := ["tmp", "home000001"]

/-- The directories at the root in which something can be made. -/
def openDirectories : List String :=
  ["bin", "boot", "dev", "etc", "home", "lib", "lib64", "media", "mnt", "opt", "root", "run", "sbin",
    "srv", "tmp", "usr", "var"]

/-- An empty home directory, on a system that tells what it is. -/
def initial : Storage where
  nodes := openDirectories.map (fun name => ([name], .directory none)) ++ [
    (homeDirectory, .directory none),
    (["dev", "null"], .device true),
    (["dev", "full"], .device false),
    (["sys"], .directory (some .permissionDenied)),
    (["sys", "kernel"], .directory (some .permissionDenied)),
    (["proc"], .directory (some .notFound)),
    (["proc", "self"], .directory (some .notFound)),
    (["proc", "sys"], .directory (some .notFound)),
    (["proc", "sys", "kernel"], .directory (some .notFound)),
    (["proc", "sys", "kernel", "ostype"], .generated "Linux\n".toUTF8.data.toList)]
  home := homeDirectory

/-- What is at a place, if anything. -/
def node? (s : Storage) (p : Place) : Option Node :=
  if p = [] then some (.directory none) else s.nodes.lookup p

/-- Replaces what is at a place. -/
def setNode (s : Storage) (p : Place) (n : Node) : Storage :=
  { s with nodes := (p, n) :: s.nodes }

/-- The number of bytes that a name can have. -/
def maxNameSize : Nat := 255

/-- The number of bytes that a path from the root can have. -/
def maxPathSize : Nat := 4095

/-- The place behind a name, seen from a directory. -/
def enter (p : Place) : String → Place
  | "" => p
  | "." => p
  | ".." => p.dropLast
  | name => p ++ [name]

/-- Goes from a place along some names.  Closed directories have no bound on names:
they do not have the name, and that is all. -/
def follow (s : Storage) : Place → List String → Except StorageCause Place
  | p, [] => .ok p
  | p, name :: names =>
    match s.node? p with
    | none => .error .notFound
    | some (.directory closed?) =>
      if closed? = none && maxNameSize < name.utf8ByteSize then .error .nameTooLong
      else follow s (enter p name) names
    | some _ => .error .notDirectory

/-- The place in which a path starts. -/
def start (s : Storage) (path : String) : Place :=
  if path.startsWith "/" then [] else s.home

/-- The number of bytes of a place as a text, with a slash in front of every name. -/
def placeSize (p : Place) : Nat :=
  p.foldl (fun size name => size + name.utf8ByteSize + 1) 0

/-- The number of bytes of a path that is led back to the root. -/
def fullSize (s : Storage) (path : String) : Nat :=
  if path.startsWith "/" then path.utf8ByteSize else placeSize s.home + 1 + path.utf8ByteSize

/-- The place that a path with the given names leads to, whether or not there is
anything. -/
def locate (s : Storage) (path : String) (names : List String) : Except StorageCause Place :=
  if path.toList.contains '\x00' then .error .invalidPath
  else if maxPathSize < s.fullSize path then .error .nameTooLong
  else s.follow (s.start path) names

/-- The names in a path; behind a slash at the end there is one without text. -/
def names (path : String) : List String :=
  path.splitOn "/"

/-- The names in a path up to the last one with a text, which need not exist yet. -/
def namesOfNew (path : String) : List String :=
  ((names path).reverse.dropWhile String.isEmpty).reverse

/-- The names that lead into the directory of the last name with a text. -/
def namesOfParent (path : String) : List String :=
  (namesOfNew path).dropLast ++ [""]

/-- Reads a file, and gives the size that was told and the contents. -/
def fetch (s : Storage) (path : String) : Except StorageCause (Nat × Bytes) := do
  match s.node? (← s.locate path (names path)) with
  | none => throw .notFound
  | some (.directory _) => throw .isDirectory
  | some (.file contents) => return (contents.length, contents)
  | some (.generated contents) => return (0, contents)
  | some (.device _) => return (0, [])

/-- Puts a node where there is nothing yet. -/
def make (s : Storage) (p : Place) (n : Node) : Except StorageCause Storage :=
  match s.node? p.dropLast with
  | some (.directory (some cause)) => .error cause
  | _ => .ok (s.setNode p n)

/-- Writes a file, in place of one that may be there. -/
def put (s : Storage) (path : String) (contents : Bytes) : Except StorageCause Storage := do
  if path.endsWith "/" then
    let _ ← s.locate path (namesOfParent path)
    throw .isDirectory
  let p ← s.locate path (names path)
  match s.node? p with
  | none => s.make p (.file contents)
  | some (.file _) => return s.setNode p (.file contents)
  | some (.generated _) => throw .permissionDenied
  | some (.device room) => if room || contents.isEmpty then return s else throw .noRoom
  | some (.directory _) => throw .isDirectory

/-- Makes a directory where there is nothing. -/
def makeDirectory (s : Storage) (path : String) : Except StorageCause Storage := do
  let p ← s.locate path (namesOfNew path)
  match s.node? p with
  | some _ => throw .alreadyExists
  | none => s.make p (.directory none)

end Storage

end RecordStream

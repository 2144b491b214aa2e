import Vcs.Picture.Png

/-!
# File Trees

The files and directories that a session finds and leaves behind, as a value.  A way through the tree leads
from directory to directory; a file can be saved where a directory takes it, and a directory can be made
unless a file stands in its way.  `get?_put` says that putting something changes nothing else.
-/

namespace Vcs.CommandLine

/-- The names that lead to a file or directory, innermost first.  They start in the root, which has the name
`/`, or in the working directory, which has none and lies right below the root. -/
abbrev Path := List String

namespace Path

/-- The directory around a path.  Nothing is around the root. -/
def parent : Path → Path
  | [] | ["/"] => ["/"]
  | _ :: path => path

/-- Where a way that is written as a text starts. -/
def start (text : String) : Path :=
  if text.startsWith "/" then ["/"] else []

/-- Most bytes of a text that stands for a way, and of a name on it. -/
abbrev longest : Nat := 4095

abbrev longestName : Nat := 255

/-- Standard output and standard error. -/
def output : Path := ["1", "fd", "self", "proc", "/"]

def errors : Path := ["2", "fd", "self", "proc", "/"]

end Path

/-- What a session saves. -/
inductive Contents where
  | picture (picture : Picture)
  | lines (lines : List String)

/-- What a path leads to. -/
inductive Entry where
  | directory
  /-- A directory in which nothing new can be made. -/
  | fixedDirectory
  /-- Another name for what a path leads to, which is no link. -/
  | link (target : Path)
  | file (contents : Contents)
  /-- Takes everything.  What was written to it last, if anything was. -/
  | stream (last : Option Contents)
  /-- A device without room. -/
  | fullDevice
  /-- A device that cannot be opened. -/
  | closedDevice

/-- All files and directories. -/
structure FileTree where
  entries : List (Path × Entry)

namespace FileTree

/-- The root and the working directory, with nothing in them. -/
def empty : FileTree where
  entries := [(["/"], .directory), ([], .directory)]

/-- What a path leads to, if it leads anywhere. -/
def get? (tree : FileTree) (path : Path) : Option Entry :=
  tree.entries.lookup path

/-- Has a path lead to an entry. -/
def put (tree : FileTree) (path : Path) (entry : Entry) : FileTree where
  entries := (path, entry) :: tree.entries.filter (·.1 != path)

/-- The entries of a directory, in the order of their names. -/
def contents (tree : FileTree) (directory : Path) : List (String × Entry) :=
  let inside := tree.entries.filterMap fun (path, entry) ↦
    match path with
    | name :: parent => if parent = directory then some (name, entry) else none
    | [] => none
  inside.mergeSort (·.1 ≤ ·.1)

/-- Whether a path leads to a directory. -/
def isDirectory (tree : FileTree) (path : Path) : Bool :=
  match tree.get? path with
  | some .directory | some .fixedDirectory => true
  | _ => false

/-- Follows a name from a directory, and the link that is found there. -/
def follow (tree : FileTree) (directory : Path) (name : String) : Path :=
  match name with
  | "" | "." => directory
  | ".." => directory.parent
  | name =>
    match tree.get? (name :: directory) with
    | some (.link target) => target
    | _ => name :: directory

/-- Follows some names, all of which must lead to directories. -/
def walk? (tree : FileTree) (directory : Path) : List String → Option Path
  | [] => some directory
  | name :: names =>
    let next := tree.follow directory name
    if tree.isDirectory next then tree.walk? next names else none

/-- The path of a file that a text stands for.  A text that ends in a slash or a dot names no file. -/
def filePath? (tree : FileTree) (text : String) : Option Path :=
  let names := text.splitOn "/"
  let name := names.getLastD ""
  if text.utf8ByteSize ≤ Path.longest ∧ name ∉ ["", ".", ".."] then
    (tree.walk? (Path.start text) names.dropLast).map (tree.follow · name)
  else none

/-- Whether something new can be made at a path. -/
def admits (tree : FileTree) (path : Path) : Bool :=
  match path, tree.get? path with
  | name :: directory, none =>
    name.utf8ByteSize ≤ Path.longestName && match tree.get? directory with
      | some .directory => true
      | _ => false
  | _, _ => false

/-- Follows some names and makes the directories that are missing on the way. -/
def makeAlong? (tree : FileTree) (directory : Path) : List String → Option FileTree
  | [] => some tree
  | name :: names =>
    let next := tree.follow directory name
    if tree.isDirectory next then tree.makeAlong? next names
    else if tree.admits next then (tree.put next .directory).makeAlong? next names
    else none

/-- Makes a directory and every directory that is missing on the way to it. -/
def makeDirectory? (tree : FileTree) (text : String) : Option FileTree :=
  if text.utf8ByteSize ≤ Path.longest then
    tree.makeAlong? (Path.start text) (text.splitOn "/")
  else none

/-- Bytes that are held back until there are more of them or somebody asks. -/
abbrev bufferSize : Nat := 8192

/-- Whether nobody learns that a device has no room for something.  Nobody asks about the end of a picture,
which may wait in the buffer, nor about its closing chunk; lines are asked about if there are any. -/
def passesUnwritten : Contents → Bool
  | .lines lines => lines.isEmpty
  | .picture picture => (picture.openFile?.getD ByteArray.empty).size ≤ bufferSize

/-- Saves something at a path.  A file that is there is replaced. -/
def saveAt? (tree : FileTree) (path : Path) (contents : Contents) : Option FileTree :=
  match tree.get? path, contents with
  | none, contents => if tree.admits path then some (tree.put path (.file contents)) else none
  | some (.file _), contents => some (tree.put path (.file contents))
  | some (.stream _), .lines [] => some tree
  | some (.stream _), contents => some (tree.put path (.stream (some contents)))
  | some .fullDevice, contents => if passesUnwritten contents then some tree else none
  | some _, _ => none

/-- Saves something where a text says. -/
def save? (tree : FileTree) (text : String) (contents : Contents) : Option FileTree := do
  tree.saveAt? (← tree.filePath? text) contents

/-- The usual directories and devices of a Unix system, beside an empty working directory. -/
def unix : FileTree :=
  let add (tree : FileTree) (entry : Entry) (paths : List Path) :=
    paths.foldl (·.put · entry) tree
  let below (directory : Path) (names : List String) : List Path := names.map (· :: directory)
  let tree := add empty .directory <|
    below ["/"] ["boot", "dev", "etc", "home", "media", "mnt", "opt", "root", "run", "srv", "tmp",
      "usr", "var"] ++
    below ["usr", "/"] ["bin", "lib", "lib64", "local", "sbin", "share"] ++
    below ["var", "/"] ["lib", "log", "tmp"] ++ below ["dev", "/"] ["shm"]
  let tree := add tree .fixedDirectory <|
    below ["/"] ["proc", "sys"] ++ below ["proc", "/"] ["1", "self"] ++
    [["fd", "self", "proc", "/"], ["pts", "dev", "/"]]
  let tree := add tree (.stream none) <|
    below ["dev", "/"] ["null", "random", "urandom", "zero"] ++
    [Path.output, Path.errors, ["0", "fd", "self", "proc", "/"]]
  let tree := add tree (.file (.lines [])) <|
    below ["etc", "/"] ["group", "hostname", "hosts", "passwd"]
  let tree := tree.put ["full", "dev", "/"] .fullDevice
  let tree := tree.put ["tty", "dev", "/"] .closedDevice
  let links : List (Path × Path) := [
    (["bin", "/"], ["bin", "usr", "/"]), (["lib", "/"], ["lib", "usr", "/"]),
    (["lib64", "/"], ["lib64", "usr", "/"]), (["sbin", "/"], ["sbin", "usr", "/"]),
    (["run", "var", "/"], ["run", "/"]), (["stdin", "dev", "/"], ["0", "fd", "self", "proc", "/"]),
    (["stdout", "dev", "/"], Path.output), (["stderr", "dev", "/"], Path.errors),
    (["fd", "dev", "/"], ["fd", "self", "proc", "/"]), (["cwd", "self", "proc", "/"], []),
    (["root", "self", "proc", "/"], ["/"])]
  links.foldl (fun tree (path, target) ↦ tree.put path (.link target)) tree

/-! ## Laws -/

/-- A path leads to what was put there last. -/
theorem get?_put (tree : FileTree) (path other : Path) (entry : Entry) :
    (tree.put path entry).get? other = if other = path then some entry else tree.get? other := by
  unfold get? put
  rw [List.lookup_cons]
  by_cases h : other = path
  · simp [h]
  · have hne : (other == path) = false := beq_eq_false_iff_ne.mpr h
    rw [hne, if_neg h]
    show List.lookup other (tree.entries.filter (·.1 != path)) = _
    induction tree.entries with
    | nil => rfl
    | cons first rest ih =>
      obtain ⟨key, value⟩ := first
      by_cases hk : key = path
      · simp [List.lookup_cons, hk, hne, ih]
      · simp [List.lookup_cons, hk, ih]

end FileTree

end Vcs.CommandLine

import GraphClient.Keyed

/-!
# File trees

Directories and text files as a tree, and the text at a path. A path is walked name by name: an
empty name and a single dot stay in a directory, two dots go to the directory around it, and any
other name goes inside. Every name on the way needs a directory, so a slash behind a file asks too
much of it.
-/

namespace GraphClient

/-- Why there is no text at a path. -/
inductive FileProblem where
  | notFound
  | notDirectory
  | isDirectory
  | nameTooLong
  | nulCharacter
deriving Repr, DecidableEq, Inhabited

/-- What the system says about a problem. -/
def FileProblem.message : FileProblem → String
  | .notFound => "No such file or directory (os error 2)"
  | .notDirectory => "Not a directory (os error 20)"
  | .isDirectory => "Is a directory (os error 21)"
  | .nameTooLong => "File name too long (os error 36)"
  | .nulCharacter => "file name contained an unexpected NUL byte"

/-- The text of the file at each path. -/
abbrev FileView := String → Except FileProblem String

/-- A file with its text, or a directory with what it holds. -/
inductive FileTree where
  | file (text : String)
  | directory (entries : List (String × FileTree))
deriving Inhabited

namespace FileTree

/-- The greatest size of a name on a path, in bytes. -/
def maxNameSize : Nat := 255

/-- The greatest size of a path, in bytes. -/
def maxPathSize : Nat := 4095

/-- A directory without entries. -/
def empty : FileTree := .directory []

/-- Follows names from a place in a tree. `around` holds the directories around the place, innermost
first; there is no way out of the outermost one. -/
def follow (around : List FileTree) (place : FileTree) :
    List String → Except FileProblem FileTree
  | [] => .ok place
  | name :: rest =>
    match place with
    | .file _ => .error .notDirectory
    | .directory entries =>
      if name = "" ∨ name = "." then follow around place rest
      else if name = ".." then
        match around with
        | [] => follow [] place rest
        | outer :: further => follow further outer rest
      else if name.utf8ByteSize > maxNameSize then .error .nameTooLong
      else
        match Entries.find? entries name with
        | some inner => follow (place :: around) inner rest
        | none => .error .notFound

@[simp] theorem follow_nil (around : List FileTree) (place : FileTree) :
    place.follow around [] = .ok place := rfl

/-- The text at a place. -/
def text : FileTree → Except FileProblem String
  | .file text => .ok text
  | .directory _ => .error .isDirectory

/-- The texts of a tree. A path without a slash in front starts in an empty directory of its own,
directly below the root. -/
def view (root : FileTree) : FileView := fun path => do
  if path.contains '\x00' then throw .nulCharacter
  if path.isEmpty then throw .notFound
  if path.utf8ByteSize > maxPathSize then throw .nameTooLong
  let names := path.splitOn "/"
  let place ←
    if names.head? = some "" then root.follow [] names else empty.follow [root] names
  place.text

/-- The names of the directories that every system has below its root, besides that of devices. -/
def usualNames : List String :=
  ["bin", "boot", "etc", "home", "lib", "media", "mnt", "opt", "proc", "root", "run", "sbin", "srv",
    "sys", "tmp", "usr", "var"]

/-- A tree that holds the usual directories, all of them empty, and the null device. -/
def bare : FileTree :=
  .directory (("dev", .directory [("null", .file "")]) :: usualNames.map fun name => (name, empty))

end FileTree

end GraphClient

/-
  Files in directories.

  * `FileError`: why a file cannot be opened or read.
  * `FileTree`: files and directories, each under its name.
  * `FileTree.follow`: what some names lead to, one after the other.
  * `FileTree.find`: what a path leads to.
-/

namespace CreditCircle

/-! ## What can go wrong -/

/-- Why a file cannot be opened or read. -/
inductive FileError where
  | notFound
  | accessDenied
  /-- A name is followed by others, but it is the name of a file. -/
  | notDirectory
  /-- A directory is read as if it were a file. -/
  | isDirectory
  | nameTooLong
  | nulInName
  | other (text : String)

/-- The wording of an error. -/
def FileError.message : FileError → String
  | notFound => "No such file or directory (os error 2)"
  | accessDenied => "Permission denied (os error 13)"
  | notDirectory => "Not a directory (os error 20)"
  | isDirectory => "Is a directory (os error 21)"
  | nameTooLong => "File name too long (os error 36)"
  | nulInName => "file name contained an unexpected NUL byte"
  | other text => text

/-! ## Trees -/

/-- A file, or a directory of named trees. -/
inductive FileTree where
  | file (content : List UInt8)
  | directory (entries : List (String × FileTree))

namespace FileTree

/-- The length of the longest name in bytes. -/
def longestName : Nat := 255

/-- The length of the longest path in bytes. -/
def longestPath : Nat := 4095

/-- What some names lead to.  `above` are the directories around the current one, the nearest
    first.  A name is looked up only in a directory, so what follows a missing name or a file
    does not matter. -/
def follow (above : List FileTree) (here : FileTree) : (names : List String) →
    Except FileError FileTree
  | [] => .ok here
  | name :: names =>
    match here with
    | .file _ => .error .notDirectory
    | .directory entries =>
      if name = "" ∨ name = "." then follow above here names
      else if name = ".." then
        match above with
        | [] => follow [] here names
        | parent :: above => follow above parent names
      else if longestName < name.utf8ByteSize then .error .nameTooLong
      else
        match entries.lookup name with
        | none => .error .notFound
        | some next => follow (here :: above) next names

/-- What a path leads to.  One that does not start with a slash starts at the directory `home`,
    given by the names that lead to it. -/
def find (root : FileTree) (home : List String) (path : String) : Except FileError FileTree :=
  if '\x00' ∈ path.toList then .error .nulInName
  else if path = "" then .error .notFound
  else if longestPath < path.utf8ByteSize then .error .nameTooLong
  else
    let names := path.splitOn "/"
    root.follow [] (if names.head? = some "" then names else home ++ names)

end FileTree
end CreditCircle

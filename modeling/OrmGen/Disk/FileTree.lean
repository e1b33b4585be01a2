/-
  File trees as a program meets them: the tree from its root, and a working directory. A path
  is a text that is followed segment by segment, an absolute one from the root and a relative
  one from the working directory.

  A working directory may be removed. Nothing is found in it then, not even itself, but two
  dots still lead out of it, to those directories above it that were not removed.

  The operations answer whether they succeeded. One that fails may have done a part of its
  work, as making directories does.
-/
import OrmGen.Disk.Node
import OrmGen.Disk.Path

namespace OrmGen

/-- A tree and the directory that relative paths start in. -/
structure FileTree where
  root : FileTree.Node
  workingDirectory : FileTree.Location
  /-- The working directory, or the lowest directory above it that is left if it was removed. -/
  intact : FileTree.Location

namespace FileTree

/-- A tree, seen from a directory in it. -/
def seenFrom (root : Node) (directory : Location) : FileTree := ⟨root, directory, directory⟩

/-- The tree with nothing in it. -/
def empty : FileTree := seenFrom .empty []

/-! ## Paths -/

/-- Whether a text can be followed: it is not empty, has no null character and at most 4095
bytes. -/
def isPath (path : String) : Bool :=
  path ≠ "" && '\x00' ∉ path.toList && path.utf8ByteSize ≤ 4095

/-- The segments of a path. -/
def segments? (path : String) : Option (List String) :=
  if isPath path then some ((path.toList.splitOn '/').map String.ofList) else none

/-- Where the segments of a path start. -/
def origin (workingDirectory : Location) (path : String) : Location :=
  if Path.isAbsolute path then [] else workingDirectory

/-- Where the names of a path start, and the segments from the first name on. The segments in
front of it lead to a directory above the origin, or to the origin itself. -/
def approach? (workingDirectory : Location) (path : String) : Option (Location × List String) :=
  (segments? path).map fun ss =>
    (follow (origin workingDirectory path) (ss.takeWhile isNameless), ss.dropWhile isNameless)

/-- Where the names of a path start, if that is a directory which was not removed. -/
def start? (t : FileTree) (path : String) : Option (Location × List String) :=
  (approach? t.workingDirectory path).filter fun a => a.1.isPrefixOf t.intact

/-- The location that a path leads to, if it exists. -/
def locate? (t : FileTree) (path : String) : Option Location :=
  (t.start? path).bind fun a => t.root.walk? a.1 a.2

/-- Whether a path leads to a file or a directory. -/
def has (t : FileTree) (path : String) : Bool := (t.locate? path).isSome

/-- The contents of the file that a path leads to. -/
def read? (t : FileTree) (path : String) : Option ByteArray :=
  match (t.locate? path).bind t.root.at? with
  | some (.file c) => some c
  | _ => none

/-! ## Changes -/

/-- Make a directory and those above it. The empty path asks for nothing. -/
def makeDirectories (t : FileTree) (path : String) : FileTree × Bool :=
  if path = "" then (t, true)
  else
    match t.start? path with
    | some (l, ss) => ({ t with root := (t.root.makeAlong l ss).1 }, (t.root.makeAlong l ss).2)
    | none => (t, false)

/-- Write a file into a directory that is there, over an earlier file of its name. -/
def write (t : FileTree) (path : String) (contents : ByteArray) : FileTree × Bool :=
  match t.start? path with
  | some (l, ss) =>
    match t.root.walk? l ss.dropLast, ss.getLast? with
    | some d, some name =>
      let free := isName name && !isNameless name
      if free && t.root.hasDirectory d && !t.root.hasDirectory (d ++ [name]) then
        ({ t with root := Node.setAt (.file contents) t.root (d ++ [name]) }, true)
      else (t, false)
    | _, _ => (t, false)
  | none => (t, false)

/-- The tree without what is below a directory. -/
def emptied (t : FileTree) (l : Location) : FileTree :=
  { t with
    root := Node.setAt .empty t.root l
    intact := if l.isPrefixOf t.intact then l else t.intact }

/-- The tree without a directory and what is below it. -/
def removed (t : FileTree) (l : Location) : FileTree :=
  { t with
    root := t.root.removeAt l
    intact := if l.isPrefixOf t.intact then l.dropLast else t.intact }

/-- Remove a directory with all below it. It is emptied first and then removed under the last
name of its path. A path that leads to that name through the directory itself leads nowhere
any more, and nothing is left to remove; a path that does not end in a name is refused. -/
def removeDirectory (t : FileTree) (path : String) : FileTree × Bool :=
  match t.start? path, t.locate? path with
  | some (l, ss), some d =>
    if !t.root.hasDirectory d then (t, false)
    else
      match ss.reverse.dropWhile (· = "") with
      | [] => (t.emptied d, false)
      | last :: above =>
        if ((t.emptied d).root.walk? l above.reverse).isNone then (t.emptied d, true)
        else if isNameless last then (t.emptied d, false)
        else (t.removed d, true)
  | _, _ => (t, false)

/-- Everything in a tree in the order of the names. -/
def listing (t : FileTree) : List (String × Option ByteArray) :=
  (t.root.contentsBelow "").mergeSort fun a b => a.1 ≤ b.1

end FileTree
end OrmGen

/-
  Trees of named entries: directories and files of bytes, no links. A location is the list of
  names that leads from the root of a tree to a place in it. Segments lead from one location
  to another, where a dot stays and two dots lead upward; a tree decides whether they can be
  followed, since each has to start from a directory.
-/
import OrmGen.OrderedMap

namespace OrmGen.FileTree

open OrderedMap (lookup? insertEntry)

/-- The names that lead from the root to a place in a tree. -/
abbrev Location := List String

/-! ## Segments -/

/-- A segment that leads nowhere. -/
def isIdle (segment : String) : Bool := segment = "" || segment = "."

/-- A segment that names no entry: it leads nowhere, or upward. -/
def isNameless (segment : String) : Bool := isIdle segment || segment = ".."

/-- A name that an entry may be given: at most 255 bytes. -/
def isName (name : String) : Bool := name.utf8ByteSize ≤ 255

/-- The location one segment further. Above the root there is nothing but the root. -/
def step (l : Location) (s : String) : Location :=
  if isIdle s then l else if s = ".." then l.dropLast else l ++ [s]

/-- The location that segments lead to. -/
def follow (l : Location) (ss : List String) : Location := ss.foldl step l

/-! ## Nodes -/

/-- A file, or a directory with its entries. -/
inductive Node where
  | file (contents : ByteArray)
  | directory (entries : List (String × Node))
deriving Inhabited

namespace Node

def empty : Node := .directory []

def isDirectory : Node → Bool
  | .file _ => false
  | .directory _ => true

/-- What stands at a location. -/
def at? : Node → Location → Option Node
  | t, [] => some t
  | .file _, _ :: _ => none
  | .directory es, n :: p =>
    match lookup? n es with
    | some t => t.at? p
    | none => none

/-- The tree with `u` at a location whose parent is a directory. -/
def setAt (u : Node) : Node → Location → Node
  | _, [] => u
  | .file c, _ :: _ => .file c
  | .directory es, [n] => .directory (insertEntry n u es)
  | .directory es, n :: p =>
    match lookup? n es with
    | some t => .directory (insertEntry n (setAt u t p) es)
    | none => .directory es

/-- The tree without what stands at a location; the root only loses its entries. -/
def removeAt : Node → Location → Node
  | _, [] => empty
  | .file c, _ :: _ => .file c
  | .directory es, [n] => .directory (es.filter (·.1 ≠ n))
  | .directory es, n :: p =>
    match lookup? n es with
    | some t => .directory (insertEntry n (t.removeAt p) es)
    | none => .directory es

/-- Whether there is a directory at a location. -/
def hasDirectory (t : Node) (l : Location) : Bool := (t.at? l).any isDirectory

/-- The location that segments lead to, if all they lead through are directories and something
stands at their end. -/
def walk? (t : Node) : Location → List String → Option Location
  | l, [] => if (t.at? l).isSome then some l else none
  | l, s :: ss => if t.hasDirectory l then t.walk? (step l s) ss else none

/-- Segments behind a name of which none leads on, but one is a dot. No directory can be made
under a path that ends like this. -/
def endsInDot (segments : List String) : Bool := segments.all isIdle && segments.contains "."

/-- Walk along segments and make the directories that are missing. -/
def makeAlong : Node → Location → List String → Node × Bool
  | t, l, [] => (t, t.hasDirectory l)
  | t, l, s :: ss =>
    if t.hasDirectory l then
      if isNameless s || (t.at? (l ++ [s])).isSome then t.makeAlong (step l s) ss
      else if isName s && !endsInDot ss then (setAt empty t (l ++ [s])).makeAlong (l ++ [s]) ss
      else (t, false)
    else (t, false)

/-! ## Listing -/

mutual

/-- Everything below a tree, under names that start with `above`; the name of a directory
ends in a slash. -/
def contentsBelow (above : String) : Node → List (String × Option ByteArray)
  | .file _ => []
  | .directory es => entriesBelow above es

def entriesBelow (above : String) : List (String × Node) → List (String × Option ByteArray)
  | [] => []
  | (n, .file c) :: es => (above ++ n, some c) :: entriesBelow above es
  | (n, .directory ds) :: es =>
    (above ++ n ++ "/", none) :: (entriesBelow (above ++ n ++ "/") ds ++ entriesBelow above es)

end

end Node
end OrmGen.FileTree

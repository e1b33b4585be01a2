/-
  Paths as texts. Segments are separated by slashes; a path that starts with a slash is
  absolute. Nothing here looks at a disk, and nothing is normalised: `join` only adds text,
  `parent?` only takes text away.
-/
namespace OrmGen.Path

/-- Whether a path starts with a slash. -/
def isAbsolute (p : String) : Bool := p.toList.head? = some '/'

/-- `base` followed by `p`, with one slash between them. An absolute `p` stands alone. -/
def join (base p : String) : String :=
  if p.toList.head? = some '/' then p
  else if base = "" || base.toList.getLast? = some '/' then base ++ p
  else base ++ "/" ++ p

/-- The text before the segments of a path, the slash of an absolute path or a leading dot
that is a segment of its own, and the text that holds the segments. -/
def splitHead : List Char → List Char × List Char
  | '/' :: cs => (['/'], cs)
  | ['.'] => (['.'], [])
  | '.' :: '/' :: cs => (['.'], '/' :: cs)
  | cs => ([], cs)

/-- Whether a segment leads nowhere: an empty one, or a dot. -/
def isIdle (segment : List Char) : Bool := segment = [] || segment = ['.']

/-- The segments of a path in reverse order, idle ones at the end of the path removed. -/
def reversedSegments (body : List Char) : List (List Char) :=
  (body.splitOn '/').reverse.dropWhile isIdle

/-- The path without its last segment and the idle ones before it; none if the path has no
segment to remove. -/
def parent? (p : String) : Option String :=
  let (head, body) := splitHead p.toList
  match reversedSegments body with
  | _ :: before =>
    some (String.ofList (head ++ ['/'].intercalate (before.dropWhile isIdle).reverse))
  | [] => if head = ['.'] then some "" else none

/-- The name in the last segment, unless that leads upward. -/
def fileName? (p : String) : Option (List Char) :=
  match reversedSegments (splitHead p.toList).2 with
  | name :: _ => if name = ['.', '.'] then none else some name
  | [] => none

/-- What follows the last dot of the name, if a dot stands anywhere but in front. -/
def extension? (p : String) : Option (List Char) :=
  (fileName? p).bind fun name =>
    if '.' ∈ name.drop 1 then some (name.reverse.takeWhile (· ≠ '.')).reverse else none

end OrmGen.Path

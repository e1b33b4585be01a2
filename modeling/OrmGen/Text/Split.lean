/-
  Cutting texts at separators. Every function works on `List Char`; `List.splitOn` of the
  core library cuts at every occurrence, the functions here at the first or the last one.
-/
namespace OrmGen.Text

/-- The texts before and after the first occurrence of `sep`, if it occurs. -/
def splitOnce? (sep : List Char) : List Char → Option (List Char × List Char)
  | [] => if sep = [] then some ([], []) else none
  | c :: cs =>
    match sep.isPrefixOf? (c :: cs) with
    | some rest => some ([], rest)
    | none => (splitOnce? sep cs).map fun p => (c :: p.1, p.2)

/-- What follows the last `sep`; the whole text if there is none. -/
def afterLast (sep : Char) (cs : List Char) : List Char :=
  (cs.reverse.takeWhile (· ≠ sep)).reverse

/-- What precedes the last `sep`; nothing if there is none. -/
def beforeLast (sep : Char) (cs : List Char) : List Char :=
  ((cs.reverse.dropWhile (· ≠ sep)).drop 1).reverse

end OrmGen.Text

/-
  White space. `isBlank` is the Unicode property White_Space, `trim` cuts it off both ends
  of a text. All trimming in this library, and the white space a literal may keep, is this
  one class.
-/
namespace OrmGen.Text

/-- The code points with the property White_Space: 25 of them, 6 below U+0080. -/
def isBlank (c : Char) : Bool :=
  let n := c.toNat
  (9 ≤ n && n ≤ 13) || n == 0x20 || n == 0x85 || n == 0xA0 || n == 0x1680
    || (0x2000 ≤ n && n ≤ 0x200A) || n == 0x2028 || n == 0x2029 || n == 0x202F
    || n == 0x205F || n == 0x3000

/-- `cs` without the longest tail whose characters all satisfy `p`. -/
def dropTailWhile (p : Char → Bool) (cs : List Char) : List Char :=
  (cs.reverse.dropWhile p).reverse

/-- `cs` without the characters satisfying `p` at either end. -/
def stripBy (p : Char → Bool) (cs : List Char) : List Char :=
  dropTailWhile p (cs.dropWhile p)

/-- A text without the white space at its ends. -/
def trim (s : String) : String := String.ofList (stripBy isBlank s.toList)

theorem isPrefix_dropTailWhile (p : Char → Bool) (cs : List Char) : dropTailWhile p cs <+: cs := by
  unfold dropTailWhile
  have h : cs.reverse.dropWhile p <:+ cs.reverse := List.dropWhile_suffix p
  rw [← List.reverse_prefix] at h
  simpa using h

theorem mem_of_mem_stripBy {p : Char → Bool} {cs : List Char} {c : Char}
    (h : c ∈ stripBy p cs) : c ∈ cs :=
  (List.dropWhile_suffix p).subset ((isPrefix_dropTailWhile p _).subset h)

theorem toList_trim (s : String) : (trim s).toList = stripBy isBlank s.toList := by
  simp [trim]

end OrmGen.Text

/-
  Literals as a class shows them. A literal is reduced to the characters it may hold, and the
  sign of a number is none of these: an integer is written as its absolute value
  (`sanitizeLiteral_int`).

  Which literals the text of a class gives to a constant or assigns to a property is read off
  its lines: `Class.constantLine_mem_iff` and `Class.assignmentLine_mem_iff`. A literal has no
  equals sign, so a line is cut at the last one.
-/
import OrmGen.Proofs.Php.DeclaredNames
import OrmGen.Proofs.Text.Decimal

namespace OrmGen.Php

variable {s t u v name value : String} {c : Class}

/-! ## Characters of literals -/

theorem mem_sanitizeLiteral {ch : Char} (h : ch ∈ (sanitizeLiteral s).toList) :
    isLiteralChar ch = true := by
  have hnull : "null".toList.all isLiteralChar = true := by decide
  have heq : sanitizeLiteral s =
      if keep isLiteralChar s = "" then "null" else keep isLiteralChar s :=
    rfl
  rw [heq] at h
  split at h
  · exact List.all_eq_true.1 hnull ch h
  · unfold keep at h
    rw [String.toList_ofList] at h
    exact (List.mem_filter.1 h).2

theorem equals_notMem_sanitizeLiteral (s : String) : '=' ∉ (sanitizeLiteral s).toList :=
  fun h => absurd (mem_sanitizeLiteral h) (by decide)

theorem sanitizeLiteral_of_forall (hne : s ≠ "") (h : ∀ ch ∈ s.toList, isLiteralChar ch = true) :
    sanitizeLiteral s = s := by
  have hkeep : keep isLiteralChar s = s := by
    unfold keep
    rw [List.filter_eq_self.2 h, String.ofList_toList]
  unfold sanitizeLiteral
  rw [hkeep, if_neg hne]

/-! ## Integers -/

theorem sanitizeLiteral_nat (n : Nat) : sanitizeLiteral (toString n) = toString n := by
  apply sanitizeLiteral_of_forall (Text.toString_nat_ne_empty n)
  intro ch hch
  simp [isLiteralChar, isLetterOrDigit, Char.isAlphanum, Text.isDigit_of_mem_toString hch]

/-- The minus sign is no character of literals. -/
theorem sanitizeLiteral_minus (s : String) : sanitizeLiteral ("-" ++ s) = sanitizeLiteral s := by
  have hkeep : keep isLiteralChar ("-" ++ s) = keep isLiteralChar s := by
    have hminus : isLiteralChar '-' = false := by decide
    unfold keep
    simp [String.toList_append, hminus]
  unfold sanitizeLiteral
  rw [hkeep]

/-- An integer is written without its sign. -/
theorem sanitizeLiteral_int (n : Int) : sanitizeLiteral (toString n) = toString n.natAbs := by
  cases n with
  | ofNat n => exact sanitizeLiteral_nat n
  | negSucc n =>
    rw [Text.toString_negSucc, sanitizeLiteral_minus]
    exact sanitizeLiteral_nat (n + 1)

/-- A literal that is the text of an integer is that of one without a sign. -/
theorem nonneg_of_sanitizeLiteral_eq {n : Int} (h : sanitizeLiteral s = toString n) : 0 ≤ n := by
  cases n with
  | ofNat n => exact Int.natCast_nonneg n
  | negSucc n =>
    have hminus : '-' ∈ (sanitizeLiteral s).toList := by
      rw [h]
      exact Text.minus_mem_toString_negSucc n
    exact absurd (mem_sanitizeLiteral hminus) (by decide)

theorem equals_notMem_toString (n : Int) : '=' ∉ (toString n).toList := by
  intro h
  rcases Text.isDigit_or_of_mem_toString h with hdigit | hminus
  · exact absurd hdigit (by decide)
  · exact absurd hminus (by decide)

/-! ## Lines with literals -/

/-- An equation is cut at its last equals sign. -/
theorem equation_inj {x y : String} (hu : '=' ∉ u.toList) (hv : '=' ∉ v.toList)
    (h : x ++ " = " ++ u ++ ";" = y ++ " = " ++ v ++ ";") : x = y ∧ u = v := by
  have htext (x u : String) : (x ++ " = " ++ u ++ ";").toList =
      (x.toList ++ [' ']) ++ '=' :: (' ' :: (u.toList ++ [';'])) := by
    simp [String.toList_append]
  have hright {u : String} (hu : '=' ∉ u.toList) : '=' ∉ ' ' :: (u.toList ++ [';']) := by
    simp [hu]
  have hlist := congrArg String.toList h
  rw [htext, htext] at hlist
  have hbefore := congrArg (Text.beforeLast '=') hlist
  have hafter := congrArg (Text.afterLast '=') hlist
  rw [Text.beforeLast_append_cons (hright hu), Text.beforeLast_append_cons (hright hv)] at hbefore
  rw [Text.afterLast_append_cons (hright hu), Text.afterLast_append_cons (hright hv),
    List.cons.injEq] at hafter
  exact ⟨String.toList_inj.1 (List.append_cancel_right hbefore),
    String.toList_inj.1 (List.append_cancel_right hafter.2)⟩

/-- The line of a constant with the given text as its value. -/
def constantLine (name value : String) : String :=
  indentation ++ (constantKeyword ++ (constantName name ++ " = " ++ value ++ ";"))

/-- The line of a constructor that assigns the given text to a property. -/
def assignmentLine (name value : String) : String :=
  indentation ++ "$this->" ++ name ++ " = " ++ value ++ ";"

namespace Class

/-- The constants whose line shows a value. -/
theorem constantLine_mem_iff
    (hown : c.constantDeclarations = c.constants.map Property.constantDeclaration)
    (hvalue : '=' ∉ value.toList) : constantLine name value ∈ c.lines ↔
      ∃ p ∈ c.constants, constantName p.name = constantName name ∧
        sanitizeLiteral (p.default.getD "") = value := by
  have hread : constantLine name value ∈ c.lines ↔
      constantName name ++ " = " ++ value ++ ";" ∈ c.constantDeclarations := by
    unfold constantDeclarations constantLine
    rw [List.mem_filterMap, ← String.append_assoc]
    constructor
    · exact fun h => ⟨_, h, declaration?_append⟩
    · rintro ⟨l, hl, hdeclares⟩
      rwa [declaration?_eq_some_iff.1 hdeclares] at hl
  rw [hread, hown, List.mem_map]
  constructor
  · rintro ⟨p, hp, heq⟩
    exact ⟨p, hp, equation_inj (equals_notMem_sanitizeLiteral _) hvalue heq⟩
  · rintro ⟨p, hp, hname, rfl⟩
    refine ⟨p, hp, ?_⟩
    rw [Property.constantDeclaration, hname]

/-- Of the lines of a constructor only the assignments are indented. -/
theorem mem_constructorLines_iff {l : String} (hl : l.toList.head? = some ' ') :
    l ∈ c.constructorLines ↔ l ∈ c.members.filterMap Property.assignment? := by
  have hne {m : String} (hm : m.toList.head? ≠ some ' ') : l ≠ m := by
    rintro rfl
    exact hm hl
  unfold constructorLines
  split
  · rename_i hnil
    rw [hnil]
  · simp [hne (m := "public function __construct()") (by decide), hne (m := "\x7b") (by decide),
      hne (m := "\x7d") (by decide), hne (m := "") (by decide)]

/-- The members to which the constructor assigns a value. -/
theorem assignmentLine_mem_iff (hvalue : '=' ∉ value.toList) :
    assignmentLine name value ∈ c.constructorLines ↔
      ∃ p ∈ c.members, p.name = name ∧ p.default.map sanitizeLiteral = some value := by
  have hindented : (assignmentLine name value).toList.head? = some ' ' := by
    simp [assignmentLine, indentation, String.toList_append]
  rw [mem_constructorLines_iff hindented, List.mem_filterMap]
  constructor
  · rintro ⟨p, hp, hline⟩
    obtain ⟨d, hd, heq⟩ := Option.map_eq_some_iff.1 hline
    obtain ⟨hname, hliteral⟩ := equation_inj (equals_notMem_sanitizeLiteral d) hvalue heq
    rw [String.append_right_inj] at hname
    exact ⟨p, hp, hname, by rw [hd, Option.map_some, hliteral]⟩
  · rintro ⟨p, hp, rfl, hdefault⟩
    obtain ⟨d, hd, rfl⟩ := Option.map_eq_some_iff.1 hdefault
    exact ⟨p, hp, by rw [Property.assignment?, hd]; rfl⟩

/-- No constant has a value with a sign. -/
theorem nonneg_of_constantLine_mem (hmodifiers : c.modifiers = ["abstract"]) (hbody : c.body = none)
    {n : Int} (h : constantLine name (toString n) ∈ c.lines) : 0 ≤ n := by
  have hown := constantDeclarations_eq hmodifiers hbody
  rw [constantLine_mem_iff hown (equals_notMem_toString n)] at h
  obtain ⟨p, _, _, hvalue⟩ := h
  exact nonneg_of_sanitizeLiteral_eq hvalue

/-- Nothing with a sign is assigned. -/
theorem nonneg_of_assignmentLine_mem {n : Int}
    (h : assignmentLine name (toString n) ∈ c.constructorLines) : 0 ≤ n := by
  rw [assignmentLine_mem_iff (equals_notMem_toString n)] at h
  obtain ⟨p, _, _, hdefault⟩ := h
  obtain ⟨d, _, hvalue⟩ := Option.map_eq_some_iff.1 hdefault
  exact nonneg_of_sanitizeLiteral_eq hvalue

end Class
end OrmGen.Php

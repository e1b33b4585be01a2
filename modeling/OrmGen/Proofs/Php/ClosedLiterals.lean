/-
  Which literals leave a string open. JSON text never does, filtered or not: its quotes
  stand around strings only, and these are filtered as a whole (`isClosed_keep_text`). A
  value that is written as it stands, or in lower case, is filtered character by character, so
  that it may lose one of a pair of quotes, or the character behind a backslash; lower
  case makes no difference (`isClosed_keep_lowerAscii_iff`).

  The values that a class shows are those of its constants and of its members with a default
  (`Class.showsClosedValues_iff`).
-/
import OrmGen.Php.Type
import OrmGen.Proofs.Php.Literal
import OrmGen.Proofs.Php.NameResolution
import OrmGen.Proofs.Php.Quoting

namespace OrmGen

/-! ## Numbers as text -/

theorem Text.quote_notMem_toString (n : Nat) : '"' ∉ (toString n).toList :=
  fun h => absurd (isDigit_of_mem_toString h) (by decide)

namespace Json

theorem quote_notMem_layout (digits : Nat) (exponent : Int) :
    '"' ∉ (layout digits exponent).toList := by
  have hdigits : '"' ∉ Nat.toDigits 10 digits :=
    fun h => absurd (Nat.isDigit_of_mem_toDigits (by decide) (by decide) h) (by decide)
  have htake (n : Nat) : '"' ∉ (Nat.toDigits 10 digits).take n :=
    fun h => hdigits (List.mem_of_mem_take h)
  have hdrop (n : Nat) : '"' ∉ (Nat.toDigits 10 digits).drop n :=
    fun h => hdigits (List.mem_of_mem_drop h)
  have hexponent := Text.quote_notMem_toString
  unfold layout
  generalize Nat.toDigits 10 digits = ds at *
  dsimp only
  split
  · simp [hdigits]
  split
  · simp [htake, hdrop]
  split
  · simp [hdigits]
  · simp only [String.toList_append, String.toList_ofList, List.mem_append, not_or]
    refine ⟨⟨⟨?mantissa, by decide⟩, ?sign⟩, hexponent _⟩
    case mantissa =>
      split
      · simpa using hdigits
      · exact hdigits
    case sign =>
      split <;> decide

theorem quote_notMem_number (n : Number) : '"' ∉ n.text.toList := by
  cases n with
  | integer n =>
    intro h
    rcases Text.isDigit_or_of_mem_toString h with hdigit | hminus
    · exact absurd hdigit (by decide)
    · exact absurd hminus (by decide)
  | float x =>
    have hsign : '"' ∉ (if x.negative then "-" else "").toList := by
      split <;> decide
    show '"' ∉ (floatText x).toList
    unfold floatText
    dsimp only
    split
    · rw [String.toList_append, List.mem_append, not_or]
      exact ⟨hsign, by decide⟩
    · rw [String.toList_append, List.mem_append, not_or]
      exact ⟨hsign, quote_notMem_layout _ _⟩

end Json

namespace Php

variable {s t : String} {c : Class}

/-! ## JSON text -/

theorem isClosed_keep_append (hs : IsClosed (keep isLiteralChar s))
    (ht : IsClosed (keep isLiteralChar t)) : IsClosed (keep isLiteralChar (s ++ t)) := by
  rw [keep_append]
  exact hs.append ht

theorem isClosed_keep_of_quote_notMem (h : '"' ∉ s.toList) : IsClosed (keep isLiteralChar s) := by
  apply isClosed_of_quote_notMem
  unfold keep
  rw [String.toList_ofList]
  exact fun hmem => h (List.mem_of_mem_filter hmem)

theorem isClosed_keep_encode (s : String) :
    IsClosed (keep isLiteralChar (Json.Literal.encode s)) := by
  rw [keep_encode]
  exact isClosed_encode _

mutual

/-- The text of a JSON value leaves no string open when it is filtered. -/
theorem isClosed_keep_text : (v : Json) → IsClosed (keep isLiteralChar v.text)
  | .null => by decide
  | .bool true => by decide
  | .bool false => by decide
  | .number n => isClosed_keep_of_quote_notMem (Json.quote_notMem_number n)
  | .string s => isClosed_keep_encode s
  | .array items => by
    rw [Json.text]
    exact isClosed_keep_append (isClosed_keep_append (by decide) (isClosed_keep_itemsText items))
      (by decide)
  | .object members => by
    rw [Json.text]
    exact isClosed_keep_append (isClosed_keep_append (by decide)
      (isClosed_keep_membersText members)) (by decide)

theorem isClosed_keep_itemsText :
    (vs : List Json) → IsClosed (keep isLiteralChar (Json.itemsText vs))
  | [] => by decide
  | [v] => by
    rw [Json.itemsText]
    exact isClosed_keep_text v
  | v :: w :: vs => by
    rw [Json.itemsText]
    exact isClosed_keep_append (isClosed_keep_append (isClosed_keep_text v) (by decide))
      (isClosed_keep_itemsText (w :: vs))

theorem isClosed_keep_membersText :
    (ms : List (String × Json)) → IsClosed (keep isLiteralChar (Json.membersText ms))
  | [] => by decide
  | [(k, v)] => by
    rw [Json.membersText]
    exact isClosed_keep_append (isClosed_keep_append (isClosed_keep_encode k) (by decide))
      (isClosed_keep_text v)
  | (k, v) :: m :: ms => by
    rw [Json.membersText]
    exact isClosed_keep_append (isClosed_keep_append (isClosed_keep_append
      (isClosed_keep_append (isClosed_keep_encode k) (by decide)) (isClosed_keep_text v))
      (by decide)) (isClosed_keep_membersText (m :: ms))

end

/-! ## Lower case -/

theorem toLower_of_not_ascii {ch : Char} (h : 128 ≤ ch.toNat) : ch.toLower = ch := by
  have hcapital : ¬ (ch.val ≥ 'A'.val ∧ ch.val ≤ 'Z'.val) := by
    rintro ⟨_, hle⟩
    have hbound : ch.toNat ≤ 'Z'.toNat := UInt32.le_iff_toNat_le.1 hle
    have hz : 'Z'.toNat = 90 := rfl
    omega
  exact dif_neg hcapital

/-- A character in lower case is kept if it is kept as it stands, and is read in the same way. -/
theorem toLower_alike (ch : Char) : isLiteralChar ch.toLower = isLiteralChar ch ∧
    ∀ q : Quoting, q.step ch.toLower = q.step ch := by
  by_cases hascii : ch.toNat < 128
  · have htable : ∀ n < 128,
        isLiteralChar (Char.ofNat n).toLower = isLiteralChar (Char.ofNat n) ∧
          ∀ q ∈ [Quoting.outside, .inside, .escaped],
            q.step (Char.ofNat n).toLower = q.step (Char.ofNat n) := by decide +kernel
    obtain ⟨hkept, hstep⟩ := htable ch.toNat hascii
    rw [Char.ofNat_toNat] at hkept hstep
    refine ⟨hkept, ?_⟩
    intro q
    exact hstep q (by cases q <;> decide)
  · rw [toLower_of_not_ascii (by omega)]
    exact ⟨rfl, fun _ => rfl⟩

theorem after_map_toLower (q : Quoting) (cs : List Char) :
    q.after (cs.map Char.toLower) = q.after cs := by
  induction cs generalizing q with
  | nil => rfl
  | cons ch cs ih =>
    rw [List.map_cons, Quoting.after_cons, Quoting.after_cons, (toLower_alike ch).2, ih]

/-- Whether a string is left open does not depend on the case of letters. -/
theorem isClosed_keep_lowerAscii_iff :
    IsClosed (keep isLiteralChar (Text.lowerAscii s)) ↔ IsClosed (keep isLiteralChar s) := by
  have hfilter : (s.toList.map Char.toLower).filter isLiteralChar =
      (s.toList.filter isLiteralChar).map Char.toLower := by
    rw [List.filter_map]
    congr 1
    exact List.filter_congr fun ch _ => (toLower_alike ch).1
  unfold IsClosed keep Text.lowerAscii
  rw [String.toList_ofList, String.toList_ofList, String.toList_ofList, hfilter, after_map_toLower]

/-! ## Literals -/

theorem isClosed_sanitizeLiteral_iff :
    IsClosed (sanitizeLiteral s) ↔ IsClosed (keep isLiteralChar s) := by
  unfold sanitizeLiteral
  dsimp only
  split
  · rename_i hempty
    rw [hempty]
    decide
  · rfl

/-- Every value that a class shows is closed: those of its constants and those that its
constructor assigns. -/
def Class.ShowsClosedValues (c : Class) : Prop :=
  ∀ name value, '=' ∉ value.toList →
    constantLine name value ∈ c.lines ∨ assignmentLine name value ∈ c.constructorLines →
      IsClosed value

/-- A class shows the defaults of its constants and members. -/
theorem Class.showsClosedValues_iff
    (hown : c.constantDeclarations = c.constants.map Property.constantDeclaration) :
    c.ShowsClosedValues ↔ (∀ p ∈ c.constants, IsClosed (keep isLiteralChar (p.default.getD ""))) ∧
      ∀ p ∈ c.members, ∀ d ∈ p.default, IsClosed (keep isLiteralChar d) := by
  constructor
  · intro h
    constructor
    · intro p hp
      have hline := (constantLine_mem_iff hown (equals_notMem_sanitizeLiteral _)).2
        ⟨p, hp, rfl, rfl⟩
      exact isClosed_sanitizeLiteral_iff.1 (h _ _ (equals_notMem_sanitizeLiteral _) (.inl hline))
    · intro p hp d hd
      have hdefault : p.default.map sanitizeLiteral = some (sanitizeLiteral d) :=
        congrArg (Option.map sanitizeLiteral) hd
      have hline := (assignmentLine_mem_iff (equals_notMem_sanitizeLiteral d)).2
        ⟨p, hp, rfl, hdefault⟩
      exact isClosed_sanitizeLiteral_iff.1 (h _ _ (equals_notMem_sanitizeLiteral _) (.inr hline))
  · rintro ⟨hconstants, hmembers⟩ name value hvalue (hline | hline)
    · obtain ⟨p, hp, _, rfl⟩ := (constantLine_mem_iff hown hvalue).1 hline
      exact isClosed_sanitizeLiteral_iff.2 (hconstants p hp)
    · obtain ⟨p, hp, _, hdefault⟩ := (assignmentLine_mem_iff hvalue).1 hline
      obtain ⟨d, hd, rfl⟩ := Option.map_eq_some_iff.1 hdefault
      exact isClosed_sanitizeLiteral_iff.2 (hmembers p hp d hd)

end Php
end OrmGen

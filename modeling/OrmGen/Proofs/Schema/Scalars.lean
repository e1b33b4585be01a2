/-
  What the scalar properties of a definition may be: texts, cardinalities, sizes, truth
  values and visibilities, each with the values that reading it accepts. Only a text names a
  visibility, although numbers and truth values are looked at as well: a number is written
  with a digit (`exists_digit_of_number`), and no visibility is (`isVisibility_iff`).
-/
import OrmGen.Proofs.Text.Decimal
import OrmGen.Proofs.Text.Pieces
import OrmGen.Schema.Declaration

namespace OrmGen

/-! ## Characters that are kept -/

namespace Text

variable {c : Char}

theorem digit_bounds (h : c.isDigit = true) : 48 ≤ c.toNat ∧ c.toNat ≤ 57 := by
  simpa [Char.isDigit, UInt32.le_iff_toNat_le] using h

theorem isBlank_digit (h : c.isDigit = true) : isBlank c = false := by
  obtain ⟨hlow, hhigh⟩ := digit_bounds h
  simp [isBlank]
  omega

theorem toLower_digit (h : c.isDigit = true) : c.toLower = c := by
  have hhigh : c.toNat ≤ 57 := (digit_bounds h).2
  unfold Char.toLower
  rw [dif_neg]
  rintro ⟨hupper, _⟩
  have hlow : 65 ≤ c.toNat := UInt32.le_iff_toNat_le.1 hupper
  omega

/-- The digits of a text are still there in lower case and without the white space around. -/
theorem digit_mem_lowerAscii_trim {s : String} (h : c ∈ s.toList) (hc : c.isDigit = true) :
    c ∈ (lowerAscii (trim s)).toList := by
  unfold lowerAscii
  rw [String.toList_ofList, toList_trim]
  exact List.mem_map.2 ⟨c, mem_stripBy_of_not h (isBlank_digit hc), toLower_digit hc⟩

theorem exists_digit_of_nat (n : Nat) : ∃ c ∈ (toString n).toList, c.isDigit = true := by
  obtain ⟨c, hc⟩ := List.exists_mem_of_ne_nil (toString n).toList
    fun h => toString_nat_ne_empty n (String.toList_inj.1 h)
  exact ⟨c, hc, isDigit_of_mem_toString hc⟩

theorem exists_digit_of_int (n : Int) : ∃ c ∈ (toString n).toList, c.isDigit = true := by
  cases n with
  | ofNat n => exact exists_digit_of_nat n
  | negSucc n =>
    obtain ⟨c, hc, hdigit⟩ := exists_digit_of_nat (n + 1)
    refine ⟨c, ?_, hdigit⟩
    rw [toString_negSucc, String.toList_append]
    exact List.mem_append_right _ hc

end Text

/-! ## Numbers as texts -/

namespace Json

theorem exists_digit_of_layout (digits : Nat) (exponent : Int) :
    ∃ c ∈ (layout digits exponent).toList, c.isDigit = true := by
  obtain ⟨d, ds, hds⟩ := List.exists_cons_of_ne_nil (Nat.toDigits_ne_nil (n := digits) (b := 10))
  have hd : d.isDigit = true :=
    Nat.isDigit_of_mem_toDigits (by decide) (by decide) (hds ▸ List.mem_cons_self)
  have hzero : '0'.isDigit = true := by decide
  unfold layout
  simp only [hds]
  split
  · exact ⟨'0', by simp, hzero⟩
  split
  · refine ⟨d, ?_, hd⟩
    have hmem : d ∈ (d :: ds).take (((d :: ds).length : Int) + exponent).toNat ++
        (d :: ds).drop (((d :: ds).length : Int) + exponent).toNat := by
      rw [List.take_append_drop]
      exact List.mem_cons_self
    rw [String.toList_ofList, List.mem_append]
    exact (List.mem_append.1 hmem).imp_right (List.mem_cons_of_mem _)
  split
  · exact ⟨'0', by simp, hzero⟩
  · refine ⟨d, ?_, hd⟩
    simp only [String.toList_append, String.toList_ofList, List.mem_append]
    refine .inl (.inl (.inl ?_))
    split <;> simp_all

theorem exists_digit_of_number (n : Number) : ∃ c ∈ n.text.toList, c.isDigit = true := by
  cases n with
  | integer n => exact Text.exists_digit_of_int n
  | float x =>
    unfold Number.text floatText
    simp only
    split
    · refine ⟨'0', ?_, by decide⟩
      rw [String.toList_append]
      exact List.mem_append_right _ (by decide)
    · obtain ⟨c, hc, hdigit⟩ := exists_digit_of_layout x.shortest.1 x.shortest.2
      refine ⟨c, ?_, hdigit⟩
      rw [String.toList_append]
      exact List.mem_append_right _ hc

end Json

namespace Schema

variable {v : Json}

/-! ## Scalars -/

/-- A text. -/
inductive IsText : Json → Prop where
  | text {s : String} : IsText (.string s)

/-- A cardinality: a text that names one, or a count below `2 ^ 32`. -/
inductive IsCardinality : Json → Prop where
  | text {s : String} : (Cardinality.parse? s).isSome = true → IsCardinality (.string s)
  | count {n : Int} : 0 ≤ n → n < 4294967296 → IsCardinality (.number (.integer n))

/-- A size: a count below `2 ^ 32`, or a text that spells one. -/
inductive IsSize : Json → Prop where
  | text {s : String} : (Text.toCount? (Text.trim s).toList).isSome = true → IsSize (.string s)
  | count {n : Int} : 0 ≤ n → n < 4294967296 → IsSize (.number (.integer n))

/-- A truth value, as such or in words. -/
inductive IsBoolean : Json → Prop where
  | bool {b : Bool} : IsBoolean (.bool b)
  | yes : IsBoolean (.string "true")
  | no : IsBoolean (.string "false")

/-- A text that names a visibility. -/
inductive IsVisibility : Json → Prop where
  | text {s : String} : (Visibility.parse? s).isSome = true → IsVisibility (.string s)

theorem isSome_toUInt32?_iff {n : Int} :
    (Json.Number.integer n).toUInt32?.isSome = true ↔ 0 ≤ n ∧ n < 4294967296 := by
  simp [Json.Number.toUInt32?, UInt32.size]

theorem isCardinality_iff : IsCardinality v ↔ (cardinalityOf? v).isSome = true := by
  constructor
  · rintro (hname | ⟨hlow, hhigh⟩)
    · exact hname
    · simpa [cardinalityOf?] using isSome_toUInt32?_iff.2 ⟨hlow, hhigh⟩
  · intro h
    cases v with
    | string s => exact .text h
    | number n =>
      cases n with
      | integer n =>
        rw [cardinalityOf?, Option.isSome_map] at h
        obtain ⟨hlow, hhigh⟩ := isSome_toUInt32?_iff.1 h
        exact .count hlow hhigh
      | float x => cases h
    | _ => cases h

theorem isSize_iff : IsSize v ↔ (sizeOf? v).isSome = true := by
  constructor
  · rintro (hspelled | ⟨hlow, hhigh⟩)
    · exact hspelled
    · exact isSome_toUInt32?_iff.2 ⟨hlow, hhigh⟩
  · intro h
    cases v with
    | string s => exact .text h
    | number n =>
      cases n with
      | integer n =>
        obtain ⟨hlow, hhigh⟩ := isSome_toUInt32?_iff.1 h
        exact .count hlow hhigh
      | float x => cases h
    | _ => cases h

theorem isBoolean_iff : IsBoolean v ↔ (booleanOf? v).isSome = true := by
  constructor
  · rintro (_ | _ | _) <;> rfl
  · intro h
    cases v with
    | bool b => exact .bool
    | string s =>
      by_cases htrue : s = "true"
      · exact htrue ▸ .yes
      by_cases hfalse : s = "false"
      · exact hfalse ▸ .no
      simp [booleanOf?, htrue, hfalse] at h
    | _ => cases h

/-- No visibility is written with a digit. -/
theorem parse?_eq_none_of_digit {s : String} {c : Char} (h : c ∈ s.toList)
    (hc : c.isDigit = true) : Visibility.parse? s = none := by
  have hword := Text.digit_mem_lowerAscii_trim h hc
  have hnames : ∀ word ∈ ["public", "+", "protected", "#", "private", "-"],
      Text.lowerAscii (Text.trim s) ≠ word := by
    have hletters : ∀ word ∈ ["public", "+", "protected", "#", "private", "-"],
        ∀ d ∈ word.toList, d.isDigit = false := by simp
    rintro word hmem heq
    rw [heq] at hword
    rw [hletters word hmem c hword] at hc
    cases hc
  unfold Visibility.parse?
  simp [hnames]

/-- A value names a visibility only as a text. -/
theorem isVisibility_iff :
    IsVisibility v ↔ ((scalarText? v).bind Visibility.parse?).isSome = true := by
  constructor
  · rintro ⟨hname⟩
    rwa [scalarText?, Option.bind_some]
  · intro h
    cases v with
    | string s =>
      rw [scalarText?, Option.bind_some] at h
      exact .text h
    | number n =>
      obtain ⟨c, hc, hdigit⟩ := Json.exists_digit_of_number n
      simp [scalarText?, parse?_eq_none_of_digit hc hdigit] at h
    | bool b =>
      have hwords : Visibility.parse? "true" = none ∧ Visibility.parse? "false" = none := by decide
      cases b <;> simp [scalarText?, hwords] at h
    | _ => cases h

end Schema
end OrmGen

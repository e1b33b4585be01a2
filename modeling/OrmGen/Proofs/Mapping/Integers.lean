/-
  Integers of a configuration in the text of its classes. A member of an enumeration keeps its
  value as JSON text, a field keeps the text of its `value`, and both reach the class as they
  are; the filter for literals takes the sign off. So a class shows the absolute value, which
  is the declared integer exactly if that is not negative (`integers_lose_their_sign`).

  A field that refers to an enumeration is of type `int` too, but its value names the
  enumeration, and the property starts at zero.
-/
import OrmGen.Proofs.Mapping.DocComments
import OrmGen.Proofs.Php.Literal
import OrmGen.Proofs.Schema.Declared

namespace OrmGen.Mapping

open Generation (classIn fileOf schemaOf Run)
open Php (Property constantLine assignmentLine)

variable {config : Config} {g : Generation} {s : Schema} {k name : String} {e : Entity}
  {c : Php.Class} {f : Field} {d : Json} {members definition : List (String × Json)} {n : Int}

/-! ## Members of an enumeration -/

/-- The value of a constant is what the member keeps, filtered. -/
theorem constantLine_mem_of_classIn (hkind : e.kind = .enumeration)
    (hc : classIn config s e = .ok c)
    (hf : e.fields.get? name = some f) (hname : f.name = name) :
    constantLine name (Php.sanitizeLiteral (f.value.getD "")) ∈ c.lines := by
  have hgrows := grows_of_classIn hkind hc
  have hconstant : constantOf f ∈ c.constants := by
    unfold Php.Class.constants
    rw [hgrows.values, List.mem_filter]
    refine ⟨?_, rfl⟩
    exact List.mem_append_right _ (List.mem_map_of_mem (OrderedMap.mem_values_iff.2 ⟨name, hf⟩))
  have hown := Php.Class.constantDeclarations_eq hgrows.modifiers hgrows.body
  rw [Php.Class.constantLine_mem_iff hown (Php.equals_notMem_sanitizeLiteral _)]
  exact ⟨_, hconstant, congrArg Php.constantName hname, rfl⟩

/-! ## Fields -/

/-- What the constructor assigns to the property of a field. -/
theorem assignmentLine_mem_iff_of_classIn (hkind : e.kind = .entity)
    (hc : classIn config s e = .ok c) (hf : e.fields.get? name = some f) (hname : f.name = name)
    {value : String} (hvalue : '=' ∉ value.toList) :
    assignmentLine name value ∈ c.constructorLines ↔
      (propertyDefault f).map Php.sanitizeLiteral = some value := by
  obtain ⟨ps, _, hentries⟩ := (isBaseClass_of_classIn hkind hc).entries
  have hvalues := (keys_of_entries_eq hentries).1
  have hproperty : fieldProperty f ∈ c.properties.values := by
    have hmem := OrderedMap.mem_values_iff.2 ⟨name, hf⟩
    rw [hvalues]
    exact List.mem_cons_of_mem _ (List.mem_append_left _ (List.mem_map_of_mem hmem))
  have hget := get?_of_entries_eq hentries (hvalues ▸ hproperty)
  rw [Php.Class.assignmentLine_mem_iff hvalue]
  constructor
  · rintro ⟨p, hp, hpname, hdefault⟩
    have hp' : p ∈ c.properties.values := (List.mem_filter.1 hp).1
    have hpget := get?_of_entries_eq hentries (hvalues ▸ hp')
    have hsame : p.name = (fieldProperty f).name := hpname.trans hname.symm
    rw [hsame, hget, Option.some.injEq] at hpget
    subst hpget
    exact hdefault
  · intro hdefault
    exact ⟨fieldProperty f, List.mem_filter.2 ⟨hproperty, rfl⟩, hname, hdefault⟩

/-- A number stands in a class as it is declared. -/
theorem propertyDefault_number (henum : f.isEnumReference = false)
    (htype : Php.typeOf f.typeName = "int" ∨ Php.typeOf f.typeName = "float")
    (hvalue : f.value = some (toString n)) : propertyDefault f = some (toString n) := by
  have hliteral : Php.literal (Php.typeOf f.typeName) (toString n) = toString n := by
    unfold Php.literal
    rcases htype with htype | htype <;> simp [htype]
  rw [propertyDefault_of_value henum hvalue, propertyType_of_plain henum, hliteral]

/-- A reference to an enumeration starts at zero. -/
theorem propertyDefault_enum (henum : f.isEnumReference = true) :
    propertyDefault f = if f.nullable then none else some "0" := by
  have hzero : Php.zeroValue? "int" = some "0" := by decide
  have htype : propertyType f = "int" := by
    unfold propertyType
    rw [if_pos henum]
  rw [propertyDefault_of_zero (.inl henum), htype, hzero]

theorem assignmentLine_mem_of_number (hkind : e.kind = .entity) (hc : classIn config s e = .ok c)
    (hf : e.fields.get? name = some f) (hname : f.name = name)
    (htype : Php.typeOf f.typeName = "int" ∨ Php.typeOf f.typeName = "float")
    (hvalue : f.value = some (toString n)) :
    assignmentLine name (toString n.natAbs) ∈ c.constructorLines := by
  have henum : f.isEnumReference = false := by
    have hplain : Php.typeOf Field.enumType ≠ "int" ∧ Php.typeOf Field.enumType ≠ "float" := by
      decide
    unfold Field.isEnumReference
    rw [decide_eq_false_iff_not]
    intro heq
    rw [heq] at htype
    exact htype.elim hplain.1 hplain.2
  have hassigned := assignmentLine_mem_iff_of_classIn hkind hc hf hname
    (Php.equals_notMem_toString n.natAbs)
  refine hassigned.2 ?_
  rw [propertyDefault_number henum htype hvalue, Option.map_some, Php.sanitizeLiteral_int]
  rfl

theorem assignmentLine_mem_iff_of_enum (hkind : e.kind = .entity) (hc : classIn config s e = .ok c)
    (hf : e.fields.get? name = some f) (hname : f.name = name) (henum : f.isEnumReference = true) :
    assignmentLine name (toString n) ∈ c.constructorLines ↔ n = 0 ∧ f.nullable = false := by
  have hzero : Php.sanitizeLiteral "0" = toString (0 : Int) := by decide
  have hinj : toString (0 : Int) = toString n ↔ n = 0 := by
    constructor
    · intro h
      have hnonneg : 0 ≤ n := Php.nonneg_of_sanitizeLiteral_eq (hzero.trans h)
      rw [← Text.toString_natAbs_of_nonneg hnonneg] at h
      have habs : 0 = n.natAbs := Text.toString_nat_inj h
      omega
    · rintro rfl
      rfl
  rw [assignmentLine_mem_iff_of_classIn hkind hc hf hname (Php.equals_notMem_toString n),
    propertyDefault_enum henum]
  cases f.nullable with
  | true => simp
  | false =>
    show some (Php.sanitizeLiteral "0") = some (toString n) ↔ _
    rw [hzero, Option.some.injEq, hinj]
    simp

/-! ## Whole configurations -/

/-- Every integer of a configuration that declares the value of a member of an enumeration, or
of a field of type `int` or `float`, is written without its sign: the class shows the
declared integer if and only if it is not negative. Where the field refers to an enumeration,
the integer is not its value, which is zero if there is one. -/
theorem integers_lose_their_sign (hg : Generation.ofConfig config = .ok g) :
    ∃ s, schemaOf config = .ok s ∧ ∀ k members,
      (Schema.declaredEntities config.entities).get? k = some (.object members) →
      ∃ e c, s.get? k = some e ∧ classIn config s e = .ok c ∧
        fileOf config .regenerate c ∈ g.files ∧
        (∀ name n, (OrderedMap.ofList members).get? name = some (.number (.integer n)) →
          constantLine name (toString n.natAbs) ∈ c.lines ∧
            (constantLine name (toString n) ∈ c.lines ↔ 0 ≤ n)) ∧
        ∀ name definition type n,
          (OrderedMap.ofList members).get? name = some (.object definition) →
          Json.member? "relation" definition = none →
          Json.member? "type" definition = some (.string type) →
          Json.member? "value" definition = some (.number (.integer n)) →
          (Php.typeOf type = "int" ∨ Php.typeOf type = "float" →
            assignmentLine name (toString n.natAbs) ∈ c.constructorLines ∧
              (assignmentLine name (toString n) ∈ c.constructorLines ↔ 0 ≤ n)) ∧
          (type = Field.enumType → ∃ f, e.fields.get? name = some f ∧
            (assignmentLine name (toString n) ∈ c.constructorLines ↔
              n = 0 ∧ f.nullable = false)) := by
  obtain ⟨s, h⟩ := Generation.run_of_ofConfig hg
  refine ⟨s, h.schema, ?_⟩
  intro k members hdeclared
  obtain ⟨s₀, hs₀, hlink⟩ := h.linked
  obtain ⟨e₀, he₀, hread⟩ := Schema.get?_of_declared hs₀ hdeclared
  obtain ⟨e, he, hentity⟩ := Schema.get?_link hlink he₀
  obtain ⟨_, hlinkedKind, hfields, _⟩ := Schema.linkEntity_eq_ok hentity
  obtain ⟨c, _, _, hc, hfile, _⟩ := h.exists_build he
  refine ⟨e, c, he, hc, hfile, ?_, ?_⟩
  · intro name n hn
    obtain ⟨hkind, f, hf, hname, hvalue⟩ := Schema.exists_integer_member hread hn
    rw [← hlinkedKind] at hkind
    rw [← hfields] at hf
    have hgrows := grows_of_classIn hkind hc
    have hline := constantLine_mem_of_classIn hkind hc hf hname
    rw [hvalue, Option.getD_some, Php.sanitizeLiteral_int] at hline
    refine ⟨hline, Php.Class.nonneg_of_constantLine_mem hgrows.modifiers hgrows.body, fun hn => ?_⟩
    rwa [← Text.toString_natAbs_of_nonneg hn]
  · intro name definition type n hdefinition hrelation htype hvalue
    obtain ⟨hkind, f, hf, hname, rfl, hfvalue⟩ :=
      Schema.exists_integer_field hread hdefinition hrelation htype hvalue
    rw [← hlinkedKind] at hkind
    rw [← hfields] at hf
    constructor
    · intro hnumber
      have hline := assignmentLine_mem_of_number hkind hc hf hname hnumber hfvalue
      refine ⟨hline, Php.Class.nonneg_of_assignmentLine_mem, fun hn => ?_⟩
      rwa [← Text.toString_natAbs_of_nonneg hn]
    · intro henum
      have hreference : f.isEnumReference = true := by
        simp [Field.isEnumReference, henum]
      exact ⟨f, hf, assignmentLine_mem_iff_of_enum hkind hc hf hname hreference⟩

/-- A configuration with a negative member of an enumeration and a negative default. -/
def negativeConfig : Config where
  entities := .object [
    ("Level", .object [("low", .number (.integer (-1)))]),
    ("Post", .object [("score", .object [
      ("type", .string "integer"), ("value", .number (.integer (-5)))])])]

/-- Both numbers become positive. -/
theorem negative_numbers_become_positive : ∃ s level post c c',
    schemaOf negativeConfig = .ok s ∧ s.get? "Level" = some level ∧ s.get? "Post" = some post ∧
      classIn negativeConfig s level = .ok c ∧ classIn negativeConfig s post = .ok c' ∧
      constantLine "low" "1" ∈ c.lines ∧ constantLine "low" "-1" ∉ c.lines ∧
      assignmentLine "score" "5" ∈ c'.constructorLines ∧
      assignmentLine "score" "-5" ∉ c'.constructorLines := by
  obtain ⟨g, hg, _⟩ : ∃ g, Generation.ofConfig negativeConfig = .ok g ∧ g.files ≠ [] :=
    exists_ok_of_any (by decide +kernel)
  obtain ⟨s, hs, hall⟩ := integers_lose_their_sign hg
  obtain ⟨level, c, hlevel, hc, _, hmembers, _⟩ := hall "Level" _ rfl
  obtain ⟨post, c', hpost, hc', _, _, hfields⟩ := hall "Post" _ rfl
  obtain ⟨hone, hlow⟩ := hmembers "low" (-1) rfl
  obtain ⟨hfive, hscore⟩ := (hfields "score" _ "integer" (-5) rfl rfl rfl rfl).1 (.inl rfl)
  refine ⟨s, level, post, c, c', hs, hlevel, hpost, hc, hc', hone, ?_, hfive, ?_⟩
  · exact fun hline => absurd (hlow.1 hline) (by decide)
  · exact fun hline => absurd (hscore.1 hline) (by decide)

end OrmGen.Mapping

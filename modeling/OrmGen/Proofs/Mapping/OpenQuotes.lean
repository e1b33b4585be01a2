/-
  Defaults that leave a string open. A class shows what the filter for literals leaves of a
  default. Zero values, quoted strings, JSON texts of the members of an enumeration and the
  collections of associations are closed whatever they say. The value of a field of any type
  other than `string` is filtered as it stands, so the assignment of a property is closed
  exactly if what is left of that value is (`shown_values_are_closed_iff`).
-/
import OrmGen.Proofs.Mapping.Members
import OrmGen.Proofs.Php.ClosedLiterals
import OrmGen.Proofs.Php.DocComment
import OrmGen.Proofs.Schema.Declared

namespace OrmGen.Mapping

open Generation (BuiltFor Run classIn schemaOf)
open Php (IsClosed Property isLiteralChar keep)

variable {config : Config} {g : Generation} {s : Schema} {e : Entity} {f : Field} {r : Relation}
  {p : Property} {c : Php.Class} {mode : WriteMode}

/-! ## Properties -/

/-- What is left of the value of a field is closed, unless the value is quoted or names an
enumeration. -/
def ValueIsClosed (f : Field) : Prop :=
  f.isEnumReference = false → Php.typeOf f.typeName ≠ "string" →
    ∀ v ∈ f.value, IsClosed (keep isLiteralChar v)

theorem isClosed_zeroValue (type : String) :
    ∀ d ∈ Php.zeroValue? type, IsClosed (keep isLiteralChar d) := by
  have htable : ∀ entry ∈ [("int", "0"), ("float", "0.0"), ("string", "\"\""), ("bool", "false"),
      ("\\DateTime", "new \\DateTime()"), ("array", "[]")],
        IsClosed (keep isLiteralChar entry.2) := by decide
  intro d hd
  obtain ⟨before, after, hsplit, _⟩ := List.lookup_eq_some_iff.1 hd
  exact htable (type, d) (hsplit ▸ List.mem_append_right _ List.mem_cons_self)

/-- Lower case does not open or close strings, so only the quotes of a string literal make a
difference. -/
theorem isClosed_literal_iff {type v : String} :
    IsClosed (keep isLiteralChar (Php.literal type v)) ↔
      (type ≠ "string" → IsClosed (keep isLiteralChar v)) := by
  unfold Php.literal
  split
  · rename_i hstring
    exact iff_of_true (Php.isClosed_keep_encode v) fun hne => absurd hstring hne
  · rename_i hother
    rw [imp_iff_right hother]
    split
    · exact Php.isClosed_keep_lowerAscii_iff
    · rfl

theorem isClosed_propertyDefault_iff :
    (∀ d ∈ propertyDefault f, IsClosed (keep isLiteralChar d)) ↔ ValueIsClosed f := by
  have hzero (h : f.isEnumReference = true ∨ f.value = none) :
      ∀ d ∈ propertyDefault f, IsClosed (keep isLiteralChar d) := by
    rw [propertyDefault_of_zero h]
    split
    · nofun
    · exact isClosed_zeroValue _
  unfold ValueIsClosed
  cases henum : f.isEnumReference with
  | true => exact iff_of_true (hzero (.inl henum)) nofun
  | false =>
    cases hvalue : f.value with
    | none => exact iff_of_true (hzero (.inr hvalue)) fun _ _ => nofun
    | some v =>
      rw [propertyDefault_of_value henum hvalue, propertyType_of_plain henum]
      simp [isClosed_literal_iff]

/-- An association starts as an empty collection or as nothing. -/
theorem isClosed_of_isPropertyOf (h : IsPropertyOf r p) :
    ∀ d ∈ p.default, IsClosed (keep isLiteralChar d) := by
  rcases h with ⟨_, rfl⟩ | ⟨_, a, side, rfl⟩
  · exact nofun
  · unfold associationProperty
    dsimp only
    split
    · intro d hd
      obtain rfl : "new ArrayCollection()" = d := Option.some.inj hd
      decide
    · exact nofun

/-! ## The classes of a run -/

theorem IsBaseClass.showsClosedValues_iff (h : IsBaseClass config e c) :
    c.ShowsClosedValues ↔ ∀ f ∈ e.fields.values, ValueIsClosed f := by
  obtain ⟨ps, hps, hvalues⟩ := h.values
  have hrelations : ∀ p ∈ ps, ∀ d ∈ p.default, IsClosed (keep isLiteralChar d) := by
    intro p hp
    obtain ⟨r, _, hr⟩ := exists_of_forall₂ hps hp
    exact isClosed_of_isPropertyOf hr
  obtain ⟨hconstants, hmembers⟩ := Php.Class.constants_members_eq h.isConstant_eq_false
  have hown := Php.Class.constantDeclarations_eq h.modifiers h.body
  rw [Php.Class.showsClosedValues_iff hown, hconstants, hmembers]
  simp only [Bool.false_eq_true, if_false]
  rw [hvalues, List.forall_mem_cons, List.forall_mem_append, List.forall_mem_map]
  constructor
  · rintro ⟨_, _, hfields, _⟩ f hf
    exact isClosed_propertyDefault_iff.1 (hfields f hf)
  · intro hfields
    refine ⟨List.forall_mem_nil _, nofun, ?_, hrelations⟩
    exact fun f hf => isClosed_propertyDefault_iff.2 (hfields f hf)

/-- A class without members shows no values. -/
theorem showsClosedValues_of_empty (hopening : c.modifiers = [])
    (hbody : ∀ l ∈ c.bodyLines,
      Php.declaration? (Php.indentation ++ Php.constantKeyword) l = none)
    (hproperties : c.properties = .empty) : c.ShowsClosedValues := by
  have hshallow : Php.IsShallow c.openingLine :=
    Php.Class.isShallow_openingLine (by rw [hopening]; exact List.forall_mem_nil _)
  have hconstants : c.constants = [] := by
    unfold Php.Class.constants
    rw [hproperties]
    rfl
  have hmembers : c.members = [] := by
    unfold Php.Class.members
    rw [hproperties]
    rfl
  rw [Php.Class.showsClosedValues_iff (Php.Class.constantDeclarations_of_shallow hshallow hbody),
    hconstants, hmembers]
  exact ⟨List.forall_mem_nil _, List.forall_mem_nil _⟩

theorem showsClosedValues_of_buildFinal (h : buildFinal config e = .ok c) :
    c.ShowsClosedValues := by
  obtain ⟨_, _, h⟩ := bind_eq_ok.1 h
  obtain ⟨_, _, h⟩ := bind_eq_ok.1 h
  obtain ⟨_, _, h⟩ := bind_eq_ok.1 h
  rw [pure_eq_ok] at h
  subst h
  exact showsClosedValues_of_empty rfl (List.forall_mem_nil _) rfl

/-- The body of a repository starts with a function. -/
theorem declaration?_repositoryBody (e : Entity) :
    Php.declaration? (Php.indentation ++ Php.constantKeyword) (repositoryBody e) = none := by
  obtain ⟨rest, hrest⟩ : ∃ rest, repositoryBody e =
      Php.indentation ++ ("public function __construct(RegistryInterface $registry)" ++ rest) := by
    unfold repositoryBody Php.indent
    rw [List.map_cons, String.intercalate_cons_of_ne_nil (by simp), if_neg (by decide),
      String.append_assoc, String.append_assoc]
    exact ⟨_, rfl⟩
  rw [hrest, Php.declaration?_indentation]
  exact Php.declaration?_eq_none (a := 'c') rfl (by simp [String.toList_append])

theorem showsClosedValues_of_buildRepository (h : buildRepository config e = .ok c) :
    c.ShowsClosedValues := by
  obtain ⟨_, _, h⟩ := bind_eq_ok.1 h
  obtain ⟨_, _, h⟩ := bind_eq_ok.1 h
  rw [pure_eq_ok] at h
  subst h
  refine showsClosedValues_of_empty rfl ?_ rfl
  intro l hl
  have hbody : l = repositoryBody e := by
    unfold Php.Class.bodyLines at hl
    rw [Option.mem_toList, Option.filter_eq_some_iff] at hl
    exact (Option.some.inj hl.1).symm
  rw [hbody, declaration?_repositoryBody]

/-- In a run the members of an enumeration are bare values. -/
theorem exists_enumMember_of_run (h : Run config g s) (he : e ∈ s.entities.values)
    (hkind : e.kind = .enumeration) (hf : f ∈ e.fields.values) :
    ∃ name v, f = Schema.enumMember name v := by
  obtain ⟨k, hk⟩ := OrderedMap.mem_values_iff.1 he
  obtain ⟨name, hname⟩ := OrderedMap.mem_values_iff.1 hf
  obtain ⟨s₀, hs₀, hlink⟩ := h.linked
  obtain ⟨e₀, he₀, hentity⟩ := Schema.get?_of_link hlink hk
  obtain ⟨_, hlinkedKind, hfields, _⟩ := Schema.linkEntity_eq_ok hentity
  obtain ⟨d, _, hread⟩ := Schema.declared_of_get? hs₀ he₀
  rw [hlinkedKind] at hkind
  rw [hfields] at hname
  obtain ⟨v, hv⟩ := Schema.exists_enumMember hread hkind hname
  exact ⟨name, v, hv⟩

/-- The constants of an enumeration are JSON texts. -/
theorem showsClosedValues_of_enumeration (h : Run config g s) (he : e ∈ s.entities.values)
    (hkind : e.kind = .enumeration) (hc : classIn config s e = .ok c) : c.ShowsClosedValues := by
  have hgrows := grows_of_classIn hkind hc
  have hvalues : c.properties.values = e.fields.values.map constantOf := hgrows.values
  have hkinds : ∀ p ∈ c.properties.values, p.isConstant = true := by
    rw [hvalues, List.forall_mem_map]
    exact fun _ _ => rfl
  obtain ⟨hconstants, hmembers⟩ := Php.Class.constants_members_eq hkinds
  have hown := Php.Class.constantDeclarations_eq hgrows.modifiers hgrows.body
  rw [Php.Class.showsClosedValues_iff hown, hconstants, hmembers]
  simp only [if_true]
  rw [hvalues, List.forall_mem_map]
  refine ⟨?_, List.forall_mem_nil _⟩
  intro f hf
  obtain ⟨name, v, rfl⟩ := exists_enumMember_of_run h he hkind hf
  exact Php.isClosed_keep_text v

/-- In the class that a run builds for an entity, every value that is shown is closed if and only
if what the filter leaves of the values of fields is, other than fields of type `string` and
those that refer to an enumeration. In every other class of a run it is, whatever the
configuration says. -/
theorem shown_values_are_closed_iff (hg : Generation.ofConfig config = .ok g) :
    ∃ s, schemaOf config = .ok s ∧ ∀ e ∈ s.entities.values, ∀ mode c,
      BuiltFor config s e mode c → (c.ShowsClosedValues ↔
        (mode = .regenerate → e.kind = .entity → ∀ f ∈ e.fields.values, ValueIsClosed f)) := by
  obtain ⟨s, h⟩ := Generation.run_of_ofConfig hg
  refine ⟨s, h.schema, ?_⟩
  intro e he mode c hbuilt
  cases hbuilt with
  | regenerated hclass =>
    cases hkind : e.kind with
    | entity =>
      rw [(isBaseClass_of_classIn hkind hclass).showsClosedValues_iff]
      simp
    | enumeration => exact iff_of_true (showsClosedValues_of_enumeration h he hkind hclass) nofun
  | final _ hfinal => exact iff_of_true (showsClosedValues_of_buildFinal hfinal) nofun
  | repository _ hrepository =>
    exact iff_of_true (showsClosedValues_of_buildRepository hrepository) nofun

/-- A configuration with two fields. The value of the first opens a string; that of the second
is closed until it loses the `-` behind a backslash. -/
def openingConfig : Config where
  entities := .object [("User", .object [
    ("age", .object [("type", .string "integer"), ("value", .string "\"1")]),
    ("tags", .object [("type", .string "json"), ("value", .string "[\"\\-\"]")])])]

/-- The constructor of the base class leaves a string open. -/
theorem opening_value_stays_open : ∃ s e c, schemaOf openingConfig = .ok s ∧
    e ∈ s.entities.values ∧ classIn openingConfig s e = .ok c ∧ ¬ c.ShowsClosedValues ∧
      ∃ f ∈ e.fields.values, ∃ v ∈ f.value, IsClosed v ∧ ¬ IsClosed (keep isLiteralChar v) := by
  obtain ⟨g, hg, _⟩ : ∃ g, Generation.ofConfig openingConfig = .ok g ∧ g.files ≠ [] :=
    exists_ok_of_any (by decide +kernel)
  obtain ⟨s, hs, hshown⟩ := shown_values_are_closed_iff hg
  obtain ⟨e, he, hkind, f, hf, v, hv, htype, henum, hclosed, hopen⟩ : ∃ e ∈ s.entities.values,
      e.kind = .entity ∧ ∃ f ∈ e.fields.values, ∃ v ∈ f.value, Php.typeOf f.typeName ≠ "string" ∧
        f.isEnumReference = false ∧ IsClosed v ∧ ¬ IsClosed (keep isLiteralChar v) := by
    cases hs
    decide +kernel
  obtain ⟨s', hrun⟩ := Generation.run_of_ofConfig hg
  obtain rfl : s = s' := Except.ok.inj (hs.symm.trans hrun.schema)
  obtain ⟨c, hc, _⟩ := hrun.classes e he
  have hiff := hshown e he .regenerate c (.regenerated hc)
  refine ⟨s, e, c, hs, he, hc, ?_, f, hf, v, hv, hclosed, hopen⟩
  intro hall
  exact hopen (hiff.1 hall rfl hkind f hf henum htype v hv)

end OrmGen.Mapping

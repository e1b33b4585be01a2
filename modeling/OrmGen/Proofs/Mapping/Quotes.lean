/-
  Quotes and classes. Of the definition that a field keeps, a class shows only what is passed
  through to an annotation, and the diagram shows nothing. So a run over a schema is one over
  the schema without the settings in its definitions (`filesOfAll_passedOn`,
  `ofSchema_passedOn`), and configurations that differ in quotes have the same outcome
  (`quotes_are_irrelevant`).
-/
import OrmGen.Proofs.Mapping.Ends
import OrmGen.Proofs.Mapping.Settings
import OrmGen.Proofs.Schema.QuotedScalars

namespace OrmGen

/-- The entity keeps all but the settings of its fields' definitions. -/
theorem Entity.seen_passedOn (e : Entity) :
    e.seen .passedOn = { e with fields := e.fields.map fun _ => View.passedOn.field } :=
  congrArg (fun rs => { e with
    fields := e.fields.map fun _ => View.passedOn.field
    relations := rs }) (OrderedMap.map_self e.relations)

namespace Mapping

open Generation (filesOf filesOfAll)

variable {config : Config} {entity : String} {claims : Claims} {c : Php.Class}

/-! ## Classes -/

theorem passedThrough_passedOn (f : Field) :
    passedThrough (View.passedOn.field f) = passedThrough f := by
  unfold passedThrough
  cases hraw : f.raw with
  | none => simp [View.passedOn, hraw]
  | some raw => simp [View.passedOn, hraw, passedOn]

theorem fieldProperty_passedOn (f : Field) :
    fieldProperty (View.passedOn.field f) = fieldProperty f := by
  have hcolumn : columnAttributes (View.passedOn.field f) = columnAttributes f := by
    unfold columnAttributes
    rw [passedThrough_passedOn]
    rfl
  unfold fieldProperty
  rw [hcolumn]
  rfl

theorem addFields_passedOn (fs : List Field) :
    addFields config entity c (fs.map View.passedOn.field) = addFields config entity c fs := by
  induction fs generalizing c with
  | nil => rfl
  | cons f fs ih =>
    have hfield : addField config entity c (View.passedOn.field f) =
        addField config entity c f := by
      unfold addField
      rw [fieldProperty_passedOn]
      rfl
    rw [List.map_cons, addFields, addFields, hfield]
    exact bind_congr fun c => ih

theorem addConstants_passedOn (fs : List Field) :
    addConstants c (fs.map View.passedOn.field) = addConstants c fs := by
  induction fs generalizing c with
  | nil => rfl
  | cons f fs ih =>
    rw [List.map_cons, addConstants, addConstants]
    exact bind_congr fun c => ih

/-- The class of an entity does not show the settings in its definitions. -/
theorem build_passedOn (e : Entity) :
    build config claims (e.seen .passedOn) = build config claims e := by
  have hfields := Entity.fields_seen e (w := .passedOn)
  rw [Entity.seen_passedOn] at hfields ⊢
  unfold build buildEnum buildEntity baseWithFields
  simp only [hfields, addConstants_passedOn, addFields_passedOn]
  rfl

theorem filesOf_passedOn (e : Entity) :
    filesOf config claims (e.seen .passedOn) = filesOf config claims e := by
  unfold filesOf
  rw [build_passedOn]
  rfl

theorem filesOfAll_passedOn (es : List Entity) :
    filesOfAll config claims (es.map (Entity.seen .passedOn)) = filesOfAll config claims es := by
  induction es generalizing claims with
  | nil => rfl
  | cons e es ih =>
    rw [List.map_cons, filesOfAll, filesOfAll, filesOf_passedOn]
    simp only [ih]

end Mapping

/-! ## The diagram -/

namespace Diagram

theorem block_passedOn (e : Entity) : block (e.seen .passedOn) = block e := by
  have hfields := Entity.fields_seen e (w := .passedOn)
  rw [Entity.seen_passedOn] at hfields ⊢
  unfold block
  simp only [hfields, List.map_map]
  rfl

theorem addEntity_passedOn (lines : Lines) (e : Entity) :
    addEntity lines (e.seen .passedOn) = addEntity lines e := by
  have hfields := Entity.fields_seen e (w := .passedOn)
  rw [Entity.seen_passedOn] at hfields ⊢
  unfold addEntity
  simp only [hfields, List.filter_map, List.foldl_map]
  rfl

theorem addEntities_passedOn (lines : Lines) (es : List Entity) :
    addEntities lines (es.map (Entity.seen .passedOn)) = addEntities lines es := by
  induction es generalizing lines with
  | nil => rfl
  | cons e es ih =>
    rw [List.map_cons, addEntities, addEntities, addEntity_passedOn]
    exact bind_congr ih

theorem ofSchema_passedOn (s : Schema) : ofSchema (s.seen .passedOn) = ofSchema s := by
  unfold ofSchema relationLines
  rw [Schema.entities_seen, addEntities_passedOn, List.flatMap_map]
  simp only [block_passedOn]

end Diagram

/-! ## Configurations -/

namespace Mapping

open Generation (filesOfAll schemaOf)

variable {config config' : Config}

/-- The configuration `config'` is `config` with settings of structured members quoted. -/
structure Quotes (config config' : Config) : Prop where
  entities : Schema.Quoted config.entities config'.entities
  settings : { config' with entities := config.entities } = config

namespace Quotes

theorem generatedDirectory_eq (h : Quotes config config') :
    Php.namespaceDirectory config'.appNamespace config'.baseNamespace =
      Php.namespaceDirectory config.appNamespace config.baseNamespace := by
  rw [appNamespace_of_eq h.settings, (sharesSettings_of_eq h.settings).base]

/-- Schemas that look alike have the same files. -/
theorem filesOfAll_eq (h : Quotes config config') {s s' : Schema}
    (hseen : s'.seen .passedOn = s.seen .passedOn) :
    filesOfAll config' .none s'.entities.values = filesOfAll config .none s.entities.values := by
  have hfiles : ∀ s : Schema, filesOfAll config .none (s.seen .passedOn).entities.values =
      filesOfAll config .none s.entities.values := by
    intro s
    rw [Schema.entities_seen, filesOfAll_passedOn]
  rw [filesOfAll_of_eq h.settings, ← hfiles s', hseen, hfiles s]

theorem agree_ofConfig (h : Quotes config config') :
    Agree Error.SameCause Eq (Generation.ofConfig config) (Generation.ofConfig config') := by
  have hschema : Agree Error.SameCause (fun s s' => s'.seen .passedOn = s.seen .passedOn)
      (schemaOf config) (schemaOf config') := Schema.agree_link_of_quoted h.entities
  unfold Generation.ofConfig
  refine hschema.bind fun s s' hseen => ?_
  have hdiagram : Diagram.ofSchema s' = Diagram.ofSchema s := by
    rw [← Diagram.ofSchema_passedOn s', hseen, Diagram.ofSchema_passedOn]
  rw [h.filesOfAll_eq hseen, hdiagram, h.generatedDirectory_eq]
  exact .refl Error.SameCause.refl (fun _ => rfl) _

end Quotes

/-- Whether integers and truth values are quoted in the settings of definitions makes no
difference: configurations that differ in nothing else have the same files, the same directory
and the same diagram, or fail with errors of one kind that are the same but for the value they
show. -/
theorem quotes_are_irrelevant (h : Quotes config config') :
    (∃ g, Generation.ofConfig config = .ok g ∧ Generation.ofConfig config' = .ok g) ∨
      ∃ err err', Generation.ofConfig config = .error err ∧
        Generation.ofConfig config' = .error err' ∧ err'.ctorIdx = err.ctorIdx ∧
        err.SameCause err' := by
  obtain ⟨g, hg, hg'⟩ | ⟨err, err', herr, herr', hcause⟩ := h.agree_ofConfig.cases_eq
  · exact .inl ⟨g, hg, hg'⟩
  · exact .inr ⟨err, err', herr, herr', hcause.ctorIdx_eq, hcause⟩

/-- Posts with a title of a given size and a rank. -/
def ranked (size nullable rank previous : Json) : Config where
  entities := .object [("Post", .object [
    ("title", .object [("type", .string "string"), ("size", size), ("nullable", nullable)]),
    ("rank", .object [("type", .string "integer"), ("value", rank), ("unsigned", .bool true)]),
    ("previous", .object [("relation", previous), ("target", .string "Post")])])]

theorem quotes_ranked (size rank previous : Int) (nullable : Bool) :
    Quotes (ranked (.number (.integer size)) (.bool nullable) (.number (.integer rank))
        (.number (.integer previous)))
      (ranked (.string (Json.number (.integer size)).text) (.string (Json.bool nullable).text)
        (.string (Json.number (.integer rank)).text)
        (.string (Json.number (.integer previous)).text)) := by
  have hquoted : ∀ key ∈ Schema.quotableKeys, ∀ n, Schema.QuotedScalar key (.number (.integer n))
      (.string (Json.number (.integer n)).text) := fun _ hkey n => .quoted hkey (.integer n)
  have hsize := hquoted "size" (by decide) size
  have hrank := hquoted "value" (by decide) rank
  have hprevious := hquoted "relation" (by decide) previous
  have hnullable : Schema.QuotedScalar "nullable" (.bool nullable)
      (.string (Json.bool nullable).text) := .quoted (by decide) (.truth nullable)
  refine ⟨.object (.cons ⟨rfl, .object ?_⟩ .nil), rfl⟩
  refine .cons ⟨rfl, .object ?_⟩ (.cons ⟨rfl, .object ?_⟩ (.cons ⟨rfl, .object ?_⟩ .nil))
  · exact .cons ⟨rfl, .same _⟩ (.cons ⟨rfl, hsize⟩ (.cons ⟨rfl, hnullable⟩ .nil))
  · exact .cons ⟨rfl, .same _⟩ (.cons ⟨rfl, hrank⟩ (.cons ⟨rfl, .same _⟩ .nil))
  · exact .cons ⟨rfl, hprevious⟩ (.cons ⟨rfl, .same _⟩ .nil)

/-- Quoted settings that fit give the same files, and a size that is too large is refused with
quotes and without. -/
theorem ranked_posts_do_not_depend_on_quotes :
    (∃ g, Generation.ofConfig (ranked (.number (.integer 80)) (.bool true)
        (.number (.integer (-3))) (.number (.integer 1))) = .ok g ∧
      Generation.ofConfig (ranked (.string "80") (.string "true") (.string "-3") (.string "1")) =
        .ok g) ∧
    ∃ err err', Generation.ofConfig (ranked (.number (.integer 4294967296)) (.bool true)
        (.number (.integer (-3))) (.number (.integer 1))) = .error err ∧
      Generation.ofConfig (ranked (.string "4294967296") (.string "true") (.string "-3")
        (.string "1")) = .error err' ∧ err.SameCause err' := by
  obtain hok | ⟨err, _, herr, _⟩ := quotes_are_irrelevant (quotes_ranked 80 (-3) 1 true)
  · obtain ⟨g, hg, _⟩ | ⟨err, err', herr, herr', _, hcause⟩ :=
      quotes_are_irrelevant (quotes_ranked 4294967296 (-3) 1 true)
    · have hnone : (Generation.ofConfig (ranked (.number (.integer 4294967296)) (.bool true)
        (.number (.integer (-3))) (.number (.integer 1)))).toOption = none := by decide +kernel
      rw [hg] at hnone
      cases hnone
    · exact ⟨hok, err, err', herr, herr', hcause⟩
  · obtain ⟨g, hg, _⟩ : ∃ g, Generation.ofConfig (ranked (.number (.integer 80)) (.bool true)
        (.number (.integer (-3))) (.number (.integer 1))) = .ok g ∧ True :=
      exists_ok_of_any (by decide +kernel)
    rw [hg] at herr
    cases herr

end Mapping
end OrmGen

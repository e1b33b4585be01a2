/-
  Stored forms are faithful. Each kind of value is read back from the form in which it is
  stored: a choice from its name, a record from its fields, a map from its members in their
  order, a definition of a field from the object it was read from. From the innermost kind to the
  outermost these facts make up the one for whole schemas (`Schema.ofJson?_toJson`).

  The settings of a configuration are read back likewise. Only its entities can be any value,
  and a configuration is accepted again exactly if they are an object (`Config.ofJson_toJson_iff`).
-/
import OrmGen.Config
import OrmGen.Proofs.Schema.Kept
import OrmGen.Schema.Stored

namespace OrmGen

namespace Json.Stored

variable {α : Type} {read : Json → Option α} {write : α → Json} {fields : Fields}
  {members : List (String × Json)}

/-! ## Parts -/

theorem lookup_isSome_of_mem {m : String × Json}
    (hkeys : members.map Prod.fst = fields.map Prod.fst) (hm : m ∈ members) :
    (fields.lookup m.1).isSome = true := by
  have hkey : m.1 ∈ fields.map Prod.fst := hkeys ▸ List.mem_map_of_mem hm
  rw [Option.isSome_iff_ne_none, ne_eq, List.lookup_eq_none_iff]
  intro hnone
  obtain ⟨f, hf, hname⟩ := List.mem_map.1 hkey
  have hne := hnone f hf
  rw [hname] at hne
  simp at hne

/-- An object that has exactly the fields of a kind of record is a record of that kind. -/
theorem record?_object (hkeys : members.map Prod.fst = fields.map Prod.fst)
    (hdistinct : (fields.map Prod.fst).Nodup) :
    record? fields (.object members) = some members := by
  have hknown : members.filter (fun m => (fields.lookup m.1).isSome) = members :=
    List.filter_eq_self.2 fun m hm => lookup_isSome_of_mem hkeys hm
  show (if ((members.filter fun m => (fields.lookup m.1).isSome).map Prod.fst).Nodup then
    some (members.filter fun m => (fields.lookup m.1).isSome) else none) = some members
  rw [hknown, hkeys, if_pos hdistinct]

/-- A map keeps its keys, its order and what can be read back. -/
theorem map?_ofMap (h : ∀ a, read (write a) = some a) (m : OrderedMap α) :
    map? read (ofMap write m) = some m := by
  have hmembers : ∀ es : List (String × α),
      members? read (es.map fun e => (e.1, write e.2)) = some es := by
    intro es
    induction es with
    | nil => rfl
    | cons e es ih => rw [List.map_cons, members?, h, ih]
  show (members? read (m.entries.map fun e => (e.1, write e.2))).map OrderedMap.ofList = some m
  rw [hmembers, Option.map_some]
  exact congrArg some (OrderedMap.ext (OrderedMap.entries_ofList m.nodup))

theorem nullable?_ofOption (hnull : ∀ a, write a ≠ .null) (h : ∀ a, read (write a) = some a)
    (o : Option α) : nullable? read (ofOption write o) = some o := by
  cases o with
  | none => rfl
  | some a =>
    unfold ofOption nullable?
    split
    · rename_i heq
      exact absurd heq (hnull a)
    · rw [h, Option.map_some]

theorem count?_ofCount (n : UInt32) : count? (ofCount n) = some n := by
  have hrange : (0 : Int) ≤ (n.toNat : Int) ∧ (n.toNat : Int) < (UInt32.size : Int) := by
    have hlt := n.toNat_lt_size
    omega
  show (if 0 ≤ (n.toNat : Int) && (n.toNat : Int) < UInt32.size then
    some (UInt32.ofNat (n.toNat : Int).toNat) else none) = some n
  rw [if_pos (by simpa using hrange.2), Int.toNat_natCast, UInt32.ofNat_toNat]

theorem object?_members (o : Json.Object) : object? (.object o.members) = some o := by
  show some (Json.Object.ofMembers o.members) = some o
  rw [Json.Object.ext (Json.members_ofMembers o.distinct)]

end Json.Stored

open Json.Stored

/-! ## Schemas -/

@[simp]
theorem Cardinality.ofJson?_toJson (c : Cardinality) : ofJson? c.toJson = some c := by
  cases c with
  | one | many | enumeration => rfl
  | fixed n =>
    show (count? (Json.Stored.ofCount n)).map Cardinality.fixed = some (.fixed n)
    rw [count?_ofCount, Option.map_some]

@[simp]
theorem Visibility.ofJson?_toJson (v : Visibility) : ofJson? v.toJson = some v := by
  cases v <;> rfl

@[simp]
theorem EntityKind.ofJson?_toJson (k : EntityKind) : ofJson? k.toJson = some k := by
  cases k <;> rfl

@[simp]
theorem Endpoint.ofJson?_toJson (p : Endpoint) : ofJson? p.toJson = some p := by
  unfold toJson ofJson?
  rw [record?_object rfl (by decide)]
  simp [required?, Json.member?, OrderedMap.lookup?, text?]

@[simp]
theorem Relation.ofJson?_toJson (r : Relation) : ofJson? r.toJson = some r := by
  unfold toJson ofJson?
  rw [record?_object rfl (by decide)]
  simp [required?, Json.member?, OrderedMap.lookup?]

@[simp]
theorem Field.ofJson?_toJson (f : Field) : ofJson? f.toJson = some f := by
  have hsize : nullable? count? (ofOption Json.Stored.ofCount f.size) = some f.size :=
    nullable?_ofOption nofun count?_ofCount f.size
  have htext (s : String) : text? (.string s) = some s := rfl
  have hvalue : nullable? text? (ofOption .string f.value) = some f.value :=
    nullable?_ofOption nofun htext f.value
  have hraw : nullable? object? (ofOption (.object ·.members) f.raw) = some f.raw :=
    nullable?_ofOption nofun object?_members f.raw
  unfold toJson ofJson?
  rw [record?_object rfl (by decide)]
  simp [required?, optional?, Json.member?, OrderedMap.lookup?, text?, bool?, hsize, hvalue, hraw]

@[simp]
theorem Entity.ofJson?_toJson (e : Entity) : ofJson? e.toJson = some e := by
  unfold toJson ofJson?
  rw [record?_object rfl (by decide)]
  simp [required?, Json.member?, OrderedMap.lookup?, text?, map?_ofMap]

/-- A schema is read back from its stored form. -/
theorem Schema.ofJson?_toJson (s : Schema) : ofJson? s.toJson = some s := by
  unfold toJson ofJson?
  rw [record?_object rfl (by decide)]
  simp [required?, Json.member?, OrderedMap.lookup?, map?_ofMap]

/-! ## Configurations -/

namespace Config

theorem readTexts_strings (ss : List String) : readTexts (ss.map .string) = .ok ss := by
  induction ss with
  | nil => rfl
  | cons s ss ih =>
    rw [List.map_cons, readTexts, ih]
    rfl

/-- A configuration is read back from its stored form if and only if its entities are an object. -/
theorem ofJson_toJson_iff (c : Config) :
    ofJson c.toJson = .ok c ↔ ∃ es, c.entities = .object es := by
  have hread (es : List (String × Json)) : readMembers setMember { entities := .object es }
      [("entities", c.entities),
        ("namespace", .object [("app", .string c.namespaces.app),
          ("base", .string c.namespaces.base), ("enum", .string c.namespaces.enumeration),
          ("entity", .string c.namespaces.entity),
          ("repository", .string c.namespaces.repository)]),
        ("classPostfix", .object [("entity", .string c.classPostfix.entity),
          ("repository", .string c.classPostfix.repository)]),
        ("imports", .array (c.imports.map .string))] = .ok c := by
    simp [readMembers, setMember, readNamespaces, readClassPostfix, readGroup, setNamespace,
      setClassPostfix, readImports, readText, readTexts_strings, Except.map]
  unfold toJson ofJson
  dsimp only
  split
  · rename_i es hes
    have hentities : c.entities = .object es := Option.some.inj hes
    exact iff_of_true (hread es) ⟨es, hentities⟩
  · rename_i hother
    refine iff_of_false nofun ?_
    rintro ⟨es, hes⟩
    exact hother es (congrArg some hes)

end Config

/-- Stored forms are faithful: what is stored of a schema gives the schema, with the same order
of entities, fields and relations, and what is stored of a configuration gives the
configuration if and only if its entities are an object. -/
theorem stored_forms_are_faithful :
    (∀ s : Schema, Schema.ofJson? s.toJson = some s) ∧
      ∀ c : Config, Config.ofJson c.toJson = .ok c ↔ ∃ es, c.entities = .object es :=
  ⟨Schema.ofJson?_toJson, Config.ofJson_toJson_iff⟩

end OrmGen

/-
  The grammar of declarations. A definition must have certain properties: a relation a target
  and a cardinality, a field a type, and what else it says of its size, of null and of its
  visibility must make sense (`relationDemands`, `fieldDemands`). The members of an entity
  have one form, that of the first (`EntityAccepted`), and a null declares an entity without
  members.

  Reading accepts the values of the grammar and no others, and refuses a value for the first
  thing in it that is not as it should be (`ofDeclarations_decidedBy`).
-/
import OrmGen.Proofs.Schema.Declared
import OrmGen.Proofs.Schema.Scalars
import OrmGen.Proofs.Verdict

namespace OrmGen.Schema

/-! ## Demands on a definition -/

/-- What a definition must have at one of its properties. `absent` is the error of a definition
in which the property is missing or null, if there is one; any other value must be accepted
and is otherwise refused. -/
structure Demand where
  property : String
  absent : Option Error
  accepts : Json → Prop
  refused : Json → Error

namespace Demand

/-- The definition has what is demanded. -/
def Met (demand : Demand) (definition : List (String × Json)) : Prop :=
  match Json.member? demand.property definition with
  | none | some .null => demand.absent = none
  | some v => demand.accepts v

/-- The definition does not have what is demanded, and `err` says so. -/
def Fault (demand : Demand) (definition : List (String × Json)) (err : Error) : Prop :=
  match Json.member? demand.property definition with
  | none | some .null => demand.absent = some err
  | some v => ¬demand.accepts v ∧ err = demand.refused v

/-- The definition has all that is demanded. -/
def MetAll (demands : List Demand) (definition : List (String × Json)) : Prop :=
  ∀ demand ∈ demands, demand.Met definition

/-- `err` is the fault of the first demand that is not met. -/
def FirstUnmet (demands : List Demand) (definition : List (String × Json)) (err : Error) : Prop :=
  FirstFault (fun demand => demand.Met definition) (fun demand => demand.Fault definition) demands
    err

end Demand

/-- A property that must be there and must be a text. -/
def required (entity field property : String) : Demand where
  property := property
  absent := some (.missingProperty entity field property)
  accepts := IsText
  refused := .badScalar entity field property .text

def relationDemands (entity field : String) : List Demand :=
  [ required entity field "target",
    { property := "relation"
      absent := some (.badCardinality entity field .null)
      accepts := IsCardinality
      refused := .badCardinality entity field } ]

def fieldDemands (entity field : String) : List Demand :=
  [ required entity field "type",
    { property := "size"
      absent := none
      accepts := IsSize
      refused := .badScalar entity field "size" .positiveInteger },
    { property := "nullable"
      absent := none
      accepts := IsBoolean
      refused := .badScalar entity field "nullable" .boolean },
    { property := "modifier"
      absent := none
      accepts := IsVisibility
      refused := .badVisibility entity field } ]

/-- The properties of the value of a member. A bare value has none. -/
def definitionOf : Json → List (String × Json)
  | .object definition => definition
  | _ => []

/-- What is demanded of the definition of a member: what a relation must have if it has the key
`relation`, and what a field must have if not. -/
def demandsOn (entity field : String) : Json → List Demand
  | .object definition =>
    match Json.member? "relation" definition with
    | some _ => relationDemands entity field
    | none => fieldDemands entity field
  | _ => []

/-! ## The grammar -/

/-- A member of an entity whose members have the form `form` is as it should be. -/
def MemberAccepted (entity : String) (form : Bool) (member : String × Json) : Prop :=
  isStructured member.2 = form ∧
    Demand.MetAll (demandsOn entity member.1 member.2) (definitionOf member.2)

/-- What is wrong with a member: its form, or else the first demand on it that is not met. -/
inductive MemberRefused (entity : String) (form : Bool) (member : String × Json) : Error → Prop
    where
  | mixed : isStructured member.2 ≠ form →
      MemberRefused entity form member (.mixedMembers entity member.1)
  | unmet {err : Error} : isStructured member.2 = form →
      Demand.FirstUnmet (demandsOn entity member.1 member.2) (definitionOf member.2) err →
      MemberRefused entity form member err

/-- The form of the first member. -/
def leadForm (members : List (String × Json)) : Bool :=
  members.head?.any fun member => isStructured member.2

/-- The value declares an entity: it is null, or maps names to members of one form. -/
inductive EntityAccepted (entity : String) : Json → Prop where
  | null : EntityAccepted entity .null
  | mapping {members : List (String × Json)} (form : Bool) :
      (∀ member ∈ members, MemberAccepted entity form member) →
      EntityAccepted entity (.object members)

/-- What is wrong with an entity: that it is no mapping, or else its first bad member. -/
inductive EntityRefused (entity : String) : Json → Error → Prop where
  | notMapping {v : Json} : v ≠ .null → (∀ members, v ≠ .object members) →
      EntityRefused entity v (.entityNotMapping entity)
  | member {members : List (String × Json)} {err : Error} :
      FirstFault (MemberAccepted entity (leadForm members))
        (MemberRefused entity (leadForm members)) members err →
      EntityRefused entity (.object members) err

/-- The value declares a schema: it maps names to entities. -/
inductive Accepted : Json → Prop where
  | mapping {entities : List (String × Json)} :
      (∀ entity ∈ entities, EntityAccepted entity.1 entity.2) → Accepted (.object entities)

/-- What is wrong with the declarations of a schema: that they are no mapping, or else the first
bad entity. -/
inductive Refused : Json → Error → Prop where
  | notMapping {v : Json} : (∀ entities, v ≠ .object entities) → Refused v .entitiesNotMapping
  | entity {entities : List (String × Json)} {err : Error} :
      FirstFault (fun entity => EntityAccepted entity.1 entity.2)
        (fun entity => EntityRefused entity.1 entity.2) entities err →
      Refused (.object entities) err

/-! ## Reading a definition -/

section Definitions

variable {entity field property : String} {definition : List (String × Json)} {err : Error}

/-- A value that can be turned into another is turned into it, and any other is refused. -/
theorem orError_decidedBy {α : Type} {v : Option α} {e : Error} {good : Prop}
    (h : good ↔ v.isSome = true) :
    DecidedBy (orError v e) good fun err => ¬good ∧ err = e := by
  cases v with
  | some a => exact .ok (h.2 rfl) fun err hfault => hfault.1 (h.2 rfl)
  | none =>
    have hnot : ¬good := fun hgood => absurd (h.1 hgood) Bool.false_ne_true
    exact .error hnot fun err => and_iff_right hnot

/-- The demand on a definition whose property has a value other than null. -/
theorem met_iff {demand : Demand} {v : Json} (h : Json.member? demand.property definition = some v)
    (hnull : v ≠ .null) : demand.Met definition ↔ demand.accepts v := by
  unfold Demand.Met
  rw [h]
  cases v <;> first | exact absurd rfl hnull | rfl

theorem fault_iff {demand : Demand} {v : Json}
    (h : Json.member? demand.property definition = some v) (hnull : v ≠ .null) :
    demand.Fault definition err ↔ ¬demand.accepts v ∧ err = demand.refused v := by
  unfold Demand.Fault
  rw [h]
  cases v <;> first | exact absurd rfl hnull | rfl

theorem requireText_decidedBy : DecidedBy (requireText entity field property definition)
    ((required entity field property).Met definition)
    ((required entity field property).Fault definition) := by
  unfold requireText
  split
  · rename_i hvalue
    exact .error (by simp [Demand.Met, required, hvalue])
      (by simp [Demand.Fault, required, hvalue, eq_comm])
  · rename_i hvalue
    exact .error (by simp [Demand.Met, required, hvalue])
      (by simp [Demand.Fault, required, hvalue, eq_comm])
  · rename_i s hvalue
    have hnull : Json.string s ≠ .null := by simp
    refine .ok ((met_iff hvalue hnull).2 .text) fun err hfault => ?_
    have htext : ¬(required entity field property).accepts (.string s) :=
      ((fault_iff hvalue hnull).1 hfault).1
    exact htext .text
  · rename_i v hnull htext hvalue
    have hnot : ¬IsText v := by
      rintro ⟨⟩
      exact htext _ rfl
    have hfault : ∀ err, (required entity field property).Fault definition err ↔
        ¬IsText v ∧ err = (required entity field property).refused v :=
      fun err => fault_iff hvalue hnull
    exact .error (fun hmet => hnot ((met_iff hvalue hnull).1 hmet))
      fun err => (hfault err).trans (and_iff_right hnot)

/-- An optional property is read if it is there, and then decides as reading it does. -/
theorem optional_decidedBy {α : Type} {default : α} {read : Json → Except Error α}
    {accepts : Json → Prop} {refused : Json → Error}
    (hread : ∀ v, DecidedBy (read v) (accepts v) fun err => ¬accepts v ∧ err = refused v) :
    DecidedBy (optional definition property default read)
      (Demand.Met ⟨property, none, accepts, refused⟩ definition)
      (Demand.Fault ⟨property, none, accepts, refused⟩ definition) := by
  unfold optional
  split
  · rename_i hvalue
    exact .ok (by simp [Demand.Met, hvalue]) (by simp [Demand.Fault, hvalue])
  · rename_i hvalue
    exact .ok (by simp [Demand.Met, hvalue]) (by simp [Demand.Fault, hvalue])
  · rename_i v hnull hvalue
    exact (hread v).congr (met_iff hvalue hnull) fun _ => fault_iff hvalue hnull

/-- Demands are looked at one after another. -/
theorem demands_cons {α β : Type} {demand : Demand} {demands : List Demand} {x : Except Error α}
    {f : α → Except Error β} (h : DecidedBy x (demand.Met definition) (demand.Fault definition))
    (hf : ∀ a, DecidedBy (f a) (Demand.MetAll demands definition)
      (Demand.FirstUnmet demands definition)) :
    DecidedBy (x >>= f) (Demand.MetAll (demand :: demands) definition)
      (Demand.FirstUnmet (demand :: demands) definition) := by
  unfold Demand.MetAll Demand.FirstUnmet at *
  exact (h.bind fun a _ => hf a).congr List.forall_mem_cons fun _ => firstFault_cons_iff

theorem demands_nil {α : Type} {a : α} : DecidedBy (.ok a : Except Error α)
    (Demand.MetAll [] definition) (Demand.FirstUnmet [] definition) := .nil

theorem readRelation_decidedBy {v : Json} (hv : Json.member? "relation" definition = some v) :
    DecidedBy (readRelation entity field definition v)
      (Demand.MetAll (relationDemands entity field) definition)
      (Demand.FirstUnmet (relationDemands entity field) definition) := by
  refine demands_cons requireText_decidedBy fun target => demands_cons ?_ fun c => demands_nil
  refine (orError_decidedBy isCardinality_iff).congr ?_ fun err => ?_
  · by_cases hnull : v = .null
    · subst hnull
      exact iff_of_false (by simp [Demand.Met, hv]) nofun
    · exact met_iff hv hnull
  · by_cases hnull : v = .null
    · subst hnull
      have hnot : ¬IsCardinality .null := nofun
      simp [Demand.Fault, hv, hnot, eq_comm]
    · exact fault_iff hv hnull

theorem readField_decidedBy :
    DecidedBy (readField entity field definition)
      (Demand.MetAll (fieldDemands entity field) definition)
      (Demand.FirstUnmet (fieldDemands entity field) definition) := by
  refine demands_cons requireText_decidedBy fun type => demands_cons ?_ fun size =>
    demands_cons ?_ fun nullable => demands_cons ?_ fun visibility => demands_nil
  · exact optional_decidedBy fun v => (orError_decidedBy isSize_iff).map _
  · exact optional_decidedBy fun v => orError_decidedBy isBoolean_iff
  · exact optional_decidedBy fun v => orError_decidedBy isVisibility_iff

theorem readMember_decidedBy {name : String} {v : Json} : DecidedBy (readMember entity name v)
    (Demand.MetAll (demandsOn entity name v) (definitionOf v))
    (Demand.FirstUnmet (demandsOn entity name v) (definitionOf v)) := by
  cases v with
  | object definition =>
    simp only [readMember, demandsOn, definitionOf]
    cases hrelation : Json.member? "relation" definition with
    | some c => exact (readRelation_decidedBy hrelation).map _
    | none => exact readField_decidedBy.map _
  | _ => exact demands_nil

end Definitions

/-! ## Reading entities -/

section Entities

variable {entity : String} {form : Bool} {members : List (String × Json)} {v : Json}

theorem readMember_decidedBy_of_form {name : String} (hform : isStructured v = form) :
    DecidedBy (readMember entity name v) (MemberAccepted entity form (name, v))
      (MemberRefused entity form (name, v)) := by
  refine readMember_decidedBy.congr (and_iff_right hform) fun err => ⟨?_, ?_⟩
  · rintro (hmixed | ⟨_, hunmet⟩)
    · exact absurd hform hmixed
    · exact hunmet
  · exact fun hunmet => .unmet hform hunmet

/-- A member of another form than those before it is refused without being read. -/
theorem memberRefused_iff {member : String × Json} {err : Error}
    (hform : isStructured member.2 ≠ form) :
    MemberRefused entity form member err ↔ err = .mixedMembers entity member.1 := by
  constructor
  · rintro (_ | ⟨hsame, _⟩)
    · rfl
    · exact absurd hsame hform
  · rintro rfl
    exact .mixed hform

theorem readMembers_decidedBy : DecidedBy (readMembers entity (some form) members)
    (∀ member ∈ members, MemberAccepted entity form member)
    (FirstFault (MemberAccepted entity form) (MemberRefused entity form) members) := by
  induction members with
  | nil => exact .nil
  | cons member members ih =>
    obtain ⟨name, v⟩ := member
    rw [readMembers]
    by_cases hform : isStructured v = form
    · rw [if_neg (by simpa using hform.symm), hform]
      exact (readMember_decidedBy_of_form hform).cons fun m _ => ih.bind_pure _
    · rw [if_pos (by simpa using Ne.symm hform)]
      have hnot : ¬MemberAccepted entity form (name, v) := fun haccepted => hform haccepted.1
      refine .error (fun hall => hnot (hall _ List.mem_cons_self)) fun err => ?_
      rw [firstFault_cons_iff, memberRefused_iff hform, or_iff_left fun hlater => hnot hlater.1]

/-- The first member has the form that is asked of it. -/
theorem readMembers_none (entity : String) (members : List (String × Json)) :
    readMembers entity none members = readMembers entity (some (leadForm members)) members := by
  cases members with
  | nil => rfl
  | cons member members =>
    obtain ⟨name, v⟩ := member
    simp [readMembers, leadForm]

theorem entityAccepted_iff : EntityAccepted entity (.object members) ↔
    ∀ member ∈ members, MemberAccepted entity (leadForm members) member := by
  constructor
  · rintro (_ | ⟨form, hall⟩)
    cases members with
    | nil => exact List.forall_mem_nil _
    | cons member members =>
      have hlead : leadForm (member :: members) = form := (hall _ List.mem_cons_self).1
      rwa [hlead]
  · exact .mapping _

theorem readEntity_decidedBy :
    DecidedBy (readEntity entity v) (EntityAccepted entity v) (EntityRefused entity v) := by
  unfold readEntity
  split
  · rename_i members
    rw [readMembers_none]
    refine (readMembers_decidedBy.bind_pure _).congr entityAccepted_iff fun err => ⟨?_, .member⟩
    rintro (⟨_, hobject⟩ | hfault)
    · exact absurd rfl (hobject _)
    · exact hfault
  · refine .ok .null ?_
    rintro err ⟨hnull, _⟩
    exact hnull rfl
  · rename_i hobject hnull
    refine .error ?_ fun err => ⟨?_, ?_⟩
    · rintro (_ | _)
      · exact hnull rfl
      · exact hobject _ rfl
    · rintro (_ | _)
      · rfl
      · exact absurd rfl (hobject _)
    · rintro rfl
      exact .notMapping hnull hobject

theorem readEntities_decidedBy {entities : List (String × Json)} :
    DecidedBy (readEntities entities)
      (∀ entity ∈ entities, EntityAccepted entity.1 entity.2)
      (FirstFault (fun entity => EntityAccepted entity.1 entity.2)
        (fun entity => EntityRefused entity.1 entity.2) entities) := by
  induction entities with
  | nil => exact .nil
  | cons entity entities ih =>
    have hentity : DecidedBy (readEntity entity.1 entity.2) _ _ := readEntity_decidedBy
    exact (hentity.bind fun e _ => ih.bind_pure _).congr List.forall_mem_cons fun _ =>
      firstFault_cons_iff

theorem ofDeclarations_decidedBy : DecidedBy (ofDeclarations v) (Accepted v) (Refused v) := by
  unfold ofDeclarations
  split
  · rename_i entities
    refine (readEntities_decidedBy.bind_pure _).congr ⟨?_, .mapping⟩ fun err => ⟨?_, .entity⟩
    · rintro ⟨hall⟩
      exact hall
    · rintro (hobject | hfault)
      · exact absurd rfl (hobject _)
      · exact hfault
  · rename_i hobject
    refine .error ?_ fun err => ⟨?_, ?_⟩
    · rintro ⟨⟩
      exact hobject _ rfl
    · rintro (_ | _)
      · rfl
      · exact absurd rfl (hobject _)
    · rintro rfl
      exact .notMapping hobject

end Entities

end OrmGen.Schema

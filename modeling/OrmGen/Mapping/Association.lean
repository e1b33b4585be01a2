/-
  Associations between entities, from the cardinalities at their two ends, and which end of
  a symmetric association owns it. The end that claims an association first is its owner.
-/
import OrmGen.Schema

namespace OrmGen.Mapping

/-- An association as its annotation names it, seen from the entity that carries it. -/
inductive Association where
  | oneToOne
  | manyToOne
  | oneToMany
  | manyToMany
deriving DecidableEq, Repr

namespace Association

/-- The association between two cardinalities. There is none with an enumeration. -/
def ofCardinalities? (source target : Cardinality) : Option Association :=
  match source.normalized, target.normalized with
  | .one, .one => some .oneToOne
  | .many, .one => some .manyToOne
  | .one, .many => some .oneToMany
  | .many, .many => some .manyToMany
  | _, _ => none

/-- The name of the annotation. -/
def name : Association → String
  | .oneToOne => "OneToOne"
  | .manyToOne => "ManyToOne"
  | .oneToMany => "OneToMany"
  | .manyToMany => "ManyToMany"

/-- The association seen from the other end. -/
def dual : Association → Association
  | .manyToOne => .oneToMany
  | .oneToMany => .manyToOne
  | a => a

/-- Swapping the cardinalities gives the dual association. -/
theorem ofCardinalities?_swap (c d : Cardinality) :
    ofCardinalities? d c = (ofCardinalities? c d).map dual := by
  unfold ofCardinalities?
  cases c.normalized <;> cases d.normalized <;> rfl

end Association

/-- One end of a symmetric association. -/
inductive Side where
  | owning
  | inverse
deriving DecidableEq, Repr

/-- The attribute by which a side refers to the property at the other end. -/
def Side.attribute : Side → String
  | .owning => "inversedBy"
  | .inverse => "mappedBy"

/-- The names of the associations claimed so far. -/
structure Claims where
  names : List String
deriving DecidableEq, Repr

namespace Claims

def none : Claims := ⟨[]⟩

/-- Claim an association: the first claim owns it, later ones are the inverse side. -/
def claim (c : Claims) (name : String) : Side × Claims :=
  if name ∈ c.names then (.inverse, c) else (.owning, ⟨name :: c.names⟩)

end Claims

/-- The side of an association that the relation `r` is. Only a symmetric association has to
be claimed; of the others the end with many is the owner. -/
def Association.side (a : Association) (claims : Claims) (r : Relation) : Side × Claims :=
  match a with
  | .manyToOne => (.owning, claims)
  | .oneToMany => (.inverse, claims)
  | .oneToOne | .manyToMany => claims.claim r.canonicalId

end OrmGen.Mapping

/-
  Scalars written as strings. The settings of a definition are read from their JSON values or
  from strings that spell them, and an integer or a truth value is read like the string that
  holds its JSON text (`sizeOf?_quoted` and its siblings): a count that does not fit is refused
  both ways. So definitions that differ in such quotes (`Quoted`) are read alike, up to the
  value that an error shows and to the definition that a field keeps, of which no setting is
  ever passed on (`agree_link_of_quoted`).
-/
import OrmGen.Mapping.Column
import OrmGen.Proofs.Insertion
import OrmGen.Proofs.Schema.Kept
import OrmGen.Proofs.Schema.Scalars
import OrmGen.Proofs.Schema.View
import OrmGen.Proofs.Text.Pieces

namespace OrmGen

/-! ## Integers and truth values as texts -/

namespace Text

/-- The count that the text of a natural number spells. -/
theorem toCount?_toString (n : Nat) : toCount? (toString n).toList =
    if n < UInt32.size then some (UInt32.ofNat n) else none := by
  have hdigits : (toString n).toList = Nat.toDigits 10 n := by
    rw [Nat.toString_eq_ofList_toDigits, String.toList_ofList]
  have hall : (Nat.toDigits 10 n).all Char.isDigit = true := by
    rw [List.all_eq_true]
    exact fun c hc => Nat.isDigit_of_mem_toDigits (by decide) (by decide) hc
  have hvalue : Nat.ofDigitChars 10 (Nat.toDigits 10 n) 0 = n :=
    Nat.ofDigitChars_toDigits (by decide) (by decide)
  rw [hdigits]
  obtain ⟨d, ds, hds⟩ := List.exists_cons_of_ne_nil (Nat.toDigits_ne_nil (n := n) (b := 10))
  rw [hds] at hall hvalue ⊢
  have hplus : d ≠ '+' := by
    rintro rfl
    simp at hall
  unfold toCount?
  simp [hall, hvalue, hplus]

theorem toCount?_toString_negSucc (n : Nat) :
    toCount? (toString (Int.negSucc n)).toList = none := by
  rw [toString_negSucc, String.toList_append]
  unfold toCount?
  simp

variable {n : Int}

theorem isBlank_toString : ∀ c ∈ (toString n).toList, isBlank c = false := by
  intro c hc
  rcases isDigit_or_of_mem_toString hc with hdigit | rfl
  · exact isBlank_digit hdigit
  · rfl

theorem trim_toString (n : Int) : trim (toString n) = toString n := by
  rw [trim, stripBy_eq_self (isStripped_of_forall isBlank_toString), String.ofList_toList]

theorem lowerAscii_toString (n : Int) : lowerAscii (toString n) = toString n := by
  have hlower : ∀ c ∈ (toString n).toList, c.toLower = c := by
    intro c hc
    rcases isDigit_or_of_mem_toString hc with hdigit | rfl
    · exact toLower_digit hdigit
    · rfl
  rw [lowerAscii, List.map_congr_left hlower, List.map_id', String.ofList_toList]

/-- The text of an integer is not a word without digits. -/
theorem toString_ne_word {word : String} (h : word.toList.any Char.isDigit = false) :
    toString n ≠ word := by
  rintro rfl
  obtain ⟨c, hc, hdigit⟩ := exists_digit_of_int n
  exact List.any_eq_false.1 h c hc hdigit

end Text

namespace Schema

open Text (toCount?_toString toCount?_toString_negSucc trim_toString lowerAscii_toString
  toString_ne_word)

/-- The count of an integer is the count that its text spells. -/
theorem toCount?_toString_int (n : Int) :
    Text.toCount? (toString n).toList = (Json.Number.integer n).toUInt32? := by
  cases n with
  | ofNat n =>
    have htext : toString (Int.ofNat n) = toString n := rfl
    have hfits : (n : Int) < 4294967296 ↔ n < UInt32.size := Int.ofNat_lt
    rw [htext, toCount?_toString]
    simp [Json.Number.toUInt32?, hfits]
  | negSucc n =>
    rw [toCount?_toString_negSucc]
    simp [Json.Number.toUInt32?]

/-- An integer or a truth value. -/
inductive IsPlainScalar : Json → Prop where
  | integer (n : Int) : IsPlainScalar (.number (.integer n))
  | truth (b : Bool) : IsPlainScalar (.bool b)

variable {v v' : Json} {key : String}

theorem sizeOf?_quoted (h : IsPlainScalar v) : sizeOf? (.string v.text) = sizeOf? v := by
  cases h with
  | integer n =>
    rw [sizeOf?, sizeOf?, Json.text, Json.Number.text, trim_toString, toCount?_toString_int]
  | truth b => cases b <;> decide

theorem cardinalityOf?_quoted (h : IsPlainScalar v) :
    cardinalityOf? (.string v.text) = cardinalityOf? v := by
  cases h with
  | integer n =>
    rw [cardinalityOf?, cardinalityOf?, Json.text, Json.Number.text, Cardinality.parse?,
      trim_toString, lowerAscii_toString, toCount?_toString_int,
      if_neg (toString_ne_word (by decide)), if_neg (toString_ne_word (by decide)),
      if_neg (toString_ne_word (by decide))]
  | truth b => cases b <;> decide

theorem booleanOf?_quoted (h : IsPlainScalar v) : booleanOf? (.string v.text) = booleanOf? v := by
  cases h with
  | integer n =>
    show booleanOf? (.string (toString n)) = none
    rw [booleanOf?, if_neg (toString_ne_word (by decide)), if_neg (toString_ne_word (by decide))]
  | truth b => cases b <;> rfl

theorem scalarText?_quoted (h : IsPlainScalar v) :
    scalarText? (.string v.text) = scalarText? v := by
  cases h with
  | integer n => rfl
  | truth b => cases b <;> rfl

end Schema

/-! ## Errors that show what was found -/

namespace Error

/-- The error without the value that was found. -/
def withoutFound : Error → Error
  | .badScalar entity field property wanted _ => .badScalar entity field property wanted .null
  | .badCardinality entity field _ => .badCardinality entity field .null
  | err => err

/-- The errors are the same but for the value that was found. -/
def SameCause (err err' : Error) : Prop := err'.withoutFound = err.withoutFound

theorem SameCause.refl (err : Error) : err.SameCause err := rfl

theorem ctorIdx_withoutFound (err : Error) : err.withoutFound.ctorIdx = err.ctorIdx := by
  cases err <;> rfl

/-- Errors of one cause are of one kind. -/
theorem SameCause.ctorIdx_eq {err err' : Error} (h : err.SameCause err') :
    err'.ctorIdx = err.ctorIdx := by
  rw [← ctorIdx_withoutFound, h, ctorIdx_withoutFound]

variable {entity field property : String} {wanted : ScalarForm} {found found' : Json}

theorem sameCause_badScalar : SameCause (.badScalar entity field property wanted found)
    (.badScalar entity field property wanted found') := rfl

theorem sameCause_badCardinality :
    SameCause (.badCardinality entity field found) (.badCardinality entity field found') := rfl

end Error

namespace Schema

theorem agree_orError {α : Type} {o o' : Option α} {err err' : Error} (ho : o' = o)
    (herr : err.SameCause err') : Agree Error.SameCause Eq (orError o err) (orError o' err') := by
  subst ho
  cases o' with
  | none => exact .error herr
  | some a => exact .ok rfl

/-! ## Definitions that differ in quotes -/

/-- The settings whose values may be quoted. -/
def quotableKeys : List String := ["size", "relation", "nullable", "value"]

/-- The values at a key of a definition are the same, or a setting and its JSON text. -/
inductive QuotedScalar (key : String) : Json → Json → Prop where
  | same (v : Json) : QuotedScalar key v v
  | quoted {v : Json} : key ∈ quotableKeys → IsPlainScalar v →
      QuotedScalar key v (.string v.text)

/-- The values declare the same, but for settings of structured members that are quoted in the
second one. -/
def Quoted : Json → Json → Prop :=
  MembersRelated fun _ => MembersRelated fun _ => MembersRelated QuotedScalar

theorem QuotedScalar.eq_of_notMem (h : QuotedScalar key v v') (hkey : key ∉ quotableKeys) :
    v' = v := by
  cases h with
  | same => rfl
  | quoted hmem _ => exact absurd hmem hkey

/-- A reader that reads quotes like what they hold. -/
theorem QuotedScalar.read_eq {α : Type} {read : Json → Option α} (h : QuotedScalar key v v')
    (hread : ∀ v, IsPlainScalar v → read (.string v.text) = read v) : read v' = read v := by
  cases h with
  | same => rfl
  | quoted _ hv => exact hread _ hv

end Schema

/-! ## The part of a definition that counts -/

namespace Mapping

/-- The members of a definition that are passed through to an annotation. -/
def passedOn (raw : Json.Object) : Json.Object where
  members := raw.members.filter fun m => !ownKeys.contains m.1
  distinct := by
    obtain ⟨hkeys, hvalues⟩ := Schema.distinct_filter raw.distinct fun m => !ownKeys.contains m.1
    rw [Json.Distinct, Json.distinctMembers_iff]
    exact ⟨hkeys, hvalues⟩

end Mapping

/-- Schemas without the settings that definitions keep. -/
def View.passedOn : View where
  field f := { f with raw := f.raw.map Mapping.passedOn }
  endpoint := id
  field_name _ := rfl
  entity _ := rfl
  name _ := rfl
  enumeration _ := Iff.rfl
  unnamed _ := rfl

namespace Schema

open Mapping (ownKeys passedOn)

variable {v v' : Json} {key entity field : String} {definition definition' : List (String × Json)}

/-- No setting is passed through. -/
theorem notMem_quotableKeys (h : (!ownKeys.contains key) = true) : key ∉ quotableKeys := by
  intro hmem
  have hsubset : quotableKeys ⊆ ownKeys := by decide
  simp [hsubset hmem] at h

theorem forall₂_settledMembers (h : List.Forall₂
    (fun d d' => d'.1 = d.1 ∧ QuotedScalar d.1 d.2 d'.2) definition definition') :
    List.Forall₂ (fun d d' => d'.1 = d.1 ∧ (d.1 ∉ quotableKeys → d'.2 = d.2))
      (Json.settledMembers definition) (Json.settledMembers definition') := by
  induction h with
  | nil => exact .nil
  | @cons d d' ds ds' hd _ ih =>
    obtain ⟨k, v⟩ := d
    obtain ⟨k', v'⟩ := d'
    obtain ⟨rfl, hv⟩ := hd
    rw [Json.settledMembers, Json.settledMembers]
    exact .cons ⟨rfl, fun hkey => congrArg Json.settled (hv.eq_of_notMem hkey)⟩ ih

theorem filter_eq_of_forall₂ {es es' : List (String × Json)}
    (h : List.Forall₂ (fun d d' => d'.1 = d.1 ∧ (d.1 ∉ quotableKeys → d'.2 = d.2)) es es') :
    (es'.filter fun m => !ownKeys.contains m.1) = es.filter fun m => !ownKeys.contains m.1 := by
  induction h with
  | nil => rfl
  | @cons d d' es es' hd _ ih =>
    obtain ⟨k, v⟩ := d
    obtain ⟨k', v'⟩ := d'
    obtain ⟨hkey, hv⟩ := hd
    obtain rfl : k' = k := hkey
    rw [List.filter_cons, List.filter_cons, ih]
    by_cases hpassed : (!ownKeys.contains k') = true
    · have hvalue : v' = v := hv (notMem_quotableKeys hpassed)
      rw [hvalue]
    · rw [if_neg hpassed, if_neg hpassed]

/-- Definitions that differ in quotes pass on the same. -/
theorem passedOn_ofMembers (h : List.Forall₂
    (fun d d' => d'.1 = d.1 ∧ QuotedScalar d.1 d.2 d'.2) definition definition') :
    passedOn (Json.Object.ofMembers definition') = passedOn (Json.Object.ofMembers definition) := by
  apply Json.Object.ext
  have hsettled := OrderedMap.forall₂_ofList (R := fun k v v' => k ∉ quotableKeys → v' = v)
    (forall₂_settledMembers h)
  exact filter_eq_of_forall₂ hsettled

/-! ## Reading definitions -/

section Reading

variable (h : List.Forall₂ (fun d d' => d'.1 = d.1 ∧ QuotedScalar d.1 d.2 d'.2)
  definition definition')
include h

theorem member?_quoted {property : String} (hproperty : property ∉ quotableKeys) :
    Json.member? property definition' = Json.member? property definition := by
  rcases member?_of_forall₂ h property with ⟨hnone, hnone'⟩ | ⟨v, v', hv, hv', hquoted⟩
  · rw [hnone, hnone']
  · rw [hv, hv', hquoted.eq_of_notMem hproperty]

theorem bind_member?_quoted {α : Type} {read : Json → Option α} (property : String)
    (hread : ∀ v, IsPlainScalar v → read (.string v.text) = read v) :
    (Json.member? property definition').bind read =
      (Json.member? property definition).bind read := by
  rcases member?_of_forall₂ h property with ⟨hnone, hnone'⟩ | ⟨v, v', hv, hv', hquoted⟩
  · rw [hnone, hnone']
  · rw [hv, hv', Option.bind_some, Option.bind_some, hquoted.read_eq hread]

/-- A setting that is read like what its quotes hold. -/
theorem agree_optional {α : Type} (property : String) (default : α)
    {read : Json → Except Error α}
    (hread : ∀ v, IsPlainScalar v → Agree Error.SameCause Eq (read v) (read (.string v.text))) :
    Agree Error.SameCause Eq (optional definition property default read)
      (optional definition' property default read) := by
  unfold optional
  rcases member?_of_forall₂ h property with ⟨hnone, hnone'⟩ | ⟨v, v', hv, hv', hquoted⟩
  · rw [hnone, hnone']
    exact .ok rfl
  · rw [hv, hv']
    cases hquoted with
    | same => exact .refl Error.SameCause.refl (fun _ => rfl) _
    | quoted _ hplain =>
      have hsame := hread v hplain
      cases hplain <;> exact hsame

theorem agree_readRelation {c c' : Json} (hc : QuotedScalar "relation" c c') :
    Agree Error.SameCause Eq (readRelation entity field definition c)
      (readRelation entity field definition' c') := by
  unfold readRelation requireText
  rw [member?_quoted h (by decide)]
  refine (Agree.refl Error.SameCause.refl (fun _ => rfl) _).bind_eq fun target => ?_
  have hcardinality : cardinalityOf? c' = cardinalityOf? c :=
    hc.read_eq fun _ => cardinalityOf?_quoted
  refine Agree.bind_eq (agree_orError hcardinality ?_) fun cardinality => .ok rfl
  exact Error.sameCause_badCardinality

theorem agree_readField : Agree Error.SameCause
    (fun f f' => View.passedOn.field f' = View.passedOn.field f)
    (readField entity field definition) (readField entity field definition') := by
  have hmodifier : Json.member? "modifier" definition' = Json.member? "modifier" definition :=
    member?_quoted h (by decide)
  unfold readField requireText
  rw [member?_quoted h (by decide), bind_member?_quoted h "value" fun _ => scalarText?_quoted,
    bind_member?_quoted h "target" fun _ => scalarText?_quoted]
  refine (Agree.refl Error.SameCause.refl (fun _ => rfl) _).bind_eq fun typeName => ?_
  refine (agree_optional h "size" none fun v hv => ?_).bind_eq fun size => ?_
  · refine (agree_orError (sizeOf?_quoted hv) ?_).map fun _ _ hsize => congrArg some hsize
    exact Error.sameCause_badScalar
  refine (agree_optional h "nullable" false fun v hv => ?_).bind_eq fun nullable => ?_
  · refine agree_orError (booleanOf?_quoted hv) ?_
    exact Error.sameCause_badScalar
  unfold optional
  rw [hmodifier]
  refine (Agree.refl Error.SameCause.refl (fun _ => rfl) _).bind_eq fun visibility => .ok ?_
  simp only [View.passedOn, Option.map_some, passedOn_ofMembers h]

end Reading

/-- Structured members that differ in quotes are read alike. -/
theorem readAlike_of_quoted (h : MembersRelated QuotedScalar v v') :
    ReadAlike Error.SameCause .passedOn v v' := by
  intro entity name
  cases h with
  | same =>
    refine .refl Error.SameCause.refl ?_ _
    exact fun _ => rfl
  | @object definition definition' h =>
    simp only [readMember]
    rcases member?_of_forall₂ h "relation" with ⟨hnone, hnone'⟩ | ⟨c, c', hc, hc', hquoted⟩
    · rw [hnone, hnone']
      exact (agree_readField h).map fun f f' hf => congrArg Member.field hf
    · rw [hc, hc']
      refine (agree_readRelation h hquoted).map fun r r' hr => ?_
      rw [hr]

/-- Values that differ in quotes declare schemas that link alike and differ in nothing but the
settings that their fields keep. -/
theorem agree_link_of_quoted (h : Quoted v v') :
    Agree Error.SameCause (fun s s' => s'.seen .passedOn = s.seen .passedOn)
      (ofDeclarations v >>= link) (ofDeclarations v' >>= link) :=
  agree_link Error.SameCause.refl (fun _ _ => readAlike_of_quoted) h

end Schema
end OrmGen

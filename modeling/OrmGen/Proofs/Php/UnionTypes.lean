/-
  Declared types as sets of members. A declared type is a text with bars, and its signature is
  read off a list of members; here the signature is described by the set of members alone
  (`Describes`), and each set describes one signature (`Describes.unique`). So two texts with
  the same members have the same signature (`ofDeclared_congr`), in whatever order, however
  often and with whatever white space they write them, and accessors of one name that differ
  at most in their doc comments (`Property.accessorCode_congr`).
-/
import Mathlib.Data.Finset.Card
import OrmGen.Proofs.Insertion
import OrmGen.Proofs.Php.DocComment

namespace OrmGen.Php

namespace Signature

variable {M : Finset String} {sig sig' : Signature} {declared declared' : String}

/-! ## The set of members -/

/-- The texts between the bars of a declared type, without white space around them and without
the empty one. -/
def memberSet (declared : String) : Finset String :=
  ((declared.toList.splitOn '|').map fun m => Text.trim (String.ofList m)).toFinset.erase ""

theorem mem_members {m : String} : m ∈ members declared ↔ m ∈ memberSet declared := by
  unfold members memberSet Text.trim
  simp only [List.mem_eraseDups, List.mem_filter, Finset.mem_erase, List.mem_toFinset,
    String.toList_ofList, decide_eq_true_eq]
  exact and_comm

/-- The members of a declared type other than null, each once. -/
def concrete (declared : String) : List String := (members declared).filter (· ≠ "null")

theorem nodup_concrete (declared : String) : (concrete declared).Nodup :=
  (nodup_eraseDups _).filter _

theorem toFinset_concrete (declared : String) :
    (concrete declared).toFinset = (memberSet declared).erase "null" := by
  ext m
  simp only [concrete, List.mem_toFinset, List.mem_filter, mem_members, Finset.mem_erase,
    decide_eq_true_eq]
  exact and_comm

theorem card_concrete (declared : String) :
    ((memberSet declared).erase "null").card = (concrete declared).length := by
  rw [← toFinset_concrete, List.toFinset_card_of_nodup (nodup_concrete declared)]

/-! ## What a set of members says -/

/-- The question mark of a type that can be null. -/
def mark (M : Finset String) : String := if "null" ∈ M then "?" else ""

/-- Two members of which one is an array, and no null. -/
def IsIterable (M : Finset String) : Prop :=
  "null" ∉ M ∧ (M.erase "null").card = 2 ∧
    ((M.erase "null").filter fun m => isArray m = true).card = 1

/-- The signature of a type with the members `M`. -/
inductive Describes (M : Finset String) : Signature → Prop where
  | array {m : String} : M.erase "null" = {m} → isArray m = true →
      Describes M (.collapsed (mark M ++ "array"))
  | single {m : String} : M.erase "null" = {m} → isArray m = false →
      Describes M (.exact (mark M ++ m))
  | iterable : IsIterable M → Describes M (.collapsed "iterable")
  | untyped : (M.erase "null").card ≠ 1 → ¬ IsIterable M → Describes M .untyped

theorem not_isIterable_of_singleton {m : String} (h : M.erase "null" = {m}) : ¬ IsIterable M := by
  rintro ⟨-, htwo, -⟩
  rw [h, Finset.card_singleton] at htwo
  omega

theorem Describes.unique (h : Describes M sig) (h' : Describes M sig') : sig = sig' := by
  have hone : ∀ {m : String}, M.erase "null" = {m} → (M.erase "null").card = 1 := fun hm =>
    Finset.card_eq_one.2 ⟨_, hm⟩
  have hsame : ∀ {m m' : String}, M.erase "null" = {m} → M.erase "null" = {m'} → m = m' :=
    fun hm hm' => Finset.singleton_injective (hm.symm.trans hm')
  cases h with
  | array hm harray =>
    cases h' with
    | array hm' harray' => rfl
    | single hm' hsingle =>
      rw [hsame hm hm', hsingle] at harray
      cases harray
    | iterable hiterable => exact absurd hiterable (not_isIterable_of_singleton hm)
    | untyped hcard _ => exact absurd (hone hm) hcard
  | single hm hsingle =>
    cases h' with
    | array hm' harray =>
      rw [hsame hm hm', harray] at hsingle
      cases hsingle
    | single hm' hsingle' => rw [hsame hm hm']
    | iterable hiterable => exact absurd hiterable (not_isIterable_of_singleton hm)
    | untyped hcard _ => exact absurd (hone hm) hcard
  | iterable hiterable =>
    cases h' with
    | array hm' _ => exact absurd hiterable (not_isIterable_of_singleton hm')
    | single hm' _ => exact absurd hiterable (not_isIterable_of_singleton hm')
    | iterable _ => rfl
    | untyped _ hnot => exact absurd hiterable hnot
  | untyped hcard hnot =>
    cases h' with
    | array hm' _ => exact absurd (hone hm') hcard
    | single hm' _ => exact absurd (hone hm') hcard
    | iterable hiterable => exact absurd hiterable hnot
    | untyped _ _ => rfl

/-! ## The signature that is read -/

theorem contains_null : (members declared).contains "null" = true ↔
    "null" ∈ memberSet declared := by
  rw [List.contains_iff_mem, mem_members]

theorem mark_memberSet (declared : String) :
    (if (members declared).contains "null" = true then "?" else "") =
      mark (memberSet declared) := by
  unfold mark
  simp only [contains_null]

/-- Exactly one of two different members is an array. -/
theorem card_filter_pair {m n : String} (hne : m ≠ n) :
    (({m, n} : Finset String).filter fun m => isArray m = true).card = 1 ↔
      isArray m ≠ isArray n := by
  rw [Finset.filter_insert, Finset.filter_singleton]
  cases hm : isArray m with
  | false => cases hn : isArray n <;> simp
  | true => cases hn : isArray n <;> simp [hne]

theorem isIterable_memberSet {m n : String} (h : concrete declared = [m, n]) :
    IsIterable (memberSet declared) ↔
      (!(members declared).contains "null" && isArray m != isArray n) = true := by
  have hne : m ≠ n := by
    have hnodup := nodup_concrete declared
    rw [h] at hnodup
    simpa using hnodup
  have hpair : (memberSet declared).erase "null" = {m, n} := by
    rw [← toFinset_concrete, h]
    simp
  have hcard : ((memberSet declared).erase "null").card = 2 := by
    rw [card_concrete, h]
    rfl
  unfold IsIterable
  rw [hcard, hpair, card_filter_pair hne, ← contains_null]
  simp

theorem describes_ofDeclared (declared : String) :
    Describes (memberSet declared) (ofDeclared declared) := by
  have hset := toFinset_concrete declared
  have hcard := card_concrete declared
  have hfilter : (members declared).filter (· ≠ "null") = concrete declared := rfl
  unfold ofDeclared
  simp only [mark_memberSet, hfilter]
  rcases hconcrete : concrete declared with _ | ⟨m, _ | ⟨n, _ | ⟨k, ms⟩⟩⟩
  · rw [hconcrete, List.length_nil] at hcard
    refine .untyped (by omega) fun hiterable => ?_
    have htwo := hiterable.2.1
    omega
  · rw [hconcrete, List.toFinset_cons, List.toFinset_nil, insert_empty_eq] at hset
    show Describes _ (if isArray m then _ else _)
    split
    · rename_i harray
      exact .array hset.symm harray
    · rename_i hother
      exact .single hset.symm (by simpa using hother)
  · show Describes _ (if _ then _ else _)
    split
    · rename_i hiterable
      exact .iterable ((isIterable_memberSet hconcrete).2 hiterable)
    · rename_i hnot
      refine .untyped ?_ fun hiterable => hnot ((isIterable_memberSet hconcrete).1 hiterable)
      rw [hcard, hconcrete, List.length_cons, List.length_singleton]
      decide
  · rw [hconcrete] at hcard
    simp only [List.length_cons] at hcard
    refine .untyped (by omega) fun hiterable => ?_
    have htwo := hiterable.2.1
    omega

theorem ofDeclared_congr (h : memberSet declared = memberSet declared') :
    ofDeclared declared = ofDeclared declared' :=
  (describes_ofDeclared declared).unique (h ▸ describes_ofDeclared declared')

end Signature

/-! ## Accessors without their doc comments -/

/-- The lines that stand outside of doc comments, from a line on that is inside one or not. -/
def codeLines : Bool → List String → List String
  | _, [] => []
  | true, l :: ls => codeLines (l ≠ " */") ls
  | false, l :: ls => if l = "/**" then codeLines true ls else l :: codeLines false ls

variable {ls rest rest' : List String}

/-- Lines that open no comment stay. -/
theorem codeLines_append_congr (h : ∀ l ∈ ls, l ≠ "/**")
    (hrest : codeLines false rest = codeLines false rest') :
    codeLines false (ls ++ rest) = codeLines false (ls ++ rest') := by
  induction ls with
  | nil => exact hrest
  | cons l ls ih =>
    rw [List.forall_mem_cons] at h
    rw [List.cons_append, List.cons_append, codeLines, codeLines, if_neg h.1, if_neg h.1, ih h.2]

theorem codeLines_docComment (doc : List (Option String)) (rest : List String) :
    codeLines false (docComment doc ++ rest) = codeLines false rest := by
  have hinside : codeLines true (doc.map docLine ++ " */" :: rest) = codeLines false rest := by
    induction doc with
    | nil => rfl
    | cons l doc ih =>
      rw [List.map_cons, List.cons_append, codeLines, decide_eq_true (docLine_ne_closing l), ih]
  have hopens : docComment doc ++ rest = "/**" :: (doc.map docLine ++ " */" :: rest) := by
    simp [docComment]
  rw [hopens, codeLines, if_pos rfl, hinside]

namespace Property

variable {p q : Property}

theorem codeLines_typeDoc (p : Property) (line : String) (rest : List String) :
    codeLines false (p.typeDoc line ++ rest) = codeLines false rest := by
  unfold typeDoc
  split
  · exact codeLines_docComment _ rest
  · rfl

/-- The lines of the accessors of a property, without their doc comments. -/
def accessorCode (p : Property) : List String :=
  codeLines false (p.getterLines ++ p.setterLines)

/-- Apart from doc comments the accessors are a matter of the name and the signature. -/
theorem accessorCode_congr (hname : p.name = q.name) (hsignature : p.signature = q.signature) :
    p.accessorCode = q.accessorCode := by
  unfold accessorCode getterLines setterLines
  rw [hname, hsignature]
  simp only [List.append_assoc, codeLines_typeDoc]
  refine codeLines_append_congr (ne_opening_of_function ?_ ?_) ?_
  · simp [String.toList_append]
  · simp [String.toList_append, indentation]
  · rw [codeLines_typeDoc, codeLines_typeDoc]

example : accessorCode (.member "posts" "Post[]|Collection" none []) =
    ["public function getPosts(): iterable", "\x7b", "    return $this->posts;", "\x7d", "",
      "public function setPosts(iterable $posts): void", "\x7b", "    $this->posts = $posts;",
      "\x7d", ""] := by decide +kernel

end Property

namespace Signature

/-- The signature of a declared type is the one that the set of its members describes. So
declared types with the same members have one signature, and accessors of one name for them
differ in nothing but their doc comments. -/
theorem ofDeclared_of_members (declared : String) :
    (∀ sig, ofDeclared declared = sig ↔ Describes (memberSet declared) sig) ∧
    ∀ declared', memberSet declared = memberSet declared' →
      ofDeclared declared = ofDeclared declared' ∧
      ∀ p q : Property, p.name = q.name → p.typeName = declared → q.typeName = declared' →
        p.accessorCode = q.accessorCode := by
  refine ⟨fun sig => ⟨?_, ?_⟩, fun declared' hmembers => ?_⟩
  · rintro rfl
    exact describes_ofDeclared declared
  · exact (describes_ofDeclared declared).unique
  · have hsame : ofDeclared declared = ofDeclared declared' := ofDeclared_congr hmembers
    refine ⟨hsame, ?_⟩
    rintro p q hname rfl rfl
    exact Property.accessorCode_congr hname hsame

/-- A collection and an array, in another order, with white space and with a repetition. -/
theorem ofDeclared_of_collection :
    ofDeclared "Post[]|Collection" = .collapsed "iterable" ∧
    ofDeclared " Collection | Post[] || Collection" = .collapsed "iterable" ∧
    Property.accessorCode (.member "posts" "Post[]|Collection" none []) =
      Property.accessorCode (.member "posts" " Collection | Post[] || Collection" none []) := by
  have hmembers : memberSet "Post[]|Collection" =
      memberSet " Collection | Post[] || Collection" := by decide +kernel
  have hiterable : Describes (memberSet "Post[]|Collection") (.collapsed "iterable") :=
    .iterable ⟨by decide +kernel, by decide +kernel, by decide +kernel⟩
  have hread := ((ofDeclared_of_members "Post[]|Collection").1 _).2 hiterable
  obtain ⟨hsame, hcode⟩ := (ofDeclared_of_members "Post[]|Collection").2 _ hmembers
  exact ⟨hread, hsame ▸ hread, hcode _ _ rfl rfl rfl⟩

end Signature
end OrmGen.Php

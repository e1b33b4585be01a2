/-
  What a tree shows at a location: nothing, a directory, or a file with its contents
  (`Node.look?`). Putting a tree at a location and removing what stands there change what
  is shown at that location and below it, and nowhere else.
-/
import Mathlib.Data.List.Infix
import OrmGen.Disk.Node

namespace OrmGen.OrderedMap

universe u

variable {α : Type u} {k n : String} {v : α} {es : List (String × α)}

theorem lookup?_insertEntry_self : lookup? n (insertEntry n v es) = some v := by
  rw [lookup?_insertEntry, if_pos rfl]

theorem lookup?_insertEntry_of_ne (h : k ≠ n) :
    lookup? k (insertEntry n v es) = lookup? k es := by
  rw [lookup?_insertEntry, if_neg h]

theorem lookup?_filter_self : lookup? n (es.filter (·.1 ≠ n)) = none := by
  induction es with
  | nil => rfl
  | cons e es ih =>
    obtain ⟨j, w⟩ := e
    by_cases hj : j = n
    · simpa [hj] using ih
    · simpa [hj, lookup?] using ih

theorem lookup?_filter_of_ne (h : k ≠ n) : lookup? k (es.filter (·.1 ≠ n)) = lookup? k es := by
  induction es with
  | nil => rfl
  | cons e es ih =>
    obtain ⟨j, w⟩ := e
    by_cases hj : j = n
    · subst hj
      simpa [lookup?, h.symm] using ih
    · rw [List.filter_cons_of_pos (by simpa using hj), lookup?, lookup?, ih]

end OrmGen.OrderedMap

namespace OrmGen.FileTree.Node

open OrderedMap

/-- The contents of a file; a directory has none. -/
def contents? : Node → Option ByteArray
  | .file c => some c
  | .directory _ => none

/-- What a tree shows at a location: nothing, a directory without its entries (`some none`),
or a file with its contents. -/
def look? (t : Node) (l : Location) : Option (Option ByteArray) := (t.at? l).map contents?

variable {t u : Node} {l p q : Location} {n : String} {c : ByteArray}
  {es : List (String × Node)}

@[simp] theorem look?_nil : t.look? [] = some t.contents? := by
  cases t <;> rfl

theorem look?_cons_of_some (h : lookup? n es = some t) :
    (directory es).look? (n :: p) = t.look? p := by
  unfold look?
  rw [at?, h]

theorem look?_cons_of_none (h : lookup? n es = none) : (directory es).look? (n :: p) = none := by
  unfold look?
  rw [at?, h, Option.map_none]

/-- What is shown below an entry depends on that entry only. -/
theorem look?_cons_congr {es' : List (String × Node)} (h : lookup? n es = lookup? n es') :
    (directory es).look? (n :: p) = (directory es').look? (n :: p) := by
  cases hn : lookup? n es with
  | none => rw [look?_cons_of_none hn, look?_cons_of_none (h ▸ hn)]
  | some t => rw [look?_cons_of_some hn, look?_cons_of_some (h ▸ hn)]

theorem hasDirectory_iff : t.hasDirectory l = true ↔ t.look? l = some none := by
  unfold hasDirectory look?
  cases h : t.at? l with
  | none => simp
  | some u => cases u <;> simp [isDirectory, contents?]

theorem at?_eq_file_iff : t.at? l = some (.file c) ↔ t.look? l = some (some c) := by
  unfold look?
  cases h : t.at? l with
  | none => simp
  | some u => cases u <;> simp [contents?]

theorem isSome_at?_iff : (t.at? l).isSome = true ↔ (t.look? l).isSome = true := by
  unfold look?
  rw [Option.isSome_map]

/-- Where something is shown, all that lies above is a directory. -/
theorem hasDirectory_of_isSome (h : (t.look? (p ++ n :: q)).isSome = true) :
    t.hasDirectory p = true := by
  rw [hasDirectory_iff]
  induction p generalizing t with
  | nil =>
    cases t with
    | file c => cases h
    | directory es => rfl
  | cons m p ih =>
    cases t with
    | file c => cases h
    | directory es =>
      cases hm : lookup? m es with
      | none =>
        rw [List.cons_append, look?_cons_of_none hm] at h
        cases h
      | some t' =>
        rw [List.cons_append, look?_cons_of_some hm] at h
        rw [look?_cons_of_some hm]
        exact ih h

theorem hasDirectory_above (h : t.hasDirectory l = true) (hp : p <+: l) :
    t.hasDirectory p = true := by
  obtain ⟨q, rfl⟩ := hp
  cases q with
  | nil => rwa [List.append_nil] at h
  | cons n q =>
    apply hasDirectory_of_isSome (n := n) (q := q)
    rw [hasDirectory_iff.1 h, Option.isSome_some]

/-! ## Putting and removing -/

theorem setAt_cons (h : p ≠ []) : setAt u (directory es) (n :: p) =
    match lookup? n es with
    | some t => directory (insertEntry n (setAt u t p) es)
    | none => directory es := by
  cases p with
  | nil => exact absurd rfl h
  | cons m p => rfl

theorem removeAt_cons (h : p ≠ []) : removeAt (directory es) (n :: p) =
    match lookup? n es with
    | some t => directory (insertEntry n (t.removeAt p) es)
    | none => directory es := by
  cases p with
  | nil => exact absurd rfl h
  | cons m p => rfl

/-- Entries of other names are shown as before. -/
theorem look?_of_other_entries {es' : List (String × Node)}
    (hes : ∀ m, m ≠ n → lookup? m es' = lookup? m es) (h : ¬ [n] <+: q) :
    (directory es').look? q = (directory es).look? q := by
  cases q with
  | nil => rfl
  | cons m q =>
    apply look?_cons_congr
    apply hes
    rintro rfl
    exact h ⟨q, rfl⟩

/-- An entry that is replaced shows as before what its replacement shows as before. -/
theorem look?_insertEntry_elsewhere (ht : lookup? n es = some t)
    (hu : ∀ q, ¬ p <+: q → u.look? q = t.look? q) (h : ¬ n :: p <+: q) :
    (directory (insertEntry n u es)).look? q = (directory es).look? q := by
  cases q with
  | nil => rfl
  | cons m q =>
    by_cases hm : m = n
    · subst hm
      rw [look?_cons_of_some lookup?_insertEntry_self, look?_cons_of_some ht]
      exact hu q fun hpq => h (List.cons_prefix_cons.2 ⟨rfl, hpq⟩)
    · exact look?_cons_congr (lookup?_insertEntry_of_ne hm)

/-- A tree put at a location changes what is shown from there on, and nothing else. -/
theorem look?_setAt_elsewhere (h : ¬ p <+: q) : (setAt u t p).look? q = t.look? q := by
  induction p generalizing t q with
  | nil => exact absurd List.nil_prefix h
  | cons n p ih =>
    cases t with
    | file c => rfl
    | directory es =>
      by_cases hp : p = []
      · subst hp
        exact look?_of_other_entries (fun m hm => lookup?_insertEntry_of_ne hm) h
      · rw [setAt_cons hp]
        split
        · rename_i t' ht'
          exact look?_insertEntry_elsewhere ht' (fun q hq => ih hq) h
        · rfl

theorem look?_setAt_append (h : t.hasDirectory l = true) :
    (setAt u t (l ++ [n])).look? (l ++ n :: q) = u.look? q := by
  rw [hasDirectory_iff] at h
  induction l generalizing t with
  | nil =>
    cases t with
    | file c => cases h
    | directory es => exact look?_cons_of_some lookup?_insertEntry_self
  | cons m l ih =>
    cases t with
    | file c => cases h
    | directory es =>
      cases hm : lookup? m es with
      | none =>
        rw [look?_cons_of_none hm] at h
        cases h
      | some t' =>
        rw [look?_cons_of_some hm] at h
        rw [List.cons_append, List.cons_append, setAt_cons (by simp), hm]
        exact (look?_cons_of_some lookup?_insertEntry_self).trans (ih h)

theorem look?_setAt_of_hasDirectory (h : t.hasDirectory l = true) :
    (setAt u t l).look? (l ++ q) = u.look? q := by
  rcases l.eq_nil_or_concat with rfl | ⟨l, n, rfl⟩
  · rfl
  · rw [List.concat_eq_append] at h ⊢
    rw [List.append_assoc]
    exact look?_setAt_append (hasDirectory_above h (List.prefix_append l [n]))

/-- What is removed at a location changes what is shown from there on, and nothing else. -/
theorem look?_removeAt_elsewhere (h : ¬ p <+: q) : (t.removeAt p).look? q = t.look? q := by
  induction p generalizing t q with
  | nil => exact absurd List.nil_prefix h
  | cons n p ih =>
    cases t with
    | file c => rfl
    | directory es =>
      by_cases hp : p = []
      · subst hp
        exact look?_of_other_entries (fun m hm => lookup?_filter_of_ne hm) h
      · rw [removeAt_cons hp]
        split
        · rename_i t' ht'
          exact look?_insertEntry_elsewhere ht' (fun q hq => ih hq) h
        · rfl

theorem look?_removeAt_append (hp : p ≠ []) : (t.removeAt p).look? (p ++ q) = none := by
  induction p generalizing t with
  | nil => exact absurd rfl hp
  | cons n p ih =>
    cases t with
    | file c => rfl
    | directory es =>
      by_cases hp' : p = []
      · subst hp'
        exact look?_cons_of_none lookup?_filter_self
      · rw [removeAt_cons hp', List.cons_append]
        split
        · exact (look?_cons_of_some lookup?_insertEntry_self).trans (ih hp')
        · rename_i hn
          exact look?_cons_of_none hn

/-- A file or an empty directory. -/
def IsFlat (u : Node) : Prop := ∀ n p, u.look? (n :: p) = none

theorem isFlat_file : (file c).IsFlat := fun _ _ => rfl

theorem isFlat_empty : empty.IsFlat := fun _ _ => rfl

theorem look?_empty_ne : empty.look? q ≠ some (some c) := by
  cases q with
  | nil => simp [empty, contents?]
  | cons n q => simp [isFlat_empty n q]

/-- A directory that is emptied is there still, and so is everything above it. -/
theorem hasDirectory_setAt_empty (hl : t.hasDirectory l = true) (hp : p <+: l) :
    (setAt empty t l).hasDirectory p = true := by
  by_cases hlp : l <+: p
  · obtain rfl : l = p := hlp.eq_of_length_le hp.length_le
    have hself := look?_setAt_of_hasDirectory (u := empty) (q := []) hl
    rw [List.append_nil] at hself
    rw [hasDirectory_iff, hself]
    rfl
  · rw [hasDirectory_iff, look?_setAt_elsewhere hlp]
    exact hasDirectory_iff.1 (hasDirectory_above hl hp)

/-- Below what is not a directory nothing is shown. -/
theorem look?_append_of_not_directory (h : t.hasDirectory p ≠ true) :
    t.look? (p ++ n :: q) = none := by
  rw [← Option.not_isSome_iff_eq_none]
  exact fun hsome => h (hasDirectory_of_isSome hsome)

/-- A file or an empty directory that is put into a directory, but not over another one,
changes what is shown at its own place only. -/
theorem look?_put (hu : u.IsFlat) (hl : t.hasDirectory l = true)
    (hn : t.hasDirectory (l ++ [n]) ≠ true) :
    (setAt u t (l ++ [n])).look? q = if q = l ++ [n] then some u.contents? else t.look? q := by
  by_cases hq : l ++ [n] <+: q
  · obtain ⟨r, rfl⟩ := hq
    rw [List.append_assoc, List.singleton_append, look?_setAt_append hl]
    cases r with
    | nil => rw [if_pos rfl, look?_nil]
    | cons m r =>
      rw [if_neg (by simp), hu, List.append_cons, look?_append_of_not_directory hn]
  · rw [look?_setAt_elsewhere hq, if_neg]
    rintro rfl
    exact hq List.prefix_rfl

end OrmGen.FileTree.Node

/-
  Texts that are joined one after another. An absolute text replaces what stands before it,
  every other one is added to it: so a path does not depend on where it started if one of the
  texts is absolute (`joinAll_of_isAbsolute`), and it keeps the start and all the texts if
  none is (`closed_joinAll`). Two starts lead to one path exactly in the first case
  (`joinAll_eq_iff`). The directory of a namespace is made in this way
  (`Php.namespaceDirectory_eq`).
-/
import Mathlib.Data.List.Basic
import OrmGen.Php.Location

namespace OrmGen

namespace Path

/-- A path from the root of the disk. -/
def IsAbsolute (p : String) : Prop := p.toList.head? = some '/'

instance (p : String) : Decidable (IsAbsolute p) :=
  inferInstanceAs (Decidable (p.toList.head? = some '/'))

/-- A path with a slash at its end: what a relative text that is joined to it is added to. -/
def closed (p : String) : List Char :=
  if p = "" || p.toList.getLast? = some '/' then p.toList else p.toList ++ ['/']

variable {base base' p : String} {pieces : List (List Char)}

/-! ## One text -/

theorem join_of_isAbsolute (h : IsAbsolute p) (base : String) : join base p = p := if_pos h

theorem toList_join (h : ¬ IsAbsolute p) (base : String) :
    (join base p).toList = closed base ++ p.toList := by
  have hhead : p.toList.head? ≠ some '/' := h
  unfold join closed
  rw [if_neg hhead]
  split
  · exact String.toList_append
  · rw [String.toList_append, String.toList_append]
    rfl

theorem join_ne_empty (hbase : base ≠ "") : join base p ≠ "" := by
  unfold join
  split
  · rename_i hp
    rintro rfl
    simp at hp
  · split <;> simp [hbase]

theorem ne_empty_of_isAbsolute (h : IsAbsolute p) : p ≠ "" := by
  rintro rfl
  cases h

/-- The slash at the end of a path is that of the text joined last. -/
theorem closed_join (h : ¬ IsAbsolute p) (hp : p ≠ "") (base : String) :
    closed (join base p) = closed base ++ closed p := by
  have hlist : p.toList ≠ [] := fun e => hp (String.toList_eq_nil_iff.1 e)
  have hjoin : join base p ≠ "" := by
    intro e
    have hnil : closed base ++ p.toList = [] := by
      rw [← toList_join h, e]
      rfl
    exact hlist (List.append_eq_nil_iff.1 hnil).2
  have hlast : (join base p).toList.getLast? = p.toList.getLast? := by
    rw [toList_join h, List.getLast?_append_of_ne_nil _ hlist]
  unfold closed
  rw [hlast, toList_join h]
  by_cases hslash : p.toList.getLast? = some '/'
  · simp [hslash, closed]
  · simp [hslash, hp, hjoin, closed]

theorem closed_ne_nil (hp : p ≠ "") : closed p ≠ [] := by
  have hlist : p.toList ≠ [] := fun e => hp (String.toList_eq_nil_iff.1 e)
  unfold closed
  split <;> simp [hlist]

theorem head?_closed_iff (hp : p ≠ "") : (closed p).head? = some '/' ↔ IsAbsolute p := by
  have hlist : p.toList ≠ [] := fun e => hp (String.toList_eq_nil_iff.1 e)
  unfold closed IsAbsolute
  split
  · rfl
  · rw [List.head?_append_of_ne_nil _ hlist]

/-- A joined path is absolute if the text is, or else what it is added to. -/
theorem isAbsolute_join_iff (hbase : base ≠ "") :
    IsAbsolute (join base p) ↔ IsAbsolute base ∨ IsAbsolute p := by
  by_cases hp : IsAbsolute p
  · simp [join_of_isAbsolute hp, hp]
  · rw [or_iff_left hp, ← head?_closed_iff hbase, IsAbsolute, toList_join hp,
      List.head?_append_of_ne_nil _ (closed_ne_nil hbase)]

/-! ## Many texts -/

/-- Texts joined one after another, from `base` on. -/
def joinAll (base : String) (pieces : List (List Char)) : String :=
  pieces.foldl (fun path s => join path (String.ofList s)) base

@[simp] theorem joinAll_nil (base : String) : joinAll base [] = base := rfl

@[simp] theorem joinAll_cons (base : String) (s : List Char) (pieces : List (List Char)) :
    joinAll base (s :: pieces) = joinAll (join base (String.ofList s)) pieces := rfl

theorem joinAll_append (base : String) (front pieces : List (List Char)) :
    joinAll base (front ++ pieces) = joinAll (joinAll base front) pieces := List.foldl_append

theorem joinAll_ne_empty (hbase : base ≠ "") : joinAll base pieces ≠ "" := by
  induction pieces generalizing base with
  | nil => exact hbase
  | cons s pieces ih => exact ih (join_ne_empty hbase)

theorem isAbsolute_joinAll_iff (hbase : base ≠ "") :
    IsAbsolute (joinAll base pieces) ↔
      IsAbsolute base ∨ ∃ s ∈ pieces, IsAbsolute (String.ofList s) := by
  induction pieces generalizing base with
  | nil => simp
  | cons s pieces ih =>
    rw [joinAll_cons, ih (join_ne_empty hbase), isAbsolute_join_iff hbase, or_assoc,
      List.exists_mem_cons_iff]

/-- An absolute text makes what stands before it irrelevant. -/
theorem joinAll_of_isAbsolute (h : ∃ s ∈ pieces, IsAbsolute (String.ofList s))
    (base base' : String) : joinAll base' pieces = joinAll base pieces := by
  induction pieces generalizing base base' with
  | nil => simp at h
  | cons s pieces ih =>
    rw [joinAll_cons, joinAll_cons]
    by_cases hs : IsAbsolute (String.ofList s)
    · rw [join_of_isAbsolute hs, join_of_isAbsolute hs]
    · exact ih ((List.exists_mem_cons_iff ..).1 h |>.resolve_left hs) _ _

theorem ofList_ne_empty {s : List Char} (h : s ≠ []) : String.ofList s ≠ "" := by
  rw [← String.ofList_nil]
  exact fun e => h (String.ofList_inj.1 e)

/-- Without an absolute text a path has all the texts in a row, each with a slash at its end. -/
theorem closed_joinAll (hrelative : ∀ s ∈ pieces, ¬ IsAbsolute (String.ofList s))
    (hne : ∀ s ∈ pieces, s ≠ []) (base : String) : closed (joinAll base pieces) =
      closed base ++ pieces.flatMap fun s => closed (String.ofList s) := by
  induction pieces generalizing base with
  | nil => simp
  | cons s pieces ih =>
    rw [List.forall_mem_cons] at hrelative hne
    have hs := ofList_ne_empty hne.1
    rw [joinAll_cons, ih hrelative.2 hne.2, closed_join hrelative.1 hs, List.flatMap_cons,
      List.append_assoc]

/-- Two starts of a path are told apart unless one of the texts is absolute. -/
theorem joinAll_eq_iff (hne : ∀ s ∈ pieces, s ≠ []) (hbase : closed base' ≠ closed base) :
    joinAll base' pieces = joinAll base pieces ↔
      ∃ s ∈ pieces, IsAbsolute (String.ofList s) := by
  constructor
  · intro heq
    by_contra hnone
    have hrelative : ∀ s ∈ pieces, ¬ IsAbsolute (String.ofList s) :=
      fun s hs habsolute => hnone ⟨s, hs, habsolute⟩
    have hclosed := congrArg closed heq
    rw [closed_joinAll hrelative hne, closed_joinAll hrelative hne] at hclosed
    exact hbase (List.append_cancel_right hclosed)
  · exact fun h => joinAll_of_isAbsolute h base base'

/-- From a relative path that is not empty, texts lead to another path. -/
theorem closed_joinAll_ne (hbase : base ≠ "") (hrel : ¬ IsAbsolute base) (hpieces : pieces ≠ [])
    (hne : ∀ s ∈ pieces, s ≠ []) : closed (joinAll base pieces) ≠ closed base := by
  intro heq
  by_cases habsolute : ∃ s ∈ pieces, IsAbsolute (String.ofList s)
  · have hpath : IsAbsolute (joinAll base pieces) :=
      (isAbsolute_joinAll_iff hbase).2 (.inr habsolute)
    have hhead := (head?_closed_iff (ne_empty_of_isAbsolute hpath)).2 hpath
    rw [heq] at hhead
    exact hrel ((head?_closed_iff hbase).1 hhead)
  · rw [closed_joinAll (fun s hs h => habsolute ⟨s, hs, h⟩) hne, List.append_right_eq_self,
      List.flatMap_eq_nil_iff] at heq
    obtain ⟨s, hs⟩ := List.exists_mem_of_ne_nil _ hpieces
    exact closed_ne_nil (ofList_ne_empty (hne s hs)) (heq s hs)

end Path

namespace Php

/-! ## Directories of namespaces -/

/-- The segments of a namespace that become directories. -/
def directories (cs : List Char) : List (List Char) := (cs.splitOn '\\').filter (· ≠ [])

theorem mem_directories_iff {cs s : List Char} :
    s ∈ directories cs ↔ s ∈ cs.splitOn '\\' ∧ s ≠ [] := by
  simp [directories]

theorem namespaceDirectory_eq (app ns : String) : namespaceDirectory app ns =
    Path.joinAll "src" (directories (relativeNamespace app ns)) := rfl

theorem namespaceDirectory_ne_empty {app ns : String} : namespaceDirectory app ns ≠ "" :=
  Path.joinAll_ne_empty (by decide)

end Php
end OrmGen

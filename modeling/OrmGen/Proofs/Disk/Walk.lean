/-
  Where segments lead. They name a location whatever a tree holds (`follow`); a tree decides
  only whether they can be followed, which is the case when every location on the way is a
  directory (`walk?_eq_some`). Directories that are made along segments are those on the way,
  and no file is touched (`Adds`, `adds_of_makeAlong`).
-/
import OrmGen.Proofs.Disk.Tree

namespace OrmGen.FileTree

/-- The locations at which segments start, each of which has to be a directory. -/
def passed : Location → List String → List Location
  | _, [] => []
  | l, s :: ss => l :: passed (step l s) ss

/-- The locations on the way along segments, both ends included. -/
def visited (l : Location) (ss : List String) : List Location := passed l ss ++ [follow l ss]

variable {l d : Location} {s : String} {ss ss' : List String}

theorem isNameless_iff : isNameless s = true ↔ isIdle s = true ∨ s = ".." := by
  unfold isNameless
  rw [Bool.or_eq_true, decide_eq_true_eq]

theorem step_of_isIdle (h : isIdle s = true) : step l s = l := if_pos h

theorem step_name (h : isNameless s ≠ true) : step l s = l ++ [s] := by
  rw [Ne, isNameless_iff, not_or] at h
  rw [step, if_neg h.1, if_neg h.2]

theorem follow_append (l : Location) (ss ss' : List String) :
    follow l (ss ++ ss') = follow (follow l ss) ss' := List.foldl_append

theorem follow_concat (l : Location) (ss : List String) (h : isNameless s ≠ true) :
    follow l (ss ++ [s]) = follow l ss ++ [s] := by
  rw [follow_append, ← step_name h]
  rfl

theorem passed_append (l : Location) (ss ss' : List String) :
    passed l (ss ++ ss') = passed l ss ++ passed (follow l ss) ss' := by
  induction ss generalizing l with
  | nil => rfl
  | cons s ss ih =>
    rw [List.cons_append, passed, passed, ih]
    rfl

theorem visited_cons (l : Location) (s : String) (ss : List String) :
    visited l (s :: ss) = l :: visited (step l s) ss := rfl

theorem start_mem_visited (l : Location) (ss : List String) : l ∈ visited l ss := by
  cases ss with
  | nil => exact List.mem_singleton_self l
  | cons s ss => exact List.mem_cons_self

theorem passed_concat (l : Location) (ss : List String) (s : String) :
    passed l (ss ++ [s]) = visited l ss := passed_append l ss [s]

theorem visited_subset (h : ss <+: ss') : visited l ss ⊆ visited l ss' := by
  obtain ⟨rest, rfl⟩ := h
  unfold visited
  rw [passed_append, follow_append, List.append_assoc]
  intro d hd
  rcases List.mem_append.1 hd with hd | hd
  · exact List.mem_append_left _ hd
  · rw [List.mem_singleton.1 hd]
    exact List.mem_append_right _ (start_mem_visited _ rest)

/-! ## Idle segments and those that lead upward -/

theorem follow_of_idle (h : ∀ s ∈ ss, isIdle s = true) : follow l ss = l := by
  induction ss with
  | nil => rfl
  | cons s ss ih =>
    rw [List.forall_mem_cons] at h
    show follow (step l s) ss = l
    rw [step_of_isIdle h.1, ih h.2]

theorem visited_of_idle (h : ∀ s ∈ ss, isIdle s = true) (hd : d ∈ visited l ss) : d = l := by
  induction ss with
  | nil => exact List.mem_singleton.1 hd
  | cons s ss ih =>
    rw [List.forall_mem_cons] at h
    rw [visited_cons, step_of_isIdle h.1] at hd
    rcases List.mem_cons.1 hd with rfl | hd
    · rfl
    · exact ih h.2 hd

/-- Idle segments at the end visit nothing new. -/
theorem mem_visited_of_idle (h : ∀ s ∈ ss', isIdle s = true) (hd : d ∈ visited l (ss ++ ss')) :
    d ∈ visited l ss := by
  have hparts : visited l (ss ++ ss') = passed l ss ++ visited (follow l ss) ss' := by
    unfold visited
    rw [passed_append, follow_append, List.append_assoc]
  rw [hparts] at hd
  rcases List.mem_append.1 hd with hd | hd
  · exact List.mem_append_left _ hd
  · rw [visited_of_idle h hd]
    exact List.mem_append_right _ (List.mem_singleton_self _)

/-- Without segments that lead upward, the way to a location only passes what lies above it. -/
theorem prefix_of_mem_visited (hup : ".." ∉ ss) (hd : d ∈ visited l ss) :
    d <+: follow l ss := by
  induction ss generalizing l d with
  | nil =>
    obtain rfl := List.mem_singleton.1 hd
    exact List.prefix_rfl
  | cons s ss ih =>
    rw [List.mem_cons, not_or] at hup
    rw [visited_cons] at hd
    rcases List.mem_cons.1 hd with rfl | hd
    · have hstep : d <+: step d s := by
        unfold step
        rw [if_neg (Ne.symm hup.1)]
        split
        · exact List.prefix_rfl
        · exact List.prefix_append ..
      exact hstep.trans (ih hup.2 (start_mem_visited (step d s) ss))
    · exact ih hup.2 hd

theorem prefix_follow (hup : ".." ∉ ss) : l <+: follow l ss :=
  prefix_of_mem_visited hup (start_mem_visited l ss)

/-- On the way down, no name is lost. -/
theorem mem_follow (hup : ".." ∉ ss) (hs : s ∈ ss) (hname : isNameless s ≠ true) :
    s ∈ follow l ss := by
  induction ss generalizing l with
  | nil => cases hs
  | cons s' ss ih =>
    rw [List.mem_cons, not_or] at hup
    rcases List.mem_cons.1 hs with rfl | hs
    · have hfollow : follow l (s :: ss) = follow (l ++ [s]) ss := by
        show follow (step l s) ss = _
        rw [step_name hname]
      rw [hfollow]
      exact (prefix_follow hup.2).subset (by simp)
    · exact ih hup.2 hs

namespace Node

variable {t t' : Node} {l' q : Location} {c : ByteArray}

/-! ## Walking -/

theorem isSome_of_hasDirectory (h : t.hasDirectory l = true) : (t.look? l).isSome = true := by
  rw [hasDirectory_iff.1 h, Option.isSome_some]

theorem isSome_above (hl : (t.look? l).isSome = true) (hd : d <+: l) :
    (t.look? d).isSome = true := by
  obtain ⟨q, rfl⟩ := hd
  cases q with
  | nil => rwa [List.append_nil] at hl
  | cons n q => exact isSome_of_hasDirectory (hasDirectory_of_isSome hl)

/-- A walk ends where its segments lead, and succeeds if there are directories on the way
and something at the end. -/
theorem walk?_eq_some : t.walk? l ss = some l' ↔
    follow l ss = l' ∧ (∀ d ∈ passed l ss, t.hasDirectory d = true) ∧
      (t.look? l').isSome = true := by
  induction ss generalizing l with
  | nil =>
    rw [walk?]
    by_cases hl : (t.at? l).isSome = true
    · rw [if_pos hl, Option.some.injEq]
      constructor
      · rintro rfl
        exact ⟨rfl, by simp [passed], isSome_at?_iff.1 hl⟩
      · exact fun h => h.1
    · rw [if_neg hl]
      simp only [reduceCtorEq, false_iff]
      rintro ⟨rfl, _, hend⟩
      exact hl (isSome_at?_iff.2 hend)
  | cons s ss ih =>
    have hfollow : follow l (s :: ss) = follow (step l s) ss := rfl
    rw [walk?, passed, List.forall_mem_cons, hfollow]
    by_cases hd : t.hasDirectory l = true
    · rw [if_pos hd, ih]
      simp [hd]
    · rw [if_neg hd]
      simp [hd]

/-! ## Making directories -/

/-- `t'` is `t` with directories added. -/
structure Adds (t t' : Node) (ds : List Location) : Prop where
  file : ∀ q c, t'.look? q = some (some c) ↔ t.look? q = some (some c)
  directory : ∀ q, t'.hasDirectory q = true ↔ t.hasDirectory q = true ∨ q ∈ ds

theorem Adds.refl (t : Node) : Adds t t [] := ⟨fun _ _ => Iff.rfl, by simp⟩

/-- Directories that are there already may be counted among those added. -/
theorem Adds.cons {ds : List Location} (h : Adds t t' ds) (hl : t.hasDirectory l = true) :
    Adds t t' (l :: ds) := by
  refine ⟨h.file, ?_⟩
  intro q
  rw [h.directory, List.mem_cons]
  constructor
  · rintro (hq | hq)
    · exact .inl hq
    · exact .inr (.inr hq)
  · rintro (hq | rfl | hq)
    · exact .inl hq
    · exact .inl hl
    · exact .inr hq

/-- One of the directories may be added first. -/
theorem Adds.of_first {t₁ : Node} {ds : List Location} (h₁ : Adds t t₁ [d])
    (h : Adds t₁ t' ds) (hd : d ∈ ds) : Adds t t' ds := by
  refine ⟨fun q c => (h.file q c).trans (h₁.file q c), ?_⟩
  intro q
  rw [h.directory, h₁.directory, List.mem_singleton]
  constructor
  · rintro ((hq | rfl) | hq)
    · exact .inl hq
    · exact .inr hd
    · exact .inr hq
  · rintro (hq | hq)
    · exact .inl (.inl hq)
    · exact .inr hq

theorem adds_setAt_empty (hl : t.hasDirectory l = true) (hs : t.look? (l ++ [s]) = none) :
    Adds t (setAt empty t (l ++ [s])) [l ++ [s]] := by
  have hnot : t.hasDirectory (l ++ [s]) ≠ true := by
    rw [Ne, hasDirectory_iff, hs]
    simp
  constructor
  · intro q c
    rw [look?_put isFlat_empty hl hnot]
    by_cases hq : q = l ++ [s]
    · rw [if_pos hq, hq, hs]
      simp [contents?, empty]
    · rw [if_neg hq]
  · intro q
    rw [hasDirectory_iff, look?_put isFlat_empty hl hnot, hasDirectory_iff, List.mem_singleton]
    by_cases hq : q = l ++ [s]
    · rw [if_pos hq]
      simp [hq, contents?, empty]
    · simp [hq]

/-- Directories that are made along segments are those on the way. -/
theorem adds_of_makeAlong (h : t.makeAlong l ss = (t', true)) : Adds t t' (visited l ss) := by
  induction ss generalizing t l with
  | nil =>
    rw [makeAlong, Prod.mk.injEq] at h
    obtain ⟨rfl, hl⟩ := h
    exact (Adds.refl t).cons hl
  | cons s ss ih =>
    rw [makeAlong] at h
    by_cases hd : t.hasDirectory l = true
    swap
    · rw [if_neg hd] at h
      cases h
    rw [if_pos hd] at h
    rw [visited_cons]
    apply Adds.cons _ hd
    by_cases hthere : (isNameless s || (t.at? (l ++ [s])).isSome) = true
    · rw [if_pos hthere] at h
      exact ih h
    rw [if_neg hthere] at h
    rw [Bool.or_eq_true, not_or, isSome_at?_iff, Bool.not_eq_true, Bool.not_eq_true,
      Option.isSome_eq_false_iff, Option.isNone_iff_eq_none] at hthere
    obtain ⟨hname, hnone⟩ := hthere
    rw [step_name (by rw [hname]; exact Bool.false_ne_true)]
    split at h
    · exact (adds_setAt_empty hd hnone).of_first (ih h) (start_mem_visited _ ss)
    · cases h

end Node
end OrmGen.FileTree

/-
  Tables of imports as the outcome of the calls made on them. One call does one of three
  things (`apply_cases`): it binds a name that is free, it finds its import bound, or it is
  refused, and only the first of them changes the table. By induction on the calls a table
  that began empty `Remembers` the imports it was asked for: its names are those asked for, in
  the order of their first calls, and the first call for a name is the one that binds it
  (`remembers_after`).

  Main results:
  * `accepted_iff_consistent`: all calls are accepted exactly if no name is asked for with two
    paths, in whatever order they come.
  * `history`: what holds of a table after any calls, and of the calls that are accepted.
-/
import OrmGen.Proofs.Insertion
import OrmGen.Proofs.Php.ImportTable

namespace OrmGen.Php.ImportTable

variable {t : ImportTable} {c : Call} {calls calls' : List Call} {asked : List Import}
  {i : Import} {n : String}

/-! ## One call -/

/-- The import that a call asks for. -/
def Call.wanted : Call → Import
  | .register i => i
  | .add statement => Import.parse statement

theorem change_eq_register (t : ImportTable) (c : Call) : t.change c = t.register c.wanted := by
  cases c <;> rfl

/-- A call binds a free name, finds its import bound, or is refused. -/
theorem apply_cases (t : ImportTable) (c : Call) :
    (t.get? c.wanted.name = none ∧ (t.apply c).1 = .ok () ∧ (t.apply c).2 = t.bind c.wanted) ∨
    (t.get? c.wanted.name = some c.wanted ∧ t.apply c = (.ok (), t)) ∨
    (∃ bound, t.get? c.wanted.name = some bound ∧ bound.path ≠ c.wanted.path ∧
      t.apply c = (.error (.importConflict c.wanted.name bound.path c.wanted.path), t)) := by
  unfold apply
  rw [change_eq_register]
  cases hregister : t.register c.wanted with
  | ok t' =>
    rcases register_eq_ok.1 hregister with ⟨hfree, rfl⟩ | ⟨hbound, rfl⟩
    · exact .inl ⟨hfree, rfl, rfl⟩
    · exact .inr (.inl ⟨hbound, rfl⟩)
  | error err =>
    obtain ⟨bound, hmem, hname, hpath, rfl⟩ := register_eq_error hregister
    exact .inr (.inr ⟨bound, get?_eq_some_iff.2 ⟨hmem, hname⟩, hpath, rfl⟩)

/-- A call is accepted exactly if its name is free or stands for the path it asks for. -/
theorem apply_fst_eq_ok : (t.apply c).1 = .ok () ↔
    ∀ bound, t.get? c.wanted.name = some bound → bound.path = c.wanted.path := by
  rcases apply_cases t c with ⟨hfree, hok, -⟩ | ⟨hbound, happly⟩ |
    ⟨bound, hbound, hpath, happly⟩
  · simp [hfree, hok]
  · simp [hbound, happly]
  · simp [hbound, happly, hpath]

/-- Only a call for a free name changes the table. -/
theorem apply_snd_of_bound (h : t.get? c.wanted.name ≠ none) : (t.apply c).2 = t := by
  rcases apply_cases t c with ⟨hfree, -, -⟩ | ⟨-, happly⟩ | ⟨_, -, -, happly⟩
  · exact absurd hfree h
  · rw [happly]
  · rw [happly]

theorem apply_snd_of_refused (h : (t.apply c).1 ≠ .ok ()) : (t.apply c).2 = t := by
  refine apply_snd_of_bound fun hfree => h ?_
  rw [apply_fst_eq_ok]
  intro bound hbound
  rw [hfree] at hbound
  cases hbound

theorem extends_apply (t : ImportTable) (c : Call) : t.Extends (t.apply c).2 := by
  rcases apply_cases t c with ⟨hfree, -, hbind⟩ | ⟨-, happly⟩ | ⟨_, -, -, happly⟩
  · rw [hbind]
    exact extends_bind hfree
  · rw [happly]
    exact Extends.refl t
  · rw [happly]
    exact Extends.refl t

/-! ## Calls one after another -/

theorem applyAll_append (t : ImportTable) (calls calls' : List Call) :
    t.applyAll (calls ++ calls') =
      ((t.applyAll calls).1 ++ ((t.applyAll calls).2.applyAll calls').1,
        ((t.applyAll calls).2.applyAll calls').2) := by
  induction calls generalizing t with
  | nil => rfl
  | cons c calls ih =>
    rw [List.cons_append]
    simp only [applyAll, ih, List.cons_append]

theorem extends_applyAll (t : ImportTable) (calls : List Call) :
    t.Extends (t.applyAll calls).2 := by
  induction calls generalizing t with
  | nil => exact Extends.refl t
  | cons c calls ih =>
    have hfirst : t.Extends (t.apply c).2 := extends_apply t c
    exact hfirst.trans (ih (t.apply c).2)

/-- The table after calls on a new one. -/
def after (calls : List Call) : ImportTable := (empty.applyAll calls).2

/-- No call on a new table is refused. -/
def Accepted (calls : List Call) : Prop :=
  ∀ answer ∈ (empty.applyAll calls).1, answer = .ok ()

theorem after_concat (calls : List Call) (c : Call) :
    after (calls ++ [c]) = ((after calls).apply c).2 := by
  unfold after
  rw [applyAll_append]
  rfl

theorem accepted_concat :
    Accepted (calls ++ [c]) ↔ Accepted calls ∧ ((after calls).apply c).1 = .ok () := by
  unfold Accepted
  rw [applyAll_append]
  simp only [List.mem_append, or_imp, forall_and]
  refine and_congr_right fun _ => ?_
  exact List.forall_mem_singleton

theorem extends_after (calls calls' : List Call) :
    (after calls).Extends (after (calls ++ calls')) := by
  unfold after
  rw [applyAll_append]
  exact extends_applyAll _ calls'

/-! ## What a table remembers of the imports it was asked for -/

/-- The table binds each name that was asked for to the import that asked for it first, and
has the names in the order of those. -/
structure Remembers (asked : List Import) (t : ImportTable) : Prop where
  names : t.imports.map Import.name = (asked.map Import.name).eraseDups
  bindings : ∀ n, t.get? n = asked.find? fun i => i.name = n

theorem Remembers.mem_names (h : Remembers asked t) :
    n ∈ asked.map Import.name ↔ t.get? n ≠ none := by
  rw [h.bindings n, ne_eq, List.find?_eq_none]
  simp

theorem Remembers.apply (h : Remembers asked t) (c : Call) :
    Remembers (asked ++ [c.wanted]) (t.apply c).2 := by
  by_cases hfree : t.get? c.wanted.name = none
  · have hbind : (t.apply c).2 = t.bind c.wanted := by
      rcases apply_cases t c with ⟨-, -, hbind⟩ | ⟨hbound, -⟩ | ⟨bound, hbound, -⟩
      · exact hbind
      · rw [hfree] at hbound
        cases hbound
      · rw [hfree] at hbound
        cases hbound
    rw [hbind]
    refine ⟨?_, fun n => ?_⟩
    · have hnew : c.wanted.name ∉ asked.map Import.name := fun hmem =>
        h.mem_names.1 hmem hfree
      rw [imports_bind hfree, List.map_append, List.map_append, h.names]
      exact ((eraseDups_concat _ _).trans (if_neg hnew)).symm
    · rw [get?_bind, List.find?_append, ← h.bindings n]
      by_cases hn : n = c.wanted.name
      · subst hn
        simp [hfree]
      · simp [hn, Ne.symm hn]
  · -- the table stays, and the call asks for a name that was asked for before
    rw [apply_snd_of_bound hfree]
    have hmem : c.wanted.name ∈ asked.map Import.name := h.mem_names.2 hfree
    refine ⟨?_, fun n => ?_⟩
    · rw [h.names, List.map_append]
      exact ((eraseDups_concat _ _).trans (if_pos hmem)).symm
    · rw [h.bindings n, List.find?_append]
      cases hfind : asked.find? fun i => decide (i.name = n) with
      | some i => rfl
      | none =>
        have hne : c.wanted.name ≠ n := by
          rintro rfl
          exact hfree ((h.bindings _).trans hfind)
        simp [hne]

theorem remembers_after (calls : List Call) :
    Remembers (calls.map Call.wanted) (after calls) := by
  induction calls using List.reverseRecOn with
  | nil => exact ⟨rfl, fun _ => rfl⟩
  | append_singleton calls c ih =>
    rw [after_concat, List.map_append]
    exact ih.apply c

/-! ## Calls that are all accepted -/

theorem consistent_concat : Consistent (asked ++ [i]) ↔
    Consistent asked ∧ ∀ j ∈ asked, j.name = i.name → j.path = i.path := by
  constructor
  · intro h
    refine ⟨fun a ha b hb => ?_, fun j hj => ?_⟩
    · exact h a (List.mem_append_left _ ha) b (List.mem_append_left _ hb)
    · exact h j (List.mem_append_left _ hj) i (List.mem_append_right _ (List.mem_singleton_self i))
  · rintro ⟨hasked, hi⟩ a ha b hb hname
    rw [List.mem_append, List.mem_singleton] at ha hb
    rcases ha with ha | rfl
    · rcases hb with hb | rfl
      · exact hasked a ha b hb hname
      · exact hi a ha hname
    · rcases hb with hb | rfl
      · exact (hi b hb hname.symm).symm
      · rfl

theorem accepted_iff_consistent (calls : List Call) :
    Accepted calls ↔ Consistent (calls.map Call.wanted) := by
  induction calls using List.reverseRecOn with
  | nil =>
    exact ⟨fun _ _ hi => absurd hi List.not_mem_nil, fun _ _ ha => absurd ha List.not_mem_nil⟩
  | append_singleton calls c ih =>
    rw [accepted_concat, ih, List.map_append, List.map_singleton, consistent_concat,
      apply_fst_eq_ok]
    refine and_congr_right fun hconsistent => ?_
    have hget : ∀ j, (after calls).get? c.wanted.name = some j ↔
        j ∈ calls.map Call.wanted ∧ j.name = c.wanted.name := by
      intro j
      rw [(remembers_after calls).bindings]
      exact find?_eq_some_of_consistent hconsistent
    simp only [hget, and_imp]

theorem get?_after_of_consistent (h : Consistent (calls.map Call.wanted)) :
    (after calls).get? n = some i ↔ i ∈ calls.map Call.wanted ∧ i.name = n := by
  rw [(remembers_after calls).bindings]
  exact find?_eq_some_of_consistent h

theorem consistent_perm (h : calls.Perm calls') :
    Consistent (calls.map Call.wanted) ↔ Consistent (calls'.map Call.wanted) := by
  unfold Consistent
  simp only [(h.map Call.wanted).mem_iff]

theorem accepted_perm (h : calls.Perm calls') : Accepted calls ↔ Accepted calls' := by
  rw [accepted_iff_consistent, accepted_iff_consistent, consistent_perm h]

/-- Calls that are all accepted leave the same bindings in whatever order they are made. -/
theorem get?_after_perm (h : calls.Perm calls') (haccepted : Accepted calls) (n : String) :
    (after calls).get? n = (after calls').get? n := by
  have hconsistent := (accepted_iff_consistent calls).1 haccepted
  ext i
  rw [get?_after_of_consistent hconsistent,
    get?_after_of_consistent ((consistent_perm h).1 hconsistent), (h.map Call.wanted).mem_iff]

/-- A table that began empty, after any calls: it remembers what it was asked for, has each import
under the import's own name, and no later call changes what a name of it stands for. It accepts a call exactly if the name is free or
stands for the same path, and stays as it is if it refuses a call or knows the name.
The calls were all accepted exactly if no name was asked for with two paths, and then neither
that nor the bindings depend on their order. -/
theorem history (calls : List Call) :
    Remembers (calls.map Call.wanted) (after calls) ∧
    (after calls).bindings.entries = (after calls).imports.map (fun i => (i.name, i)) ∧
    (∀ n i, (after calls).get? n = some i ↔ i ∈ (after calls).imports ∧ i.name = n) ∧
    (∀ c, ((after calls).apply c).1 = .ok () ↔
      ∀ bound, (after calls).get? c.wanted.name = some bound → bound.path = c.wanted.path) ∧
    (∀ c, ((after calls).apply c).1 ≠ .ok () ∨ (after calls).get? c.wanted.name ≠ none →
      ((after calls).apply c).2 = after calls) ∧
    (∀ calls', (after calls).Extends (after (calls ++ calls'))) ∧
    (Accepted calls ↔ Consistent (calls.map Call.wanted)) ∧
    ∀ calls', calls.Perm calls' → (Accepted calls ↔ Accepted calls') ∧
      (Accepted calls → ∀ n, (after calls).get? n = (after calls').get? n) := by
  refine ⟨remembers_after calls, entries_bindings _, fun n i => get?_eq_some_iff, fun c => apply_fst_eq_ok, ?_,
    extends_after calls, accepted_iff_consistent calls, ?_⟩
  · rintro c (hrefused | hbound)
    · exact apply_snd_of_refused hrefused
    · exact apply_snd_of_bound hbound
  · intro calls' hperm
    exact ⟨accepted_perm hperm, get?_after_perm hperm⟩

/-- Two calls for one symbol and one for another symbol of its name. -/
theorem history_of_conflict :
    (empty.applyAll [.add "NamespaceA\\X", .register ⟨"NamespaceA\\X", "X"⟩,
      .add "NamespaceB\\X"]).1 =
        [.ok (), .ok (), .error (.importConflict "X" "NamespaceA\\X" "NamespaceB\\X")] ∧
    (after [.add "NamespaceA\\X", .register ⟨"NamespaceA\\X", "X"⟩,
      .add "NamespaceB\\X"]).bindings.entries = [("X", ⟨"NamespaceA\\X", "X"⟩)] ∧
    ¬ Accepted [.add "NamespaceA\\X", .register ⟨"NamespaceA\\X", "X"⟩,
      .add "NamespaceB\\X"] ∧
    Accepted [.register ⟨"NamespaceA\\X", "X"⟩, .add "NamespaceA\\X"] := by
  refine ⟨by decide +kernel, by decide +kernel, fun h => ?_, ?_⟩
  · obtain ⟨-, -, -, -, -, -, hiff, -⟩ := history
      [.add "NamespaceA\\X", .register ⟨"NamespaceA\\X", "X"⟩, .add "NamespaceB\\X"]
    exact absurd (hiff.1 h) (by decide +kernel)
  · obtain ⟨-, -, -, -, -, -, hiff, -⟩ := history
      [.register ⟨"NamespaceA\\X", "X"⟩, .add "NamespaceA\\X"]
    exact hiff.2 (by decide +kernel)

end OrmGen.Php.ImportTable

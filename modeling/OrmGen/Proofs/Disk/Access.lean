/-
  What the operations on paths do to a file tree. A path is found if its names start in a
  directory that was not removed and every location on the way is a directory
  (`locate?_eq_some`). Writing a file and making directories are described by what is shown
  afterwards (`write_eq_ok`, `makeDirectories_eq_ok`), and leave the working directory where it
  is (`Stays`); removing a directory leaves no file below it (`removeDirectory_eq_ok`) and may
  take the working directory along (`Recedes`).
-/
import OrmGen.Proofs.Disk.Segments

namespace OrmGen.FileTree

variable {t t' : FileTree} {l d : Location} {ss : List String} {path : String} {c : ByteArray}
  {a : Location × List String}

/-! ## Finding -/

/-- The names of a path start in a directory that was not removed. -/
def Starts (t : FileTree) (path : String) : Prop :=
  ∃ a, approach? t.workingDirectory path = some a ∧ a.1 <+: t.intact

theorem Starts.exists_destination (h : t.Starts path) :
    ∃ l, destination? t.workingDirectory path = some l := by
  obtain ⟨a, ha, _⟩ := h
  exact ⟨_, Option.map_eq_some_iff.2 ⟨a, ha, rfl⟩⟩

theorem start?_eq_some : t.start? path = some a ↔
    approach? t.workingDirectory path = some a ∧ a.1 <+: t.intact := by
  unfold start?
  rw [Option.filter_eq_some_iff, List.isPrefixOf_iff_prefix]

theorem locate?_eq_some : t.locate? path = some l ↔
    t.Starts path ∧ destination? t.workingDirectory path = some l ∧
      (∀ d ∈ passedBy t.workingDirectory path, t.root.hasDirectory d = true) ∧
      (t.root.look? l).isSome = true := by
  unfold locate? destination? passedBy
  rw [Option.bind_eq_some_iff]
  constructor
  · rintro ⟨a, ha, hwalk⟩
    have happroach := start?_eq_some.1 ha
    rw [happroach.1, Option.map_some, Option.map_some, Option.some.injEq, Option.getD_some]
    exact ⟨⟨a, happroach⟩, Node.walk?_eq_some.1 hwalk⟩
  · rintro ⟨⟨a, ha⟩, hend⟩
    rw [ha.1, Option.map_some, Option.map_some, Option.some.injEq, Option.getD_some] at hend
    exact ⟨a, start?_eq_some.2 ha, Node.walk?_eq_some.2 hend⟩

theorem read?_eq_some : t.read? path = some c ↔
    ∃ l, t.locate? path = some l ∧ t.root.look? l = some (some c) := by
  unfold read?
  cases hl : t.locate? path with
  | none => simp
  | some l =>
    rw [Option.bind_some]
    constructor
    · intro h
      split at h
      · rename_i c' hc'
        cases h
        exact ⟨l, rfl, Node.at?_eq_file_iff.1 hc'⟩
      · cases h
    · rintro ⟨_, h, hc⟩
      cases h
      rw [Node.at?_eq_file_iff.2 hc]

/-- The directories on the way to what is found. -/
theorem passedBy_of_has (h : t.has path = true) :
    ∀ d ∈ passedBy t.workingDirectory path, t.root.hasDirectory d = true := by
  obtain ⟨l, hl⟩ := Option.isSome_iff_exists.1 h
  exact (locate?_eq_some.1 hl).2.2.1

/-! ## The working directory -/

/-- The working directory is where it was. -/
structure Stays (t t' : FileTree) : Prop where
  workingDirectory : t'.workingDirectory = t.workingDirectory
  intact : t'.intact = t.intact

/-- The working directory is where it was, or was removed with directories above it. -/
structure Recedes (t t' : FileTree) : Prop where
  workingDirectory : t'.workingDirectory = t.workingDirectory
  intact : t'.intact <+: t.intact

theorem Stays.refl (t : FileTree) : Stays t t := ⟨rfl, rfl⟩

theorem Stays.trans {t₁ : FileTree} (h : Stays t t₁) (h' : Stays t₁ t') : Stays t t' :=
  ⟨h'.workingDirectory.trans h.workingDirectory, h'.intact.trans h.intact⟩

theorem Stays.starts_iff (h : Stays t t') : t'.Starts path ↔ t.Starts path := by
  unfold Starts
  rw [h.workingDirectory, h.intact]

theorem Stays.recedes (h : Stays t t') : Recedes t t' :=
  ⟨h.workingDirectory, h.intact ▸ List.prefix_rfl⟩

theorem Recedes.trans {t₁ : FileTree} (h : Recedes t t₁) (h' : Recedes t₁ t') : Recedes t t' :=
  ⟨h'.workingDirectory.trans h.workingDirectory, h'.intact.trans h.intact⟩

theorem Recedes.starts (h : Recedes t t') (hstarts : t'.Starts path) : t.Starts path := by
  obtain ⟨a, ha, hintact⟩ := hstarts
  rw [h.workingDirectory] at ha
  exact ⟨a, ha, hintact.trans h.intact⟩

theorem recedes_emptied (t : FileTree) (l : Location) : Recedes t (t.emptied l) := by
  refine ⟨rfl, ?_⟩
  unfold emptied
  dsimp only
  split
  · rename_i h
    exact List.isPrefixOf_iff_prefix.1 h
  · exact List.prefix_rfl

theorem recedes_removed (t : FileTree) (l : Location) : Recedes t (t.removed l) := by
  refine ⟨rfl, ?_⟩
  unfold removed
  dsimp only
  split
  · rename_i h
    exact l.dropLast_prefix.trans (List.isPrefixOf_iff_prefix.1 h)
  · exact List.prefix_rfl

/-! ## Making directories and writing -/

theorem makeDirectories_eq_ok (h : t.makeDirectories path = (t', true)) :
    Stays t t' ∧ Node.Adds t.root t'.root (madeBy t.workingDirectory path) := by
  unfold makeDirectories at h
  unfold madeBy
  split at h
  · rename_i hpath
    cases h
    rw [if_pos hpath]
    exact ⟨Stays.refl t, Node.Adds.refl t.root⟩
  · rename_i hpath
    rw [if_neg hpath]
    split at h
    · rename_i l ss hstart
      rw [Prod.mk.injEq] at h
      obtain ⟨rfl, hmade⟩ := h
      rw [(start?_eq_some.1 hstart).1]
      exact ⟨⟨rfl, rfl⟩, Node.adds_of_makeAlong (Prod.ext rfl hmade)⟩
    · cases h

/-- A file that is written is shown at the destination of its path, which ends in a name;
all else is as before. -/
theorem write_eq_ok (h : t.write path c = (t', true)) : ∃ above name l,
    segments? path = some (above ++ [name]) ∧ isNameless name ≠ true ∧ Stays t t' ∧
      t.Starts path ∧ destination? t.workingDirectory path = some l ∧
      (∀ d ∈ passedBy t.workingDirectory path, t.root.hasDirectory d = true) ∧
      t.root.hasDirectory l ≠ true ∧
      ∀ q, t'.root.look? q = if q = l then some (some c) else t.root.look? q := by
  unfold write at h
  split at h
  swap
  · cases h
  rename_i l ss hstart
  split at h
  swap
  · cases h
  rename_i d name hwalk hlast
  simp only [Bool.and_eq_true, Bool.not_eq_true'] at h
  split at h
  swap
  · cases h
  rename_i hfree
  obtain ⟨⟨⟨_, hname⟩, hd⟩, hnot⟩ := hfree
  rw [← Bool.not_eq_true] at hname hnot
  rw [Prod.mk.injEq] at h
  obtain ⟨rfl, _⟩ := h
  obtain ⟨happroach, hintact⟩ := start?_eq_some.1 hstart
  obtain ⟨segments, hsegments, hss⟩ := Option.map_eq_some_iff.1 happroach
  rw [Prod.mk.injEq] at hss
  have hconcat : ss.dropLast ++ [name] = ss := by
    obtain ⟨front, rfl⟩ := List.getLast?_eq_some_iff.1 hlast
    rw [List.dropLast_concat]
  obtain ⟨hfollow, hpassed, _⟩ := Node.walk?_eq_some.1 hwalk
  refine ⟨segments.takeWhile isNameless ++ ss.dropLast, name, d ++ [name], ?_, hname, ⟨rfl, rfl⟩,
    ⟨_, happroach, hintact⟩, ?_, ?_, hnot, ?_⟩
  · rw [List.append_assoc, hconcat, ← hss.2, List.takeWhile_append_dropWhile]
    exact hsegments
  · unfold destination?
    rw [happroach, Option.map_some, ← hconcat, follow_concat _ _ hname, hfollow]
  · unfold passedBy
    rw [happroach, Option.map_some, Option.getD_some, ← hconcat, passed_concat, visited, hfollow]
    intro d' hd'
    rcases List.mem_append.1 hd' with hd' | hd'
    · exact hpassed d' hd'
    · rw [List.mem_singleton.1 hd']
      exact hd
  · intro q
    rw [Node.look?_put Node.isFlat_file hd hnot]
    rfl

/-! ## Removing -/

/-- A directory that is removed takes all files below it along, and nothing else. -/
theorem removeDirectory_eq_ok (h : t.removeDirectory path = (t', true)) :
    ∃ d, t.locate? path = some d ∧ Recedes t t' ∧
      (∀ q, ¬ d <+: q → t'.root.look? q = t.root.look? q) ∧
      ∀ q, d <+: q → ∀ c, t'.root.look? q ≠ some (some c) := by
  unfold removeDirectory at h
  split at h
  swap
  · cases h
  rename_i l ss d hstart hlocate
  refine ⟨d, hlocate, ?_⟩
  split at h
  · cases h
  rename_i hd
  have hd : t.root.hasDirectory d = true := by simpa using hd
  split at h
  · cases h
  split at h
  · cases h
    refine ⟨recedes_emptied t d, fun q hq => Node.look?_setAt_elsewhere hq, ?_⟩
    rintro _ ⟨q, rfl⟩ c
    show (Node.setAt .empty t.root d).look? (d ++ q) ≠ _
    rw [Node.look?_setAt_of_hasDirectory hd]
    exact Node.look?_empty_ne
  · split at h
    · cases h
    · cases h
      refine ⟨recedes_removed t d, fun q hq => Node.look?_removeAt_elsewhere hq, ?_⟩
      rintro _ ⟨q, rfl⟩ c
      by_cases hroot : d = []
      · subst hroot
        exact Node.look?_empty_ne
      · show (t.root.removeAt d).look? (d ++ q) ≠ _
        rw [Node.look?_removeAt_append hroot]
        simp

end OrmGen.FileTree

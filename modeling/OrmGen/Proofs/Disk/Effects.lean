/-
  What the writing of a run does to a file tree, step by step. Each step is described by what
  the tree shows afterwards: `Rewritten` for a file that is written with the directories
  above it, `removeGenerated_eq_ok` for the removal at the beginning. Over the whole run
  directories are only added (`hasDirectory_of_writeFiles`), and what a file holds at the
  end it held at the beginning or was given by the run (`look?_of_writeFiles`).
-/
import OrmGen.Disk.Writing
import OrmGen.Proofs.Disk.Access

namespace OrmGen

open FileTree

/-- The outcome of a program on a tree, and the tree it leaves. -/
def runOn {α : Type} (p : ExceptT Error OnTree α) (t : FileTree) : Except Error α × FileTree :=
  p.run.run t

section Outcomes

variable {α β : Type} {x : ExceptT Error OnTree α} {f : α → ExceptT Error OnTree β} {b : β}
  {t t' : FileTree} {path : String}

theorem runOn_bind : runOn (x >>= f) t =
    match runOn x t with
    | (.ok a, t₁) => runOn (f a) t₁
    | (.error e, t₁) => (.error e, t₁) := by
  unfold runOn
  rw [ExceptT.run_bind, StateT.run_bind]
  rcases x.run.run t with ⟨e | a, t₁⟩
  · rfl
  · rfl

theorem runOn_bind_eq_ok : runOn (x >>= f) t = (.ok b, t') ↔
    ∃ a t₁, runOn x t = (.ok a, t₁) ∧ runOn (f a) t₁ = (.ok b, t') := by
  rw [runOn_bind]
  rcases runOn x t with ⟨e | a, t₁⟩
  · simp
  · simp

theorem runOn_lift (action : OnTree α) :
    runOn (liftM action) t = (.ok (action.run t).1, (action.run t).2) := rfl

/-- A disk operation that must succeed is the operation on the tree. -/
theorem runOn_orDiskError_eq_ok {action : OnTree Bool} {u : FileTree × Bool}
    (haction : action.run t = u.swap) :
    runOn (Generation.orDiskError path action) t = (.ok (), t') ↔ u = (t', true) := by
  unfold Generation.orDiskError
  rw [runOn_bind, runOn_lift, haction]
  rcases u with ⟨t₁, _ | _⟩
  · constructor
    · intro h
      cases h
    · intro h
      cases h
  · change (Except.ok (), t₁) = (Except.ok (), t') ↔ (t₁, true) = (t', true)
    rw [Prod.mk.injEq, Prod.mk.injEq]
    simp

end Outcomes

namespace Generation

variable {g : Generation} {t t' : FileTree} {root path contents : String} {f : OutputFile}
  {fs : List OutputFile} {report : WriteReport}

/-- `t'` is `t` after a file with the contents `c` was written to `path`, which leads to
`l`. -/
structure Written (path : String) (l : Location) (c : ByteArray) (t t' : FileTree) : Prop where
  stays : Stays t t'
  starts : t.Starts path
  destination : destination? t.workingDirectory path = some l
  directory : ∀ d, t'.root.hasDirectory d = true ↔
    t.root.hasDirectory d = true ∨ d ∈ passedBy t.workingDirectory path
  file : ∀ q c', t'.root.look? q = some (some c') ↔
    if q = l then c' = c else t.root.look? q = some (some c')

theorem written_of_write {t₁ : FileTree} {ds : List Location} {c : ByteArray}
    (hstays : Stays t t₁) (hadds : Node.Adds t.root t₁.root ds)
    (hds : ∀ {above name}, segments? path = some (above ++ [name]) → isNameless name ≠ true →
      ds ⊆ passedBy t.workingDirectory path)
    (hwrite : t₁.write path c = (t', true)) : ∃ l, Written path l c t t' := by
  obtain ⟨above, name, l, hss, hname, hafter, hstarts, hdest, hpassed, hl, hlook⟩ :=
    write_eq_ok hwrite
  rw [hstays.workingDirectory] at hdest hpassed
  refine ⟨l, hstays.trans hafter, hstays.starts_iff.1 hstarts, hdest, ?_, ?_⟩
  · intro d
    have hsame : t'.root.hasDirectory d = true ↔ t₁.root.hasDirectory d = true := by
      rw [Node.hasDirectory_iff, hlook]
      by_cases hd : d = l
      · rw [if_pos hd, hd]
        simp [hl]
      · rw [if_neg hd, Node.hasDirectory_iff]
    rw [hsame]
    constructor
    · intro h
      rcases (hadds.directory d).1 h with h | h
      · exact .inl h
      · exact .inr (hds hss hname h)
    · rintro (h | h)
      · exact (hadds.directory d).2 (.inl h)
      · exact hpassed d h
  · intro q c'
    rw [hlook, ← hadds.file]
    by_cases hq : q = l
    · rw [if_pos hq, if_pos hq]
      simp [eq_comm]
    · rw [if_neg hq, if_neg hq]

theorem writeText_eq_ok (h : runOn (writeText path contents) t = (.ok (), t')) :
    ∃ l, Written path l contents.toUTF8 t t' := by
  unfold writeText at h
  cases hparent : Path.parent? path with
  | none =>
    rw [hparent] at h
    have hwrite : t.write path contents.toUTF8 = (t', true) := (runOn_orDiskError_eq_ok rfl).1 h
    exact written_of_write (Stays.refl t) (Node.Adds.refl t.root)
      (fun _ _ => List.nil_subset _) hwrite
  | some directory =>
    rw [hparent] at h
    obtain ⟨_, t₁, hmake, hwrite⟩ := runOn_bind_eq_ok.1 h
    have hmake : t.makeDirectories directory = (t₁, true) := (runOn_orDiskError_eq_ok rfl).1 hmake
    have hwrite : t₁.write path contents.toUTF8 = (t', true) :=
      (runOn_orDiskError_eq_ok rfl).1 hwrite
    obtain ⟨hstays, hadds⟩ := makeDirectories_eq_ok hmake
    refine written_of_write hstays hadds ?_ hwrite
    intro above name hss hname d hd
    exact mem_passedBy_of_mem_madeBy hparent hss hname hd

/-! ## The files of a run -/

/-- Whether a file is kept: it is a scaffold and something stands at its path. -/
def IsKept (root : String) (t : FileTree) (f : OutputFile) : Prop :=
  f.mode = .createIfMissing ∧ t.has (Path.join root f.path) = true

/-- A file of a run is kept and reported as skipped, or it is written. In both cases its
path leads through directories afterwards. -/
theorem writeFiles_cons_eq_ok (h : runOn (writeFiles root (f :: fs)) t = (.ok report, t')) :
    ∃ t₁ report', runOn (writeFiles root fs) t₁ = (.ok report', t') ∧ Stays t t₁ ∧
      t.Starts (Path.join root f.path) ∧
      (∀ d, t₁.root.hasDirectory d = true ↔ t.root.hasDirectory d = true ∨
        d ∈ passedBy t.workingDirectory (Path.join root f.path)) ∧
      ((IsKept root t f ∧ t₁ = t ∧
          report = { report' with skipped := Path.join root f.path :: report'.skipped }) ∨
        (¬ IsKept root t f ∧ (∃ l, Written (Path.join root f.path) l f.contents.toUTF8 t t₁) ∧
          report = { report' with written := Path.join root f.path :: report'.written })) := by
  rw [writeFiles] at h
  obtain ⟨kept, t₀, hkept, h⟩ := runOn_bind_eq_ok.1 h
  obtain ⟨hiff, rfl⟩ : (kept = true ↔ IsKept root t f) ∧ t = t₀ := by
    unfold IsKept
    rw [runOn_lift, Prod.mk.injEq, Except.ok.injEq] at hkept
    obtain ⟨rfl, rfl⟩ := hkept
    by_cases hmode : f.mode = .createIfMissing
    · rw [if_pos hmode]
      exact ⟨(and_iff_right hmode).symm, rfl⟩
    · rw [if_neg hmode]
      refine ⟨?_, rfl⟩
      constructor
      · intro hfalse
        cases hfalse
      · intro hkept
        exact absurd hkept.1 hmode
  by_cases hk : kept = true
  · rw [if_pos hk] at h
    obtain ⟨report', t₁, hrest, hreport⟩ := runOn_bind_eq_ok.1 h
    cases hreport
    obtain ⟨l, hl⟩ := Option.isSome_iff_exists.1 (hiff.1 hk).2
    refine ⟨t, report', hrest, Stays.refl t, (locate?_eq_some.1 hl).1, ?_,
      .inl ⟨hiff.1 hk, rfl, rfl⟩⟩
    intro d
    constructor
    · exact .inl
    · rintro (hd | hd)
      · exact hd
      · exact passedBy_of_has (hiff.1 hk).2 d hd
  · rw [if_neg hk] at h
    obtain ⟨_, t₁, hwrite, h⟩ := runOn_bind_eq_ok.1 h
    obtain ⟨report', t₂, hrest, hreport⟩ := runOn_bind_eq_ok.1 h
    cases hreport
    obtain ⟨l, hwritten⟩ := writeText_eq_ok hwrite
    exact ⟨t₁, report', hrest, hwritten.stays, hwritten.starts, hwritten.directory,
      .inr ⟨hk ∘ hiff.2, ⟨l, hwritten⟩, rfl⟩⟩

/-- Files are written from where the working directory is. -/
theorem stays_of_writeFiles (h : runOn (writeFiles root fs) t = (.ok report, t')) :
    Stays t t' ∧ ∀ f ∈ fs, t.Starts (Path.join root f.path) := by
  induction fs generalizing t report with
  | nil =>
    cases h
    exact ⟨Stays.refl _, by simp⟩
  | cons f fs ih =>
    obtain ⟨t₁, report', hrest, hstays, hstarts, _⟩ := writeFiles_cons_eq_ok h
    obtain ⟨hafter, hall⟩ := ih hrest
    refine ⟨hstays.trans hafter, ?_⟩
    rw [List.forall_mem_cons]
    exact ⟨hstarts, fun f' hf' => hstays.starts_iff.1 (hall f' hf')⟩

/-- Afterwards the directories are those that were there and those on the way to files. -/
theorem hasDirectory_of_writeFiles (h : runOn (writeFiles root fs) t = (.ok report, t'))
    (d : Location) : t'.root.hasDirectory d = true ↔ t.root.hasDirectory d = true ∨
      ∃ f ∈ fs, d ∈ passedBy t.workingDirectory (Path.join root f.path) := by
  induction fs generalizing t report with
  | nil =>
    cases h
    simp
  | cons f fs ih =>
    obtain ⟨t₁, report', hrest, hstays, _, hdirs, _⟩ := writeFiles_cons_eq_ok h
    rw [ih hrest, hstays.workingDirectory, hdirs, List.exists_mem_cons_iff, or_assoc]

/-- What a file holds afterwards it held before, or a file of the run was written there. -/
theorem look?_of_writeFiles (h : runOn (writeFiles root fs) t = (.ok report, t')) {l : Location}
    {c : ByteArray} (hc : t'.root.look? l = some (some c)) :
    t.root.look? l = some (some c) ∨
      ∃ f ∈ fs, destination? t.workingDirectory (Path.join root f.path) = some l ∧
        c = f.contents.toUTF8 := by
  induction fs generalizing t report with
  | nil =>
    cases h
    exact .inl hc
  | cons f fs ih =>
    obtain ⟨t₁, report', hrest, hstays, _, _, hstep⟩ := writeFiles_cons_eq_ok h
    rw [← hstays.workingDirectory]
    rcases ih hrest with hbefore | ⟨f', hf', htext⟩
    · rcases hstep with ⟨_, rfl, _⟩ | ⟨_, ⟨l', hwritten⟩, _⟩
      · exact .inl hbefore
      · rw [hwritten.file] at hbefore
        split at hbefore
        · rename_i hl
          rw [hstays.workingDirectory]
          exact .inr ⟨f, List.mem_cons_self, hl ▸ hwritten.destination, hbefore⟩
        · exact .inl hbefore
    · exact .inr ⟨f', List.mem_cons_of_mem _ hf', htext⟩

/-! ## The generated directory -/

/-- A tree without the generated directory. -/
def wiped (g : Generation) (root : String) (t : FileTree) : FileTree :=
  if t.has (Path.join root g.generatedDirectory) then
    (t.removeDirectory (Path.join root g.generatedDirectory)).1
  else t

/-- Whether a location is in the generated directory, or is the directory itself. -/
def Wipes (g : Generation) (root : String) (t : FileTree) (l : Location) : Prop :=
  ∃ d, t.locate? (Path.join root g.generatedDirectory) = some d ∧ d <+: l

/-- The generated directory is removed if it is found; otherwise nothing happens. -/
theorem removeGenerated_cases (h : runOn (g.removeGenerated root) t = (.ok (), t')) :
    (t.has (Path.join root g.generatedDirectory) = true ∧
        t.removeDirectory (Path.join root g.generatedDirectory) = (t', true)) ∨
      (t.has (Path.join root g.generatedDirectory) ≠ true ∧ t' = t) := by
  unfold removeGenerated at h
  obtain ⟨present, t₀, hhas, h⟩ := runOn_bind_eq_ok.1 h
  rw [runOn_lift, Prod.mk.injEq, Except.ok.injEq] at hhas
  obtain ⟨rfl, rfl⟩ := hhas
  change runOn (if t.has (Path.join root g.generatedDirectory) = true then _ else _) t = _ at h
  by_cases hpresent : t.has (Path.join root g.generatedDirectory) = true
  · rw [if_pos hpresent] at h
    exact .inl ⟨hpresent, (runOn_orDiskError_eq_ok rfl).1 h⟩
  · rw [if_neg hpresent] at h
    cases h
    exact .inr ⟨hpresent, rfl⟩

/-- The removal of the generated directory takes all files in it along, and nothing else. -/
theorem removeGenerated_eq_ok (h : runOn (g.removeGenerated root) t = (.ok (), t')) :
    t' = g.wiped root t ∧ Recedes t t' ∧
      (∀ l, ¬ g.Wipes root t l → t'.root.look? l = t.root.look? l) ∧
      ∀ l, g.Wipes root t l → ∀ c, t'.root.look? l ≠ some (some c) := by
  unfold wiped Wipes
  rcases removeGenerated_cases h with ⟨hpresent, hremove⟩ | ⟨hmissing, rfl⟩
  · obtain ⟨d, hd, hrecedes, hother, hbelow⟩ := removeDirectory_eq_ok hremove
    rw [if_pos hpresent, hremove, hd]
    refine ⟨rfl, hrecedes, ?_⟩
    simp only [Option.some.injEq, exists_eq_left']
    exact ⟨hother, hbelow⟩
  · have hnone : t'.locate? (Path.join root g.generatedDirectory) = none :=
      Option.not_isSome_iff_eq_none.1 hmissing
    rw [if_neg hmissing, hnone]
    exact ⟨rfl, (Stays.refl t').recedes, by simp⟩

/-- A run that succeeds removes the generated directory, writes the files and then the
diagram. -/
theorem write_eq_ok {entitiesRoot : String}
    (h : runOn (g.write root entitiesRoot) t = (.ok report, t')) :
    ∃ t₁ report' l, runOn (g.removeGenerated root) t = (.ok (), g.wiped root t) ∧
      runOn (writeFiles root g.files) (g.wiped root t) = (.ok report', t₁) ∧
      Written (Path.join entitiesRoot diagramPath) l g.diagram.toUTF8 t₁ t' ∧
      report = { report' with
        written := report'.written ++ [Path.join entitiesRoot diagramPath] } := by
  unfold Generation.write at h
  obtain ⟨_, t₀, hremove, h⟩ := runOn_bind_eq_ok.1 h
  obtain ⟨report', t₁, hfiles, h⟩ := runOn_bind_eq_ok.1 h
  obtain ⟨_, t₂, hdiagram, hreport⟩ := runOn_bind_eq_ok.1 h
  cases hreport
  obtain ⟨l, hwritten⟩ := writeText_eq_ok hdiagram
  obtain rfl := (removeGenerated_eq_ok hremove).1
  exact ⟨t₁, report', l, hremove, hfiles, hwritten, rfl⟩

end Generation

end OrmGen

/-
  What a run leaves on the disk, location by location. A file of the run shows at its own
  location and, as directories, at those its path leads through; no other location changes
  (`shownAfter`). So what is shown at a location after a run is what was shown there once the
  generated directory was removed, taken through one such step for each file and one for the
  diagram (`look?_of_write`).

  A step either fixes what is shown or only fills a place where nothing is, and any number of
  steps together do the same (`Settles`), so doing them twice is doing them once. With what
  the removal takes along, a second run that succeeds leaves everything as the first did
  (`second_run_changes_nothing`).
-/
import OrmGen.Proofs.Disk.Effects
import OrmGen.Proofs.Disk.SourceTree
import OrmGen.Proofs.Traversal

namespace OrmGen

/-! ## Paths that go down -/

namespace Path

/-- A path without a segment that leads upward. -/
def GoesDown (path : String) : Prop := ['.', '.'] ∉ path.toList.splitOn '/'

instance (path : String) : Decidable (GoesDown path) := inferInstanceAs (Decidable (_ ∉ _))

theorem openSegments_isPrefix (base : String) : openSegments base <+: base.toList.splitOn '/' := by
  unfold openSegments
  split
  · exact List.dropLast_prefix _
  · exact List.prefix_rfl

theorem goesDown_join {root p : String} (hroot : GoesDown root) (hp : Descends p.toList) :
    GoesDown (join root p) := by
  unfold GoesDown
  rw [splitOn_join root hp.relative, List.mem_append, not_or]
  exact ⟨fun h => hroot ((openSegments_isPrefix root).subset h), hp.stays⟩

end Path

/-- A closed run that succeeds, found by running it. -/
theorem exists_run_of_any {α : Type} {p : ExceptT Error OnTree α} {t : FileTree}
    {P : α → FileTree → Prop} [∀ a t', Decidable (P a t')]
    (h : ((runOn p t).1.toOption.any fun a => decide (P a (runOn p t).2)) = true) :
    ∃ a t', runOn p t = (.ok a, t') ∧ P a t' := by
  obtain ⟨a, ha, hP⟩ := exists_ok_of_any h
  exact ⟨a, _, Prod.ext ha rfl, hP⟩

namespace FileTree

open OrmGen.Path (GoesDown)

variable {t t' : FileTree} {path : String} {l d q w : Location} {ss : List String} {s : String}

theorem dots_notMem (h : GoesDown path) (hss : segments? path = some ss) : ".." ∉ ss := by
  intro hmem
  rw [← (segments?_eq_some.1 hss).2] at hmem
  obtain ⟨segment, hsegment, hdots⟩ := List.mem_map.1 hmem
  have hsegment_eq : segment = ['.', '.'] := String.ofList_inj.1 hdots
  exact h (hsegment_eq ▸ hsegment)

theorem dots_notMem_approach (h : GoesDown path) (ha : approach? w path = some (l, ss)) :
    ".." ∉ ss := by
  obtain ⟨segments, hsegments, hcut⟩ := Option.map_eq_some_iff.1 ha
  rw [Prod.mk.injEq] at hcut
  rw [← hcut.2]
  exact fun hmem => dots_notMem h hsegments ((List.dropWhile_suffix _).subset hmem)

/-- A path that goes down leads through nothing but what lies above its destination, and the
destination itself if it ends in a slash. -/
theorem prefix_of_mem_passedBy (h : GoesDown path) (hl : destination? w path = some l)
    (hd : d ∈ passedBy w path) : d <+: l := by
  obtain ⟨⟨start, ss⟩, ha, rfl⟩ := Option.map_eq_some_iff.1 hl
  unfold passedBy at hd
  rw [ha, Option.map_some, Option.getD_some] at hd
  exact prefix_of_mem_visited (dots_notMem_approach h ha) (List.mem_append_left _ hd)

/-- If a path that goes down is not found although something is shown at its destination, or
below, then that is a file and the path ends in a slash. -/
theorem file_of_not_located (h : GoesDown path) (hstarts : t.Starts path)
    (hdest : destination? t.workingDirectory path = some d) (hnot : t.locate? path ≠ some d)
    (hd : d <+: l) (hl : (t.root.look? l).isSome = true) :
    l = d ∧ d ∈ passedBy t.workingDirectory path ∧ ∃ c, t.root.look? d = some (some c) := by
  have hsome := Node.isSome_above hl hd
  obtain ⟨d', hd', hdirectory⟩ :
      ∃ d' ∈ passedBy t.workingDirectory path, t.root.hasDirectory d' ≠ true := by
    by_contra hall
    simp only [not_exists, not_and, Decidable.not_not] at hall
    exact hnot (locate?_eq_some.2 ⟨hstarts, hdest, hall, hsome⟩)
  obtain ⟨q, rfl⟩ := (prefix_of_mem_passedBy h hdest hd').trans hd
  cases q with
  | cons n q => exact absurd (Node.hasDirectory_of_isSome hl) hdirectory
  | nil =>
    rw [List.append_nil] at hd hl ⊢
    obtain rfl : d' = d := (prefix_of_mem_passedBy h hdest hd').eq_of_length_le hd.length_le
    refine ⟨rfl, hd', ?_⟩
    rw [Ne, Node.hasDirectory_iff] at hdirectory
    obtain ⟨v, hv⟩ := Option.isSome_iff_exists.1 hl
    cases v with
    | none => exact absurd hv hdirectory
    | some c => exact ⟨c, hv⟩

theorem exists_last_name {last : String} {above : List String}
    (h : ss.reverse.dropWhile (· = "") = last :: above) :
    ∃ idle, ss = above.reverse ++ last :: idle := by
  refine ⟨(ss.reverse.takeWhile (· = "")).reverse, ?_⟩
  have happend := List.takeWhile_append_dropWhile (p := (· = "")) (l := ss.reverse)
  rw [h] at happend
  have hreverse := congrArg List.reverse happend
  rw [List.reverse_append, List.reverse_cons, List.append_assoc, List.singleton_append,
    List.reverse_reverse] at hreverse
  exact hreverse.symm

/-- The way down to a directory does not lead through what is below it. -/
theorem walk?_emptied {front idle : List String} (hup : ".." ∉ front ++ s :: idle)
    (hd : t.root.hasDirectory (follow l (front ++ s :: idle)) = true) :
    (t.emptied (follow l (front ++ s :: idle))).root.walk? l front = some (follow l front) := by
  have hdirectory : ∀ x ∈ visited l front,
      (t.emptied (follow l (front ++ s :: idle))).root.hasDirectory x = true := by
    intro x hx
    have hpassed : x ∈ passed l (front ++ s :: idle) := by
      rw [passed_append]
      rcases List.mem_append.1 hx with hx | hx
      · exact List.mem_append_left _ hx
      · rw [List.mem_singleton.1 hx]
        exact List.mem_append_right _ List.mem_cons_self
    exact Node.hasDirectory_setAt_empty hd
      (prefix_of_mem_visited hup (List.mem_append_left _ hpassed))
  exact Node.walk?_eq_some.2 ⟨rfl, fun x hx => hdirectory x (List.mem_append_left _ hx),
    Node.isSome_of_hasDirectory (hdirectory _ (List.mem_append_right _ List.mem_cons_self))⟩

/-- Removing the directory at a path that goes down removes it and all that is below it. -/
theorem look?_removeDirectory (hdown : GoesDown path) (h : t.removeDirectory path = (t', true)) :
    ∃ d, t.locate? path = some d ∧ t.root.hasDirectory d = true ∧
      ∀ q, d <+: q → t'.root.look? q = none := by
  unfold removeDirectory at h
  split at h
  swap
  · cases h
  rename_i l ss d hstart hlocate
  have hup : ".." ∉ ss := dots_notMem_approach hdown (start?_eq_some.1 hstart).1
  have hwalk : t.root.walk? l ss = some d := by
    unfold locate? at hlocate
    rwa [hstart, Option.bind_some] at hlocate
  obtain ⟨rfl, _, _⟩ := Node.walk?_eq_some.1 hwalk
  refine ⟨_, hlocate, ?_⟩
  split at h
  · cases h
  rename_i hd
  have hd : t.root.hasDirectory (follow l ss) = true := by simpa using hd
  refine ⟨hd, ?_⟩
  split at h
  · cases h
  rename_i last above hlast
  obtain ⟨idle, rfl⟩ := exists_last_name hlast
  rw [walk?_emptied hup hd, if_neg (by simp)] at h
  split at h
  · cases h
  rename_i hname
  cases h
  have hmem : last ∈ above.reverse ++ last :: idle :=
    List.mem_append_right _ List.mem_cons_self
  rintro _ ⟨q, rfl⟩
  exact Node.look?_removeAt_append (List.ne_nil_of_mem (mem_follow hup hmem hname))

end FileTree

open FileTree

/-! ## Steps that settle -/

/-- Either the outcome does not depend on what was there, or only a place where nothing was is
filled. -/
def Settles {α : Type} (F : Option α → Option α) : Prop :=
  (∃ x, ∀ v, F v = some x) ∨ ∃ a, ∀ v, F v = v.or a

namespace Settles

variable {α β : Type} {F G : Option α → Option α}

theorem comp (hF : Settles F) (hG : Settles G) : Settles fun v => G (F v) := by
  rcases hG with ⟨y, hG⟩ | ⟨b, hG⟩
  · exact .inl ⟨y, fun v => hG (F v)⟩
  · rcases hF with ⟨x, hF⟩ | ⟨a, hF⟩
    · refine .inl ⟨x, ?_⟩
      intro v
      show G (F v) = some x
      rw [hG, hF, Option.some_or]
    · refine .inr ⟨a.or b, ?_⟩
      intro v
      show G (F v) = v.or (a.or b)
      rw [hG, hF, Option.or_assoc]

theorem foldl {step : Option α → β → Option α} (h : ∀ b, Settles fun v => step v b)
    (bs : List β) : Settles fun v => bs.foldl step v := by
  induction bs with
  | nil => exact .inr ⟨none, fun v => v.or_none.symm⟩
  | cons b bs ih => exact (h b).comp ih

/-- Done twice, it leaves what it left when it was done once. -/
theorem twice (h : Settles F) (v : Option α) : F (F v) = F v := by
  rcases h with ⟨x, hF⟩ | ⟨a, hF⟩
  · rw [hF, hF]
  · rw [hF (F v), hF v, Option.or_assoc, Option.or_self]

end Settles

/-! ## What the files of a run show -/

namespace OutputFile

variable {w : Location} {root : String} {f : OutputFile} {l : Location} {c : ByteArray}
  {v : Option (Option ByteArray)}

/-- A file of a run leads to the location `l`, below a root and seen from the working directory
`w`. -/
def LeadsTo (w : Location) (root : String) (f : OutputFile) (l : Location) : Prop :=
  destination? w (Path.join root f.path) = some l

instance (w : Location) (root : String) (f : OutputFile) (l : Location) :
    Decidable (f.LeadsTo w root l) := inferInstanceAs (Decidable (_ = _))

/-- What is shown at `l` once a file of the run is written, or kept, if `v` was shown there
before: its contents at its own place, directories on the way to it. -/
def shownAfter (w : Location) (root : String) (l : Location) (v : Option (Option ByteArray))
    (f : OutputFile) : Option (Option ByteArray) :=
  if f.LeadsTo w root l then
    match f.mode with
    | .regenerate => some (some f.contents.toUTF8)
    | .createIfMissing => v.or (some (some f.contents.toUTF8))
  else if l ∈ passedBy w (Path.join root f.path) then v.or (some none)
  else v

theorem leadsTo_iff {place : Location} (h : destination? w (Path.join root f.path) = some place) :
    f.LeadsTo w root l ↔ l = place := by
  unfold LeadsTo
  rw [h, Option.some.injEq, eq_comm]

theorem shownAfter_regenerate (h : f.LeadsTo w root l) (hmode : f.mode = .regenerate) :
    f.shownAfter w root l v = some (some f.contents.toUTF8) := by
  rw [shownAfter, if_pos h, hmode]

theorem shownAfter_createIfMissing (h : f.LeadsTo w root l) (hmode : f.mode = .createIfMissing) :
    f.shownAfter w root l v = v.or (some (some f.contents.toUTF8)) := by
  rw [shownAfter, if_pos h, hmode]

theorem shownAfter_elsewhere (h : ¬ f.LeadsTo w root l) : f.shownAfter w root l v =
    if l ∈ passedBy w (Path.join root f.path) then v.or (some none) else v := by
  rw [shownAfter, if_neg h]

/-- A file stays a file. -/
theorem exists_shownAfter_file (w : Location) (root : String) (l : Location) (f : OutputFile)
    (c : ByteArray) : ∃ c', f.shownAfter w root l (some (some c)) = some (some c') := by
  unfold shownAfter
  split
  · split
    · exact ⟨_, rfl⟩
    · exact ⟨c, Option.some_or⟩
  · split
    · exact ⟨c, Option.some_or⟩
    · exact ⟨c, rfl⟩

theorem exists_foldl_shownAfter_file (w : Location) (root : String) (l : Location)
    (fs : List OutputFile) (c : ByteArray) : ∃ c',
      fs.foldl (shownAfter w root l) (some (some c)) = some (some c') := by
  induction fs generalizing c with
  | nil => exact ⟨c, rfl⟩
  | cons f fs ih =>
    obtain ⟨c₁, hc₁⟩ := exists_shownAfter_file w root l f c
    obtain ⟨c', hc'⟩ := ih c₁
    exact ⟨c', by rw [List.foldl_cons, hc₁, hc']⟩

theorem settles_shownAfter (w : Location) (root : String) (l : Location) (f : OutputFile) :
    Settles fun v => shownAfter w root l v f := by
  unfold shownAfter
  split
  · split
    · exact .inl ⟨_, fun _ => rfl⟩
    · exact .inr ⟨_, fun _ => rfl⟩
  · split
    · exact .inr ⟨_, fun _ => rfl⟩
    · exact .inr ⟨none, fun v => v.or_none.symm⟩

end OutputFile

open OutputFile

namespace Generation

variable {g : Generation} {t t' t₁ t₂ : FileTree} {root appRoot entitiesRoot path : String}
  {f : OutputFile} {fs pre post : List OutputFile} {report report₂ : WriteReport}
  {l l' d q w : Location} {c : ByteArray} {v : Option (Option ByteArray)}

/-- The diagram as a file of the run, below the root for entities. -/
def diagramFile (g : Generation) : OutputFile := ⟨diagramPath, g.diagram, .regenerate⟩

/-- After a file is written, it is shown at its place, directories are shown on the way to it,
and all else is as before. -/
theorem Written.look? (h : Written path l c t t') : t'.root.look? q =
    if q = l then some (some c)
    else if q ∈ passedBy t.workingDirectory path then (t.root.look? q).or (some none)
    else t.root.look? q := by
  have hplace : t'.root.look? l = some (some c) := (h.file l c).2 (by rw [if_pos rfl])
  by_cases hq : q = l
  · rw [if_pos hq, hq, hplace]
  rw [if_neg hq]
  have hfile : ∀ c', t'.root.look? q = some (some c') ↔ t.root.look? q = some (some c') := by
    intro c'
    rw [h.file, if_neg hq]
  have hdirectory : t'.root.look? q = some none ↔
      t.root.look? q = some none ∨ q ∈ passedBy t.workingDirectory path := by
    rw [← Node.hasDirectory_iff, h.directory, Node.hasDirectory_iff]
  rcases hbefore : t.root.look? q with _ | _ | c'
  · split
    · rename_i hpassed
      exact hdirectory.2 (.inr hpassed)
    · rename_i hpassed
      rcases hafter : t'.root.look? q with _ | _ | c'
      · rfl
      · rw [hafter, hbefore] at hdirectory
        simp [hpassed] at hdirectory
      · rw [(hfile c').1 hafter] at hbefore
        cases hbefore
  · rw [hdirectory.2 (.inl hbefore)]
    split <;> rfl
  · rw [(hfile c').2 hbefore]
    split <;> rfl

/-- The place that a path going down leads to is empty if the path is not found and a file can
be written there. -/
theorem Written.look?_eq_none (h : Written path l c t t') (hdown : Path.GoesDown path)
    (hmissing : t.has path ≠ true) : t.root.look? l = none := by
  by_contra hsome
  have hnot : t.locate? path ≠ some l := by
    intro hlocate
    apply hmissing
    rw [has, hlocate, Option.isSome_some]
  obtain ⟨_, hpassed, _⟩ := file_of_not_located hdown h.starts h.destination hnot
    List.prefix_rfl (Option.isSome_iff_ne_none.2 hsome)
  have hdirectory : t'.root.look? l = some none :=
    Node.hasDirectory_iff.1 ((h.directory l).2 (.inr hpassed))
  have hfile : t'.root.look? l = some (some c) := (h.file l c).2 (by rw [if_pos rfl])
  rw [hdirectory] at hfile
  cases hfile

/-- A file that is written. -/
theorem Written.shownAfter (h : Written (Path.join root f.path) l f.contents.toUTF8 t t')
    (hdown : Path.GoesDown (Path.join root f.path)) (hkept : ¬ IsKept root t f) :
    t'.root.look? q = f.shownAfter t.workingDirectory root q (t.root.look? q) := by
  have hleads := leadsTo_iff (l := q) h.destination
  rw [h.look?]
  by_cases hq : q = l
  · rw [if_pos hq]
    cases hmode : f.mode with
    | regenerate => rw [shownAfter_regenerate (hleads.2 hq) hmode]
    | createIfMissing =>
      have hmissing : t.has (Path.join root f.path) ≠ true := fun hhas => hkept ⟨hmode, hhas⟩
      rw [shownAfter_createIfMissing (hleads.2 hq) hmode, hq, h.look?_eq_none hdown hmissing,
        Option.none_or]
  · rw [if_neg hq, shownAfter_elsewhere (mt hleads.1 hq)]

/-- A file that is kept. -/
theorem IsKept.shownAfter (h : IsKept root t f) :
    f.shownAfter t.workingDirectory root q (t.root.look? q) = t.root.look? q := by
  obtain ⟨l, hlocate⟩ := Option.isSome_iff_exists.1 h.2
  obtain ⟨_, hdest, hpassed, hsome⟩ := locate?_eq_some.1 hlocate
  have hleads := leadsTo_iff (l := q) hdest
  by_cases hq : q = l
  · rw [shownAfter_createIfMissing (hleads.2 hq) h.1, hq]
    exact Option.or_of_isSome hsome
  · rw [shownAfter_elsewhere (mt hleads.1 hq)]
    split
    · rename_i hq
      rw [Node.hasDirectory_iff.1 (hpassed q hq), Option.some_or]
    · rfl

/-- The files of a run, one after another. -/
theorem look?_of_writeFiles_eq (h : runOn (writeFiles root fs) t = (.ok report, t'))
    (hdown : ∀ f ∈ fs, Path.GoesDown (Path.join root f.path)) (l : Location) :
    t'.root.look? l = fs.foldl (shownAfter t.workingDirectory root l) (t.root.look? l) := by
  induction fs generalizing t report with
  | nil =>
    cases h
    rfl
  | cons f fs ih =>
    rw [List.forall_mem_cons] at hdown
    obtain ⟨t₁, report', hrest, hstays, _, _, hstep⟩ := writeFiles_cons_eq_ok h
    rw [ih hrest hdown.2, List.foldl_cons, hstays.workingDirectory]
    congr 1
    rcases hstep with ⟨hkept, rfl, _⟩ | ⟨hkept, ⟨l', hwritten⟩, _⟩
    · exact hkept.shownAfter.symm
    · exact hwritten.shownAfter hdown.1 hkept

/-- The paths of a run go down, below roots that do. -/
structure GoesDown (g : Generation) (appRoot entitiesRoot : String) : Prop where
  directory : Path.GoesDown (Path.join appRoot g.generatedDirectory)
  files : ∀ f ∈ g.files, Path.GoesDown (Path.join appRoot f.path)
  diagram : Path.GoesDown (Path.join entitiesRoot diagramPath)

theorem goesDown_of_descends (hdirectory : Path.Descends g.generatedDirectory.toList)
    (hfiles : ∀ f ∈ g.files, Path.Descends f.path.toList) (happ : Path.GoesDown appRoot)
    (hentities : Path.GoesDown entitiesRoot) : g.GoesDown appRoot entitiesRoot where
  directory := Path.goesDown_join happ hdirectory
  files f hf := Path.goesDown_join happ (hfiles f hf)
  diagram := Path.goesDown_join hentities (by decide)

/-! ## The removal at the beginning -/

/-- A location at the place of the generated directory, or below. Nothing is counted as
generated if a file stands at that place, or if the path of the directory leads nowhere because
the working directory was removed. -/
def InGenerated (g : Generation) (root : String) (t : FileTree) (l : Location) : Prop :=
  t.Starts (Path.join root g.generatedDirectory) ∧
    ∃ d, destination? t.workingDirectory (Path.join root g.generatedDirectory) = some d ∧
      d <+: l ∧ ∀ c, t.root.look? d ≠ some (some c)

/-- A generated directory that is removed was a directory, and nothing is left of it. -/
theorem look?_of_wipes (h : runOn (g.removeGenerated root) t = (.ok (), t'))
    (hdown : Path.GoesDown (Path.join root g.generatedDirectory)) (hwipes : g.Wipes root t l) :
    t'.root.look? l = none ∧ g.InGenerated root t l := by
  obtain ⟨d, hlocate, hbelow⟩ := hwipes
  rcases removeGenerated_cases h with ⟨_, hremove⟩ | ⟨hmissing, _⟩
  · obtain ⟨d', hlocate', hdirectory, hgone⟩ := look?_removeDirectory hdown hremove
    obtain rfl : d = d' := Option.some.inj (hlocate.symm.trans hlocate')
    obtain ⟨hstarts, hdest, _⟩ := locate?_eq_some.1 hlocate
    refine ⟨hgone l hbelow, hstarts, d, hdest, hbelow, ?_⟩
    simp [Node.hasDirectory_iff.1 hdirectory]
  · exact absurd (Option.isSome_iff_exists.2 ⟨d, hlocate⟩) hmissing

/-- After the removal nothing is shown where the generated directory was, or could have been. -/
theorem look?_wiped_of_inGenerated
    (h : runOn (g.removeGenerated root) t = (.ok (), g.wiped root t))
    (hdown : Path.GoesDown (Path.join root g.generatedDirectory))
    (hgenerated : g.InGenerated root t l) : (g.wiped root t).root.look? l = none := by
  obtain ⟨hstarts, d, hdest, hbelow, hfree⟩ := hgenerated
  by_cases hlocate : t.locate? (Path.join root g.generatedDirectory) = some d
  · exact (look?_of_wipes h hdown ⟨d, hlocate, hbelow⟩).1
  have hkept : ¬ g.Wipes root t l := by
    rintro ⟨d', hlocate', _⟩
    obtain rfl : d = d' := Option.some.inj (hdest.symm.trans (locate?_eq_some.1 hlocate').2.1)
    exact hlocate hlocate'
  rw [(removeGenerated_eq_ok h).2.2.1 l hkept]
  by_contra hsome
  obtain ⟨_, _, c, hc⟩ := file_of_not_located hdown hstarts hdest hlocate hbelow
    (Option.isSome_iff_ne_none.2 hsome)
  exact hfree c hc

/-- Elsewhere the removal changes nothing. -/
theorem look?_wiped_of_not_inGenerated
    (h : runOn (g.removeGenerated root) t = (.ok (), g.wiped root t))
    (hdown : Path.GoesDown (Path.join root g.generatedDirectory))
    (hother : ¬ g.InGenerated root t l) : (g.wiped root t).root.look? l = t.root.look? l :=
  (removeGenerated_eq_ok h).2.2.1 l fun hwipes => hother (look?_of_wipes h hdown hwipes).2

/-! ## Whole runs -/

/-- What a run shows at a location where `v` is shown after the removal. -/
def shownByRun (g : Generation) (w : Location) (appRoot entitiesRoot : String) (l : Location)
    (v : Option (Option ByteArray)) : Option (Option ByteArray) :=
  g.diagramFile.shownAfter w entitiesRoot l (g.files.foldl (shownAfter w appRoot l) v)

theorem settles_shownByRun (g : Generation) (w : Location) (appRoot entitiesRoot : String)
    (l : Location) : Settles (g.shownByRun w appRoot entitiesRoot l) :=
  (Settles.foldl (settles_shownAfter w appRoot l) g.files).comp
    (settles_shownAfter w entitiesRoot l g.diagramFile)

/-- During a run the working directory can only be removed, with the generated directory. -/
theorem recedes_of_write (h : runOn (g.write appRoot entitiesRoot) t = (.ok report, t')) :
    Recedes t t' := by
  obtain ⟨t₁, report', l', hremove, hfiles, hdiagram, _⟩ := write_eq_ok h
  have hwiped := (removeGenerated_eq_ok hremove).2.1
  exact (hwiped.trans (stays_of_writeFiles hfiles).1.recedes).trans hdiagram.stays.recedes

/-- What a whole run shows. -/
theorem look?_of_write (h : runOn (g.write appRoot entitiesRoot) t = (.ok report, t'))
    (hdown : g.GoesDown appRoot entitiesRoot) (l : Location) :
    t'.root.look? l = g.shownByRun t.workingDirectory appRoot entitiesRoot l
      ((g.wiped appRoot t).root.look? l) := by
  obtain ⟨t₁, report', l', hremove, hfiles, hdiagram, _⟩ := write_eq_ok h
  have hwiped := (removeGenerated_eq_ok hremove).2.1
  have hstays := (stays_of_writeFiles hfiles).1
  have hkept : ¬ IsKept entitiesRoot t₁ g.diagramFile := by
    rintro ⟨hmode, _⟩
    cases hmode
  unfold shownByRun
  rw [← hwiped.workingDirectory, ← look?_of_writeFiles_eq hfiles hdown.files,
    ← hstays.workingDirectory]
  exact hdiagram.shownAfter hdown.diagram hkept

/-- A file stays a file; only its contents may change. -/
theorem exists_shownByRun_file (g : Generation) (w : Location) (appRoot entitiesRoot : String)
    (l : Location) (c : ByteArray) :
    ∃ c', g.shownByRun w appRoot entitiesRoot l (some (some c)) = some (some c') := by
  obtain ⟨c₁, hc₁⟩ := exists_foldl_shownAfter_file w appRoot l g.files c
  unfold shownByRun
  rw [hc₁]
  exact exists_shownAfter_file w entitiesRoot l g.diagramFile c₁

/-- What is generated after a run was generated before: where a file stood in the place of the
directory, there is one still. -/
theorem inGenerated_before (h : runOn (g.write appRoot entitiesRoot) t = (.ok report, t₁))
    (hdown : g.GoesDown appRoot entitiesRoot) (hafter : g.InGenerated appRoot t₁ l) :
    g.InGenerated appRoot t l := by
  obtain ⟨_, _, _, hremove, _⟩ := write_eq_ok h
  have hrecedes := recedes_of_write h
  obtain ⟨hstarts, d, hdest, hbelow, hfree⟩ := hafter
  rw [hrecedes.workingDirectory] at hdest
  refine ⟨hrecedes.starts hstarts, d, hdest, hbelow, ?_⟩
  intro c hc
  have hother : ¬ g.InGenerated appRoot t d := by
    rintro ⟨_, d', hdest', _, hfree'⟩
    obtain rfl : d = d' := Option.some.inj (hdest.symm.trans hdest')
    exact hfree' c hc
  obtain ⟨c', hc'⟩ := exists_shownByRun_file g t.workingDirectory appRoot entitiesRoot d c
  apply hfree c'
  rw [look?_of_write h hdown, look?_wiped_of_not_inGenerated hremove hdown.directory hother, hc,
    hc']

/-- A second run that succeeds changes nothing: whatever a location shows after the first run
it shows after the second. -/
theorem second_run_changes_nothing (hdirectory : Path.Descends g.generatedDirectory.toList)
    (hfiles : ∀ f ∈ g.files, Path.Descends f.path.toList) (happ : Path.GoesDown appRoot)
    (hentities : Path.GoesDown entitiesRoot)
    (h₁ : runOn (g.write appRoot entitiesRoot) t = (.ok report, t₁))
    (h₂ : runOn (g.write appRoot entitiesRoot) t₁ = (.ok report₂, t₂)) (l : Location) :
    t₂.root.look? l = t₁.root.look? l := by
  have hdown := goesDown_of_descends hdirectory hfiles happ hentities
  obtain ⟨_, _, _, hremove₁, _⟩ := write_eq_ok h₁
  obtain ⟨_, _, _, hremove₂, _⟩ := write_eq_ok h₂
  have hfirst := look?_of_write h₁ hdown l
  rw [look?_of_write h₂ hdown l, (recedes_of_write h₁).workingDirectory]
  by_cases hgenerated : g.InGenerated appRoot t₁ l
  · -- both runs start from nothing at this location
    rw [look?_wiped_of_inGenerated hremove₂ hdown.directory hgenerated, hfirst,
      look?_wiped_of_inGenerated hremove₁ hdown.directory (inGenerated_before h₁ hdown hgenerated)]
  · rw [look?_wiped_of_not_inGenerated hremove₂ hdown.directory hgenerated, hfirst]
    exact (settles_shownByRun g t.workingDirectory appRoot entitiesRoot l).twice _

/-- A run with one class in the generated directory and one outside of it. -/
def twoClasses : Generation where
  files := [⟨"src/Entity/Generated/U.php", "base class", .regenerate⟩,
    ⟨"src/Entity/U.php", "class", .createIfMissing⟩]
  generatedDirectory := "src/Entity/Generated"
  diagram := "U"

/-- A tree in which the class outside was edited, and a file is left in the directory. It is
seen from the directory with the configuration. -/
def editedAndStale : FileTree := .seenFrom (.directory [("srv", .directory [
  ("app", .directory [("src", .directory [("Entity", .directory [
    ("Generated", .directory [("Old.php", .file "old class".toUTF8)]),
    ("U.php", .file "edited class".toUTF8)])])]),
  ("config", .directory [])])]) ["srv", "config"]

/-- There, with an absolute root for the application and a relative one for entities, the first
run removes the file that was left, and the second changes nothing. -/
theorem second_run_after_removal : ∃ r₁ t₁ r₂ t₂,
    runOn (twoClasses.write "/srv/app" ".") editedAndStale = (.ok r₁, t₁) ∧
    runOn (twoClasses.write "/srv/app" ".") t₁ = (.ok r₂, t₂) ∧
    t₁.read? "/srv/app/src/Entity/Generated/Old.php" = none ∧
    t₁.read? "/srv/config/generated/entities.txt" = some "U".toUTF8 ∧
    ∀ l, t₂.root.look? l = t₁.root.look? l := by
  obtain ⟨r₁, t₁, h₁, ⟨hgone, hdiagram⟩, hagain⟩ : ∃ r₁ t₁,
      runOn (twoClasses.write "/srv/app" ".") editedAndStale = (.ok r₁, t₁) ∧
      (t₁.read? "/srv/app/src/Entity/Generated/Old.php" = none ∧
        t₁.read? "/srv/config/generated/entities.txt" = some "U".toUTF8) ∧
      ((runOn (twoClasses.write "/srv/app" ".") t₁).1.toOption.any fun _ => decide True) = true :=
    exists_run_of_any (by decide +kernel)
  obtain ⟨r₂, t₂, h₂, _⟩ := exists_run_of_any (P := fun _ _ => True) hagain
  exact ⟨r₁, t₁, r₂, t₂, h₁, h₂, hgone, hdiagram,
    second_run_changes_nothing (by decide) (by decide) (by decide) (by decide) h₁ h₂⟩

end Generation
end OrmGen

/-
  The tree after a run, described by the tree before it and the files of the run, without the
  run (`Aftermath`). The locations fall into three groups that may overlap: those in the
  generated directory (`Generation.InGenerated`), those that files of the run or the diagram
  lead to (`Generation.places`), and all others.

  * Elsewhere every file stays as it is, and no file is added.
  * In the generated directory there are exactly the files of the run.
  * At the place of a file that is regenerated stands the last such file, and at one that only
    scaffolds lead to stands what was there, or else the first scaffold. The diagram is written
    last.

  It is shown of every run that succeeds (`aftermath_of_write`). The files may repeat and
  overlap with the generated directory, but none may lie above another one.

  A file in the place of the generated directory is not removed. A run with such a file only
  succeeds if the path of the directory goes on behind it, with a slash at the end; the file
  is then kept as any other (`stale_file_kept_behind_slash`).
-/
import OrmGen.Proofs.Disk.Outcome
import OrmGen.Run

namespace OrmGen

open FileTree OutputFile

/-! ## Steps at one location -/

namespace OutputFile

variable {w : Location} {root : String} {f : OutputFile} {fs pre post : List OutputFile} {l : Location}
  {c : ByteArray} {x : Option ByteArray} {v : Option (Option ByteArray)}

/-- A scaffold leaves alone what is there. -/
theorem shownAfter_some (h : f.LeadsTo w root l → f.mode = .createIfMissing) :
    f.shownAfter w root l (some x) = some x := by
  by_cases hleads : f.LeadsTo w root l
  · rw [shownAfter_createIfMissing hleads (h hleads), Option.some_or]
  · rw [shownAfter_elsewhere hleads]
    split
    · exact Option.some_or
    · rfl

theorem foldl_shownAfter_some (h : ∀ f ∈ fs, f.LeadsTo w root l → f.mode = .createIfMissing) :
    fs.foldl (shownAfter w root l) (some x) = some x := by
  induction fs with
  | nil => rfl
  | cons f fs ih =>
    rw [List.forall_mem_cons] at h
    rw [List.foldl_cons, shownAfter_some h.1, ih h.2]

/-- A file shows only at its own place. -/
theorem shownAfter_eq_file_iff (h : ¬ f.LeadsTo w root l) :
    f.shownAfter w root l v = some (some c) ↔ v = some (some c) := by
  rw [shownAfter_elsewhere h]
  split
  · cases v with
    | none => simp
    | some x => rw [Option.some_or]
  · rfl

theorem foldl_shownAfter_eq_file_iff (h : ∀ f ∈ fs, ¬ f.LeadsTo w root l) :
    fs.foldl (shownAfter w root l) v = some (some c) ↔ v = some (some c) := by
  induction fs generalizing v with
  | nil => rfl
  | cons f fs ih =>
    rw [List.forall_mem_cons] at h
    rw [List.foldl_cons, ih h.2, shownAfter_eq_file_iff h.1]

/-- Files that do not pass a location show nothing there. -/
theorem foldl_shownAfter_none (h : ∀ f ∈ fs, ¬ f.LeadsTo w root l ∧
    l ∉ passedBy w (Path.join root f.path)) : fs.foldl (shownAfter w root l) none = none := by
  induction fs with
  | nil => rfl
  | cons f fs ih =>
    rw [List.forall_mem_cons] at h
    rw [List.foldl_cons, shownAfter_elsewhere h.1.1, if_neg h.1.2, ih h.2]

/-- Where nothing was, a file is found that the first one to lead there, or a later one, has
put there. -/
theorem exists_foldl_shownAfter_none (hleads : ∃ f ∈ fs, f.LeadsTo w root l)
    (hpassed : ∀ f ∈ fs, ¬ f.LeadsTo w root l → l ∉ passedBy w (Path.join root f.path)) :
    ∃ c, fs.foldl (shownAfter w root l) none = some (some c) := by
  induction fs with
  | nil => simp at hleads
  | cons f fs ih =>
    rw [List.exists_mem_cons_iff] at hleads
    rw [List.forall_mem_cons] at hpassed
    rw [List.foldl_cons]
    by_cases hf : f.LeadsTo w root l
    · have hfirst : f.shownAfter w root l none = some (some f.contents.toUTF8) := by
        cases hmode : f.mode with
        | regenerate => rw [shownAfter_regenerate hf hmode]
        | createIfMissing => rw [shownAfter_createIfMissing hf hmode, Option.none_or]
      rw [hfirst]
      exact exists_foldl_shownAfter_file w root l fs _
    · rw [shownAfter_elsewhere hf, if_neg (hpassed.1 hf)]
      exact ih (hleads.resolve_left hf) hpassed.2

/-- The last file that is regenerated decides. -/
theorem foldl_shownAfter_regenerate (hf : f.LeadsTo w root l) (hmode : f.mode = .regenerate)
    (hlast : ∀ f' ∈ post, f'.LeadsTo w root l → f'.mode = .createIfMissing) :
    (pre ++ f :: post).foldl (shownAfter w root l) v = some (some f.contents.toUTF8) := by
  rw [List.foldl_append, List.foldl_cons, shownAfter_regenerate hf hmode,
    foldl_shownAfter_some hlast]

/-- Among scaffolds the first one decides, if nothing is there. -/
theorem foldl_shownAfter_createIfMissing (hf : f.LeadsTo w root l)
    (hfirst : ∀ f' ∈ pre, ¬ f'.LeadsTo w root l ∧ l ∉ passedBy w (Path.join root f'.path))
    (hmodes : ∀ f' ∈ f :: post, f'.LeadsTo w root l → f'.mode = .createIfMissing) :
    (pre ++ f :: post).foldl (shownAfter w root l) none = some (some f.contents.toUTF8) := by
  rw [List.forall_mem_cons] at hmodes
  rw [List.foldl_append, foldl_shownAfter_none hfirst, List.foldl_cons,
    shownAfter_createIfMissing hf (hmodes.1 hf), Option.none_or, foldl_shownAfter_some hmodes.2]

end OutputFile

/-! ## Places -/

namespace Generation

variable {g : Generation} {t t' : FileTree} {appRoot entitiesRoot : String} {f : OutputFile}
  {fs pre post : List OutputFile} {report : WriteReport} {l d w : Location} {c : ByteArray}
  {x : Option ByteArray} {v : Option (Option ByteArray)}

/-- The locations that the files of a run and its diagram lead to. -/
def places (g : Generation) (w : Location) (appRoot entitiesRoot : String) : List Location :=
  g.files.filterMap (fun f => destination? w (Path.join appRoot f.path)) ++
    (destination? w (Path.join entitiesRoot diagramPath)).toList

theorem mem_places_iff : l ∈ g.places w appRoot entitiesRoot ↔
    (∃ f ∈ g.files, f.LeadsTo w appRoot l) ∨ g.diagramFile.LeadsTo w entitiesRoot l := by
  unfold places
  rw [List.mem_append, List.mem_filterMap, Option.mem_toList]
  rfl

/-- No file of a run lies above another one. -/
def Apart (ls : List Location) : Prop := ∀ l ∈ ls, ∀ l' ∈ ls, l <+: l' → l = l'

instance (ls : List Location) : Decidable (Apart ls) :=
  inferInstanceAs (Decidable (∀ l ∈ ls, ∀ l' ∈ ls, l <+: l' → l = l'))

/-- Where files lie apart, no file leads through the place of another one. -/
theorem notMem_passedBy {root : String} {ls : List Location} (happart : Apart ls) (hl : l ∈ ls)
    (hplace : ∃ l' ∈ ls, f.LeadsTo w root l') (hdown : Path.GoesDown (Path.join root f.path))
    (hf : ¬ f.LeadsTo w root l) : l ∉ passedBy w (Path.join root f.path) := by
  obtain ⟨l', hl', hleads⟩ := hplace
  intro hpassed
  obtain rfl := happart l hl l' hl' (prefix_of_mem_passedBy hdown hleads hpassed)
  exact hf hleads

/-- Every file that is written, or kept, has a place. -/
theorem exists_leadsTo (h : runOn (writeFiles appRoot fs) t = (.ok report, t')) :
    ∀ f ∈ fs, ∃ l, f.LeadsTo t.workingDirectory appRoot l :=
  fun f hf => ((stays_of_writeFiles h).2 f hf).exists_destination

/-! ## Whole runs at one location -/

theorem shownByRun_of_diagram (h : g.diagramFile.LeadsTo w entitiesRoot l) :
    g.shownByRun w appRoot entitiesRoot l v = some (some g.diagram.toUTF8) :=
  shownAfter_regenerate h rfl

/-- Away from the diagram, what the files of the run show stays. -/
theorem shownByRun_of_files (h : ¬ g.diagramFile.LeadsTo w entitiesRoot l)
    (hfiles : g.files.foldl (shownAfter w appRoot l) v = some x) :
    g.shownByRun w appRoot entitiesRoot l v = some x := by
  unfold shownByRun
  rw [hfiles]
  exact shownAfter_some fun hleads => absurd hleads h

theorem shownByRun_eq_file_iff (h : l ∉ g.places w appRoot entitiesRoot) :
    g.shownByRun w appRoot entitiesRoot l v = some (some c) ↔ v = some (some c) := by
  rw [mem_places_iff, not_or] at h
  unfold shownByRun
  rw [shownAfter_eq_file_iff h.2]
  exact foldl_shownAfter_eq_file_iff fun f hf hleads => h.1 ⟨f, hf, hleads⟩

/-- Where nothing was, a file is found at each place afterwards. -/
theorem exists_shownByRun_none (hl : l ∈ g.places w appRoot entitiesRoot)
    (hpassed : ∀ f ∈ g.files, ¬ f.LeadsTo w appRoot l → l ∉ passedBy w (Path.join appRoot f.path)) :
    ∃ c, g.shownByRun w appRoot entitiesRoot l none = some (some c) := by
  by_cases hdiagram : g.diagramFile.LeadsTo w entitiesRoot l
  · exact ⟨_, shownByRun_of_diagram hdiagram⟩
  · have hfile := (mem_places_iff.1 hl).resolve_right hdiagram
    obtain ⟨c, hc⟩ := exists_foldl_shownAfter_none hfile hpassed
    exact ⟨c, shownByRun_of_files hdiagram hc⟩

/-- Where nothing was, and only scaffolds lead, the first of them is found afterwards. -/
theorem shownByRun_of_first (hsplit : g.files = pre ++ f :: post) (hf : f.LeadsTo w appRoot l)
    (hfirst : ∀ f' ∈ pre, ¬ f'.LeadsTo w appRoot l)
    (hmodes : ∀ f' ∈ g.files, f'.LeadsTo w appRoot l → f'.mode = .createIfMissing)
    (hpassed : ∀ f' ∈ g.files, ¬ f'.LeadsTo w appRoot l → l ∉ passedBy w (Path.join appRoot f'.path))
    (hnot : ¬ g.diagramFile.LeadsTo w entitiesRoot l) :
    g.shownByRun w appRoot entitiesRoot l none = some (some f.contents.toUTF8) := by
  rw [hsplit, List.forall_mem_append] at hmodes hpassed
  apply shownByRun_of_files hnot
  rw [hsplit]
  exact foldl_shownAfter_createIfMissing hf
    (fun f' hf' => ⟨hfirst f' hf', hpassed.1 f' hf' (hfirst f' hf')⟩) hmodes.2

/-- A file in the place of the generated directory is not removed, so its path goes on. -/
theorem mem_passedBy_of_obstructed {t₁ : FileTree}
    (hremove : runOn (g.removeGenerated appRoot) t = (.ok (), t₁))
    (hdown : Path.GoesDown (Path.join appRoot g.generatedDirectory))
    (hstarts : t.Starts (Path.join appRoot g.generatedDirectory))
    (hdest : destination? t.workingDirectory (Path.join appRoot g.generatedDirectory) = some d)
    (hc : t.root.look? d = some (some c)) :
    d ∈ passedBy t.workingDirectory (Path.join appRoot g.generatedDirectory) := by
  have hlocate : t.locate? (Path.join appRoot g.generatedDirectory) ≠ some d := by
    intro hlocate
    obtain ⟨_, _, d', hdest', _, hfree⟩ :=
      look?_of_wipes hremove hdown ⟨d, hlocate, List.prefix_rfl⟩
    obtain rfl : d = d' := Option.some.inj (hdest.symm.trans hdest')
    exact hfree c hc
  have hsome : (t.root.look? d).isSome = true := by rw [hc, Option.isSome_some]
  exact (file_of_not_located hdown hstarts hdest hlocate List.prefix_rfl hsome).2.1

/-! ## The whole tree -/

/-- What a run has made of the tree `t`. -/
structure Aftermath (g : Generation) (appRoot entitiesRoot : String) (t t' : FileTree) : Prop where
  /-- Everything has a place. -/
  placed : (∀ f ∈ g.files, ∃ l, f.LeadsTo t.workingDirectory appRoot l) ∧
    ∃ l, g.diagramFile.LeadsTo t.workingDirectory entitiesRoot l
  elsewhere : ∀ l, ¬ g.InGenerated appRoot t l →
    l ∉ g.places t.workingDirectory appRoot entitiesRoot →
    ∀ c, t'.root.look? l = some (some c) ↔ t.root.look? l = some (some c)
  generated : ∀ l, g.InGenerated appRoot t l →
    ((∃ c, t'.root.look? l = some (some c)) ↔
      l ∈ g.places t.workingDirectory appRoot entitiesRoot)
  regenerated : ∀ pre f post l, g.files = pre ++ f :: post → f.mode = .regenerate →
    f.LeadsTo t.workingDirectory appRoot l →
    (∀ f' ∈ post, f'.LeadsTo t.workingDirectory appRoot l → f'.mode = .createIfMissing) →
    ¬ g.diagramFile.LeadsTo t.workingDirectory entitiesRoot l →
    t'.root.look? l = some (some f.contents.toUTF8)
  kept : ∀ l c,
    (∀ f ∈ g.files, f.LeadsTo t.workingDirectory appRoot l → f.mode = .createIfMissing) →
    ¬ g.diagramFile.LeadsTo t.workingDirectory entitiesRoot l → ¬ g.InGenerated appRoot t l →
    t.root.look? l = some (some c) → t'.root.look? l = some (some c)
  created : ∀ pre f post l, g.files = pre ++ f :: post →
    f.LeadsTo t.workingDirectory appRoot l →
    (∀ f' ∈ pre, ¬ f'.LeadsTo t.workingDirectory appRoot l) →
    (∀ f' ∈ g.files, f'.LeadsTo t.workingDirectory appRoot l → f'.mode = .createIfMissing) →
    ¬ g.diagramFile.LeadsTo t.workingDirectory entitiesRoot l →
    (t.root.look? l = none ∨ g.InGenerated appRoot t l) →
    t'.root.look? l = some (some f.contents.toUTF8)
  diagram : ∀ l, g.diagramFile.LeadsTo t.workingDirectory entitiesRoot l →
    t'.root.look? l = some (some g.diagram.toUTF8)
  /-- A file in the place of the generated directory is not the last thing on its path. -/
  obstructed : ∀ d c, t.Starts (Path.join appRoot g.generatedDirectory) →
    destination? t.workingDirectory (Path.join appRoot g.generatedDirectory) = some d →
    t.root.look? d = some (some c) →
    d ∈ passedBy t.workingDirectory (Path.join appRoot g.generatedDirectory)

/-- Every run that succeeds leaves the tree that `Aftermath` describes. -/
theorem aftermath_of_write (hdirectory : Path.Descends g.generatedDirectory.toList)
    (hfiles : ∀ f ∈ g.files, Path.Descends f.path.toList) (happ : Path.GoesDown appRoot)
    (hentities : Path.GoesDown entitiesRoot)
    (hapart : Apart (g.places t.workingDirectory appRoot entitiesRoot))
    (h : runOn (g.write appRoot entitiesRoot) t = (.ok report, t')) :
    g.Aftermath appRoot entitiesRoot t t' := by
  have hdown := goesDown_of_descends hdirectory hfiles happ hentities
  obtain ⟨t₁, _, ld, hremove, hwrites, hdiagram, _⟩ := write_eq_ok h
  have hsame₀ : (g.wiped appRoot t).workingDirectory = t.workingDirectory :=
    (removeGenerated_eq_ok hremove).2.1.workingDirectory
  have hsame₁ : t₁.workingDirectory = t.workingDirectory :=
    (stays_of_writeFiles hwrites).1.workingDirectory.trans hsame₀
  have hplaced : ∀ f ∈ g.files, ∃ l, f.LeadsTo t.workingDirectory appRoot l :=
    hsame₀ ▸ exists_leadsTo hwrites
  have hgenerated : ∀ l, g.InGenerated appRoot t l →
      t'.root.look? l = g.shownByRun t.workingDirectory appRoot entitiesRoot l none := by
    intro l hl
    rw [look?_of_write h hdown, look?_wiped_of_inGenerated hremove hdown.directory hl]
  have hother : ∀ l, ¬ g.InGenerated appRoot t l → t'.root.look? l =
      g.shownByRun t.workingDirectory appRoot entitiesRoot l (t.root.look? l) := by
    intro l hl
    rw [look?_of_write h hdown, look?_wiped_of_not_inGenerated hremove hdown.directory hl]
  have hpassed : ∀ l ∈ g.places t.workingDirectory appRoot entitiesRoot, ∀ f ∈ g.files,
      ¬ f.LeadsTo t.workingDirectory appRoot l →
      l ∉ passedBy t.workingDirectory (Path.join appRoot f.path) := by
    intro l hl f hf
    obtain ⟨l', hl'⟩ := hplaced f hf
    exact notMem_passedBy hapart hl ⟨l', mem_places_iff.2 (.inl ⟨f, hf, hl'⟩), hl'⟩
      (hdown.files f hf)
  constructor
  case placed => exact ⟨hplaced, ld, hsame₁ ▸ hdiagram.destination⟩
  case elsewhere =>
    intro l hl hplace c
    rw [hother l hl, shownByRun_eq_file_iff hplace]
  case generated =>
    intro l hl
    rw [hgenerated l hl]
    constructor
    · rintro ⟨c, hc⟩
      by_contra hplace
      rw [shownByRun_eq_file_iff hplace] at hc
      cases hc
    · intro hplace
      exact exists_shownByRun_none hplace (hpassed l hplace)
  case regenerated =>
    intro pre f post l hsplit hmode hleads hlast hnot
    rw [look?_of_write h hdown]
    apply shownByRun_of_files hnot
    rw [hsplit]
    exact foldl_shownAfter_regenerate hleads hmode hlast
  case kept =>
    intro l c hmodes hnot hl hc
    rw [hother l hl, hc]
    exact shownByRun_of_files hnot (foldl_shownAfter_some hmodes)
  case created =>
    intro pre f post l hsplit hleads hfirst hmodes hnot hmissing
    have hnone : t'.root.look? l =
        g.shownByRun t.workingDirectory appRoot entitiesRoot l none := by
      by_cases hl : g.InGenerated appRoot t l
      · exact hgenerated l hl
      · rw [hother l hl, hmissing.resolve_right hl]
    have hl : l ∈ g.places t.workingDirectory appRoot entitiesRoot := by
      rw [mem_places_iff, hsplit]
      exact .inl ⟨f, by simp, hleads⟩
    rw [hnone]
    exact shownByRun_of_first hsplit hleads hfirst hmodes (hpassed l hl) hnot
  case diagram =>
    intro l hl
    rw [look?_of_write h hdown, shownByRun_of_diagram hl]
  case obstructed =>
    intro d c hstarts hdest hc
    exact mem_passedBy_of_obstructed hremove hdown.directory hstarts hdest hc

/-- So it is with one class in the generated directory and an edited one outside of it, below an
absolute root, and with the diagram in the working directory. -/
theorem aftermath_of_two_classes : ∃ report t',
    runOn (twoClasses.write "/srv/app" ".") editedAndStale = (.ok report, t') ∧
      twoClasses.Aftermath "/srv/app" "." editedAndStale t' ∧
      twoClasses.places ["srv", "config"] "/srv/app" "." =
        [["srv", "app", "src", "Entity", "Generated", "U.php"],
          ["srv", "app", "src", "Entity", "U.php"],
          ["srv", "config", "generated", "entities.txt"]] := by
  obtain ⟨report, t', h, _⟩ : ∃ report t',
      runOn (twoClasses.write "/srv/app" ".") editedAndStale = (.ok report, t') ∧ True :=
    exists_run_of_any (by decide +kernel)
  exact ⟨report, t', h, aftermath_of_write (by decide) (by decide) (by decide) (by decide)
    (by decide +kernel) h, by decide +kernel⟩

/-! ## A file in the place of the generated directory -/

/-- One enumeration, and a namespace for base classes that ends in a slash. -/
def slashNamespace : Config where
  entities := .object [("E", .null)]
  namespaces := { base := "Generated/" }

/-- A tree with a file in the place of the generated directory. -/
def obstructedTree : FileTree := .seenFrom (.directory [("src", .directory [
  ("Entity", .directory [("Generated", .file "stale".toUTF8)])])]) []

/-- The run succeeds and leaves the file, although it stands at the place of the generated
directory and nothing of the run leads there. -/
theorem stale_file_kept_behind_slash : ∃ g report t', ofConfig slashNamespace = .ok g ∧
    Path.Descends g.generatedDirectory.toList ∧ (∀ f ∈ g.files, Path.Descends f.path.toList) ∧
    Apart (g.places [] "." ".") ∧ runOn (g.write "." ".") obstructedTree = (.ok report, t') ∧
    ∃ l c, destination? [] (Path.join "." g.generatedDirectory) = some l ∧
      t'.root.look? l = some (some c) ∧ l ∉ g.places [] "." "." := by
  obtain ⟨g, hg, hdirectory, hfiles, hapart, hdest, hplace, hrun⟩ : ∃ g,
      ofConfig slashNamespace = .ok g ∧ Path.Descends g.generatedDirectory.toList ∧
      (∀ f ∈ g.files, Path.Descends f.path.toList) ∧ Apart (g.places [] "." ".") ∧
      destination? [] (Path.join "." g.generatedDirectory) =
        some ["src", "Entity", "Generated"] ∧
      ["src", "Entity", "Generated"] ∉ g.places [] "." "." ∧
      ((runOn (g.write "." ".") obstructedTree).1.toOption.any fun _ =>
        decide ((runOn (g.write "." ".") obstructedTree).2.root.look?
          ["src", "Entity", "Generated"] = some (some "stale".toUTF8))) = true :=
    exists_ok_of_any (by decide +kernel)
  obtain ⟨report, t', h, hstale⟩ := exists_run_of_any
    (P := fun _ t' => t'.root.look? ["src", "Entity", "Generated"] =
      some (some "stale".toUTF8)) hrun
  exact ⟨g, report, t', hg, hdirectory, hfiles, hapart, h, _, _, hdest, hstale, hplace⟩

end Generation
end OrmGen

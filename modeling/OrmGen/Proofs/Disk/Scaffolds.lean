/-
  When scaffolds survive. A class that was edited by hand is at risk from two sides: the
  removal of the generated directory (`Generation.Wipes`) and files of the run that lead to
  the same location (`Generation.Overwrites`). Where neither reaches it, it is kept and
  reported as skipped, and where one of them does, its contents are gone
  (`edited_scaffold_kept_iff`). Nothing in a configuration keeps the two away: without a
  namespace for base classes the generated directory is the one of the classes themselves
  (`scaffold_lost_without_base_namespace`).
-/
import OrmGen.Proofs.Disk.Effects
import OrmGen.Proofs.Mapping.Run

namespace OrmGen

open FileTree

namespace Generation

variable {config : Config} {g : Generation} {t t' t₁ : FileTree} {w : Location}
  {root appRoot entitiesRoot : String}
  {f : OutputFile} {fs : List OutputFile} {report : WriteReport} {l : Location} {c : ByteArray}

/-! ## Files that lead to a location -/

/-- A file of `fs` is written to `l` when a run starts with the tree `t`: it is no scaffold, or
its path leads through a location that is no directory in `t` and that no earlier file has
led through. -/
def Overwrites (root : String) (t : FileTree) (fs : List OutputFile) (l : Location) : Prop :=
  ∃ pre f post, fs = pre ++ f :: post ∧
    destination? t.workingDirectory (Path.join root f.path) = some l ∧
    (f.mode = .regenerate ∨
      ∃ d ∈ passedBy t.workingDirectory (Path.join root f.path), t.root.hasDirectory d ≠ true ∧
        ∀ f' ∈ pre, d ∉ passedBy t.workingDirectory (Path.join root f'.path))

theorem overwrites_cons (hstays : Stays t t₁) (hdirs : ∀ d, t₁.root.hasDirectory d = true ↔
      t.root.hasDirectory d = true ∨ d ∈ passedBy t.workingDirectory (Path.join root f.path)) :
    Overwrites root t (f :: fs) l ↔
      (destination? t.workingDirectory (Path.join root f.path) = some l ∧
        (f.mode = .regenerate ∨
          ∃ d ∈ passedBy t.workingDirectory (Path.join root f.path),
            t.root.hasDirectory d ≠ true)) ∨
      Overwrites root t₁ fs l := by
  unfold Overwrites
  rw [hstays.workingDirectory]
  constructor
  · rintro ⟨pre, f', post, hsplit, hdest, hcause⟩
    cases pre with
    | nil =>
      cases hsplit
      simp only [List.not_mem_nil, false_implies, implies_true, and_true] at hcause
      exact .inl ⟨hdest, hcause⟩
    | cons f₀ pre =>
      rw [List.cons_append, List.cons.injEq] at hsplit
      obtain ⟨rfl, hsplit⟩ := hsplit
      refine .inr ⟨pre, f', post, hsplit, hdest, hcause.imp_right ?_⟩
      rintro ⟨d, hd, hnot, hfirst⟩
      rw [List.forall_mem_cons] at hfirst
      refine ⟨d, hd, ?_, hfirst.2⟩
      rw [Ne, hdirs, not_or]
      exact ⟨hnot, hfirst.1⟩
  · rintro (⟨hdest, hcause⟩ | ⟨pre, f', post, hsplit, hdest, hcause⟩)
    · refine ⟨[], f, fs, rfl, hdest, hcause.imp_right ?_⟩
      rintro ⟨d, hd, hnot⟩
      exact ⟨d, hd, hnot, by simp⟩
    · refine ⟨f :: pre, f', post, by rw [hsplit, List.cons_append], hdest, hcause.imp_right ?_⟩
      rintro ⟨d, hd, hnot, hfirst⟩
      rw [Ne, hdirs, not_or] at hnot
      exact ⟨d, hd, hnot.1, List.forall_mem_cons.2 ⟨hnot.2, hfirst⟩⟩

theorem not_isKept (h : f.mode = .regenerate ∨
    ∃ d ∈ passedBy t.workingDirectory (Path.join root f.path),
      t.root.hasDirectory d ≠ true) : ¬ IsKept root t f := by
  rintro ⟨hmode, hhas⟩
  rcases h with h | ⟨d, hd, hnot⟩
  · rw [hmode] at h
    cases h
  · exact hnot (passedBy_of_has hhas d hd)

/-- Where something stands, a file that leads to it is kept unless it is written. -/
theorem isKept_of_not (hl : (t.root.look? l).isSome = true)
    (hstarts : t.Starts (Path.join root f.path))
    (hdest : destination? t.workingDirectory (Path.join root f.path) = some l)
    (h : ¬ (f.mode = .regenerate ∨ ∃ d ∈ passedBy t.workingDirectory (Path.join root f.path),
      t.root.hasDirectory d ≠ true)) : IsKept root t f := by
  rw [not_or] at h
  constructor
  · cases hmode : f.mode with
    | regenerate => exact absurd hmode h.1
    | createIfMissing => rfl
  · apply Option.isSome_iff_exists.2
    refine ⟨l, locate?_eq_some.2 ⟨hstarts, hdest, ?_, hl⟩⟩
    intro d hd
    by_contra hnot
    exact h.2 ⟨d, hd, hnot⟩

/-- A file that no file of the run is written over stays as it is, and the files that lead
to it are skipped. -/
theorem kept_of_not_overwrites (h : runOn (writeFiles root fs) t = (.ok report, t'))
    (hc : t.root.look? l = some (some c)) (hnot : ¬ Overwrites root t fs l) :
    t'.root.look? l = some (some c) ∧
      ∀ f ∈ fs, destination? t.workingDirectory (Path.join root f.path) = some l →
        Path.join root f.path ∈ report.skipped := by
  induction fs generalizing t report with
  | nil =>
    cases h
    exact ⟨hc, by simp⟩
  | cons f fs ih =>
    obtain ⟨t₁, report', hrest, hstays, hstarts, hdirs, hstep⟩ := writeFiles_cons_eq_ok h
    rw [overwrites_cons hstays hdirs, not_or] at hnot
    rw [← hstays.workingDirectory]
    have hl : (t.root.look? l).isSome = true := by rw [hc, Option.isSome_some]
    have hkept : destination? t₁.workingDirectory (Path.join root f.path) = some l →
        IsKept root t f := by
      rw [hstays.workingDirectory]
      exact fun hdest => isKept_of_not hl hstarts hdest fun hcause => hnot.1 ⟨hdest, hcause⟩
    rcases hstep with ⟨_, rfl, rfl⟩ | ⟨hwrites, ⟨l', hwritten⟩, rfl⟩
    · obtain ⟨hafter, hskipped⟩ := ih hrest hc hnot.2
      refine ⟨hafter, ?_⟩
      rw [List.forall_mem_cons]
      exact ⟨fun _ => List.mem_cons_self,
        fun f' hf' hdest => List.mem_cons_of_mem _ (hskipped f' hf' hdest)⟩
    · have hother : l ≠ l' := by
        rintro rfl
        exact hwrites (hkept (hstays.workingDirectory ▸ hwritten.destination))
      have hc₁ : t₁.root.look? l = some (some c) := by
        rw [hwritten.file, if_neg hother]
        exact hc
      obtain ⟨hafter, hskipped⟩ := ih hrest hc₁ hnot.2
      refine ⟨hafter, ?_⟩
      rw [List.forall_mem_cons]
      exact ⟨fun hdest => absurd (hkept hdest) hwrites, hskipped⟩

/-- Where a file of the run is written, only texts of such files are found afterwards. -/
theorem text_of_overwrites (h : runOn (writeFiles root fs) t = (.ok report, t'))
    (hover : Overwrites root t fs l) (hc : t'.root.look? l = some (some c)) :
    ∃ f ∈ fs, destination? t.workingDirectory (Path.join root f.path) = some l ∧
      c = f.contents.toUTF8 := by
  induction fs generalizing t report with
  | nil =>
    obtain ⟨pre, f, post, hsplit, _⟩ := hover
    cases pre <;> cases hsplit
  | cons f fs ih =>
    obtain ⟨t₁, report', hrest, hstays, _, hdirs, hstep⟩ := writeFiles_cons_eq_ok h
    rw [overwrites_cons hstays hdirs] at hover
    rw [List.exists_mem_cons_iff, ← hstays.workingDirectory]
    rcases hover with ⟨hdest, hcause⟩ | hover
    · rcases hstep with ⟨hkept, _⟩ | ⟨_, ⟨l', hwritten⟩, _⟩
      · exact absurd hkept (not_isKept hcause)
      · obtain rfl : l = l' := Option.some.inj (hdest.symm.trans hwritten.destination)
        rcases look?_of_writeFiles hrest hc with hfirst | hlater
        · rw [hwritten.file, if_pos rfl] at hfirst
          rw [hstays.workingDirectory]
          exact .inl ⟨hdest, hfirst⟩
        · exact .inr hlater
    · exact .inr (ih hrest hover)

/-! ## Where classes and the diagram go -/

theorem exists_join_path_eq (root : String) (hg : ofConfig config = .ok g) (hf : f ∈ g.files) :
    ∃ s, Path.join root f.path = s ++ ".php" := by
  obtain ⟨s, hrun⟩ := run_of_ofConfig hg
  obtain ⟨_, _, mode, c, _, rfl⟩ := hrun.mem_files_iff.1 hf
  unfold fileOf Php.classPath
  obtain ⟨pre, hpre⟩ := Path.exists_join_eq (Php.namespaceDirectory config.appNamespace c.ns)
    (c.name ++ ".php")
  obtain ⟨pre', hpre'⟩ := Path.exists_join_eq root (pre ++ (c.name ++ ".php"))
  refine ⟨pre' ++ pre ++ c.name, ?_⟩
  simp only [hpre, hpre', String.append_assoc]

/-- The path of a class ends in a name. -/
theorem exists_segments_of_class (hg : ofConfig config = .ok g) (hf : f ∈ g.files)
    (hdest : destination? w (Path.join root f.path) = some l) :
    ∃ above name, segments? (Path.join root f.path) = some (above ++ [name ++ ".php"]) ∧
      isNameless (name ++ ".php") ≠ true ∧
      l = follow (origin w (Path.join root f.path)) above ++ [name ++ ".php"] := by
  obtain ⟨s, hs⟩ := exists_join_path_eq root hg hf
  have hdest' := hdest
  rw [destination?_eq] at hdest'
  obtain ⟨ss, hss, _⟩ := Option.map_eq_some_iff.1 hdest'
  rw [hs] at hss hdest ⊢
  obtain ⟨above, name, rfl⟩ := segments?_append (by decide) hss
  have hne : ∀ other : String, other.toList.getLast? ≠ some 'p' → name ++ ".php" ≠ other := by
    rintro _ hother rfl
    exact hother (getLast?_append_php name)
  have hname : isNameless (name ++ ".php") ≠ true := by
    unfold isNameless isIdle
    simp [hne "" (by decide), hne "." (by decide), hne ".." (by decide)]
  rw [destination?_concat hss hname, Option.some.injEq] at hdest
  exact ⟨above, name, hss, hname, hdest.symm⟩

/-- The diagram is not written over a class. -/
theorem diagram_destination_ne (hg : ofConfig config = .ok g) (hf : f ∈ g.files)
    (hclass : destination? w (Path.join root f.path) = some l) :
    destination? w (Path.join entitiesRoot diagramPath) ≠ some l := by
  intro hdiagram
  obtain ⟨above, name, _, _, hl⟩ := exists_segments_of_class hg hf hclass
  obtain ⟨s, hs⟩ := Path.exists_join_eq entitiesRoot diagramPath
  have hparts : s ++ diagramPath = s ++ "generated" ++ "/" ++ "entities.txt" := by
    rw [String.append_assoc, String.append_assoc]
    rfl
  rw [hs, hparts] at hdiagram
  have hdiagram' := hdiagram
  rw [destination?_eq] at hdiagram'
  obtain ⟨ss, hss, _⟩ := Option.map_eq_some_iff.1 hdiagram'
  obtain ⟨above', rfl⟩ := segments?_append_slash (by decide) hss
  rw [destination?_concat hss (by decide), hl, Option.some.injEq] at hdiagram
  have hlast := congrArg List.getLast? hdiagram
  rw [List.getLast?_concat, List.getLast?_concat, Option.some.injEq] at hlast
  have hend := getLast?_append_php name
  rw [← hlast] at hend
  exact absurd hend (by decide)

/-- Where the paths of a run never lead upward, a class that is there is written over only by
files that are not scaffolds. -/
theorem overwrites_iff (hg : ofConfig config = .ok g)
    (hup : ∀ f ∈ g.files, ∀ ss, segments? (Path.join root f.path) = some ss → ".." ∉ ss)
    (hc : t.root.look? l = some (some c)) :
    Overwrites root t g.files l ↔ ∃ f ∈ g.files, f.mode = .regenerate ∧
      destination? t.workingDirectory (Path.join root f.path) = some l := by
  constructor
  · rintro ⟨pre, f, post, hsplit, hdest, hcause⟩
    have hf : f ∈ g.files := by
      rw [hsplit]
      exact List.mem_append_right _ List.mem_cons_self
    rcases hcause with hmode | ⟨d, hd, hnot, _⟩
    · exact ⟨f, hf, hmode, hdest⟩
    -- every directory on the way lies above the class, which is there
    obtain ⟨above, name, hss, hname, hl⟩ := exists_segments_of_class hg hf hdest
    have habove : ".." ∉ above := fun hmem => hup f hf _ hss (List.mem_append_left _ hmem)
    rw [passedBy_concat hss hname] at hd
    have hdirectory : t.root.hasDirectory
        (follow (origin t.workingDirectory (Path.join root f.path)) above) = true := by
      apply Node.hasDirectory_of_isSome (n := name ++ ".php") (q := [])
      rw [← hl, hc, Option.isSome_some]
    exact absurd (Node.hasDirectory_above hdirectory (prefix_of_mem_way habove hd)) hnot
  · rintro ⟨f, hf, hmode, hdest⟩
    obtain ⟨pre, post, hsplit⟩ := List.append_of_mem hf
    exact ⟨pre, f, post, hsplit, hdest, .inl hmode⟩

/-! ## Survival -/

/-- A file of a run whose path holds a file before the run is kept and reported as skipped if
its location is not in the generated directory and no file of the run is written to it. If
it holds something else than the run would put there, as a class does that was edited, these
are also the only cases in which it is kept. -/
theorem edited_scaffold_kept_iff (hg : ofConfig config = .ok g)
    (hwrite : runOn (g.write appRoot entitiesRoot) t = (.ok report, t')) (hf : f ∈ g.files)
    (hc : t.read? (Path.join appRoot f.path) = some c) :
    ∃ l, t.locate? (Path.join appRoot f.path) = some l ∧
      (¬ g.Wipes appRoot t l → ¬ Overwrites appRoot (g.wiped appRoot t) g.files l →
        t'.read? (Path.join appRoot f.path) = some c ∧
          Path.join appRoot f.path ∈ report.skipped) ∧
      ((∀ f' ∈ g.files,
          destination? t.workingDirectory (Path.join appRoot f'.path) = some l →
            c ≠ f'.contents.toUTF8) →
        t'.read? (Path.join appRoot f.path) = some c →
        ¬ g.Wipes appRoot t l ∧ ¬ Overwrites appRoot (g.wiped appRoot t) g.files l) := by
  obtain ⟨l, hl, hlc⟩ := read?_eq_some.1 hc
  obtain ⟨_, hdest, _, _⟩ := locate?_eq_some.1 hl
  obtain ⟨t₁, report', ld, hremove, hfiles, hdiagram, rfl⟩ := write_eq_ok hwrite
  obtain ⟨_, hrecedes, hother, hbelow⟩ := removeGenerated_eq_ok hremove
  obtain ⟨hstays, hstarts⟩ := stays_of_writeFiles hfiles
  have hsame₀ : (g.wiped appRoot t).workingDirectory = t.workingDirectory :=
    hrecedes.workingDirectory
  have hsame₁ : t₁.workingDirectory = t.workingDirectory :=
    hstays.workingDirectory.trans hsame₀
  have hsame : t'.workingDirectory = t.workingDirectory :=
    hdiagram.stays.workingDirectory.trans hsame₁
  have hld : l ≠ ld := by
    rintro rfl
    exact diagram_destination_ne hg hf hdest (hsame₁ ▸ hdiagram.destination)
  have hlook : ∀ c', t'.root.look? l = some (some c') ↔ t₁.root.look? l = some (some c') := by
    intro c'
    rw [hdiagram.file, if_neg hld]
  refine ⟨l, hl, ?_, ?_⟩
  · intro hwipes hover
    have hlc₀ : (g.wiped appRoot t).root.look? l = some (some c) := by
      rw [hother l hwipes]
      exact hlc
    obtain ⟨hafter, hreport⟩ := kept_of_not_overwrites hfiles hlc₀ hover
    have hafter' : t'.root.look? l = some (some c) := (hlook c).2 hafter
    refine ⟨read?_eq_some.2 ⟨l, locate?_eq_some.2 ⟨?_, ?_, ?_, ?_⟩, hafter'⟩, ?_⟩
    · exact hdiagram.stays.starts_iff.2 (hstays.starts_iff.2 (hstarts f hf))
    · rw [hsame]
      exact hdest
    · intro d hd
      rw [hsame] at hd
      have hd₁ : t₁.root.hasDirectory d = true :=
        (hasDirectory_of_writeFiles hfiles d).2 (.inr ⟨f, hf, hsame₀ ▸ hd⟩)
      exact (hdiagram.directory d).2 (.inl hd₁)
    · rw [hafter', Option.isSome_some]
    · exact hreport f hf (hsame₀ ▸ hdest)
  · intro hedited hkept
    obtain ⟨l', hl', hlc'⟩ := read?_eq_some.1 hkept
    obtain ⟨_, hdest', _, _⟩ := locate?_eq_some.1 hl'
    rw [hsame] at hdest'
    obtain rfl : l = l' := Option.some.inj (hdest.symm.trans hdest')
    rw [hlook] at hlc'
    have hnotText : ¬ ∃ f' ∈ g.files, destination? (g.wiped appRoot t).workingDirectory
        (Path.join appRoot f'.path) = some l ∧ c = f'.contents.toUTF8 := by
      rintro ⟨f', hf', hdest', htext⟩
      exact hedited f' hf' (hsame₀ ▸ hdest') htext
    constructor
    · intro hwipes
      rcases look?_of_writeFiles hfiles hlc' with hbefore | htext
      · exact hbelow l hwipes c hbefore
      · exact hnotText htext
    · intro hover
      exact hnotText (text_of_overwrites hfiles hover hlc')

/-- A configuration with one entity and no namespace for base classes. -/
def flatConfig : Config where
  entities := .object [("U", .object [("n", .object [("type", .string "string")])])]
  namespaces := { base := "" }

def editedText : ByteArray := "<?php // edited".toUTF8

/-- A tree in which the class of the entity was edited, seen from the directory of the
application. -/
def editedTree : FileTree := .seenFrom
  (.directory [("srv", .directory [("app", .directory [("src", .directory [
    ("Entity", .directory [("U.php", .file editedText)])])])])]) ["srv", "app"]

/-- The edited class is lost: without a namespace for base classes the generated directory is
the one that holds it. It is the same with a relative root and with an absolute one. -/
theorem scaffold_lost_without_base_namespace : ∃ g f r₁ t₁ r₂ t₂,
    ofConfig flatConfig = .ok g ∧ f ∈ g.files ∧ f.mode = .createIfMissing ∧
      f.path = "src/Entity/U.php" ∧
      runOn (g.write "." ".") editedTree = (.ok r₁, t₁) ∧
      editedTree.read? "./src/Entity/U.php" = some editedText ∧
      t₁.read? "./src/Entity/U.php" ≠ some editedText ∧
      "./src/Entity/U.php" ∉ r₁.skipped ∧
      runOn (g.write "/srv/app" "/srv/app/config") editedTree = (.ok r₂, t₂) ∧
      editedTree.read? "/srv/app/src/Entity/U.php" = some editedText ∧
      t₂.read? "/srv/app/src/Entity/U.php" ≠ some editedText ∧
      "/srv/app/src/Entity/U.php" ∉ r₂.skipped := by
  let place : Location := ["srv", "app", "src", "Entity", "U.php"]
  obtain ⟨g, hg, ⟨f, hf, hmode, hpath⟩, hedited, hdirectory, hrelative, habsolute⟩ : ∃ g,
      ofConfig flatConfig = .ok g ∧
      (∃ f ∈ g.files, f.mode = .createIfMissing ∧ f.path = "src/Entity/U.php") ∧
      (∀ root ∈ [".", "/srv/app"], ∀ f ∈ g.files,
        destination? editedTree.workingDirectory (Path.join root f.path) = some place →
          editedText ≠ f.contents.toUTF8) ∧
      (∀ root ∈ [".", "/srv/app"], editedTree.locate? (Path.join root g.generatedDirectory) =
        some ["srv", "app", "src", "Entity"]) ∧
      ((runOn (g.write "." ".") editedTree).1.toOption.any fun r => r.skipped = []) = true ∧
      ((runOn (g.write "/srv/app" "/srv/app/config") editedTree).1.toOption.any
        fun r => r.skipped = []) = true :=
    exists_ok_of_any (by decide +kernel)
  have hlocate : ∀ root ∈ [".", "/srv/app"],
      editedTree.locate? (Path.join root f.path) = some place := by
    rw [hpath]
    decide +kernel
  have hread : ∀ root ∈ [".", "/srv/app"],
      editedTree.read? (Path.join root f.path) = some editedText :=
    fun root hroot => read?_eq_some.2 ⟨_, hlocate root hroot, rfl⟩
  have hlost : ∀ root ∈ [".", "/srv/app"], ∀ entitiesRoot r t',
      runOn (g.write root entitiesRoot) editedTree = (.ok r, t') →
        t'.read? (Path.join root f.path) ≠ some editedText := by
    intro root hroot entitiesRoot r t' hwrite hkept
    obtain ⟨l, hl, _, honly⟩ := edited_scaffold_kept_iff hg hwrite hf (hread root hroot)
    obtain rfl : l = place := Option.some.inj (hl.symm.trans (hlocate root hroot))
    exact (honly (hedited root hroot) hkept).1
      ⟨["srv", "app", "src", "Entity"], hdirectory root hroot, by decide⟩
  obtain ⟨r₁, hr₁, hskipped₁⟩ := exists_ok_of_any hrelative
  obtain ⟨r₂, hr₂, hskipped₂⟩ := exists_ok_of_any habsolute
  have h₁ : runOn (g.write "." ".") editedTree =
      (.ok r₁, (runOn (g.write "." ".") editedTree).2) := Prod.ext hr₁ rfl
  have h₂ : runOn (g.write "/srv/app" "/srv/app/config") editedTree =
      (.ok r₂, (runOn (g.write "/srv/app" "/srv/app/config") editedTree).2) := Prod.ext hr₂ rfl
  have hpath₁ : Path.join "." f.path = "./src/Entity/U.php" := by
    rw [hpath]
    decide
  have hpath₂ : Path.join "/srv/app" f.path = "/srv/app/src/Entity/U.php" := by
    rw [hpath]
    decide
  rw [← hpath₁, ← hpath₂]
  refine ⟨g, f, r₁, _, r₂, _, hg, hf, hmode, hpath, h₁, hread _ (by simp),
    hlost _ (by simp) _ _ _ h₁, ?_, h₂, hread _ (by simp), hlost _ (by simp) _ _ _ h₂, ?_⟩
  · rw [hskipped₁]
    exact List.not_mem_nil
  · rw [hskipped₂]
    exact List.not_mem_nil

end Generation

end OrmGen

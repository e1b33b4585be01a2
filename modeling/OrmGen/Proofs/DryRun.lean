/-
  What a dry run says of the run itself. The configuration is loaded and the run made in memory
  before anything is written (`runOn_execute`), so a dry run and a run that fails up to there
  leave the tree as it is. A run that goes on takes the files in the order in which the dry run
  lists them, and reports each path as written or as skipped (`Follows`). The diagram is the
  last of both.
-/
import OrmGen.Proofs.CommandLine
import OrmGen.Proofs.Disk.Effects
import OrmGen.Run

namespace OrmGen

/-! ## Reports and lists -/

/-- A report on paths that were listed with their modes. Each is reported once for every time
that it is listed, in the order of the list, and only scaffolds are skipped. -/
structure WriteReport.Follows (report : WriteReport) (listed : List (WriteMode × String)) :
    Prop where
  together : (report.written ++ report.skipped).Perm (listed.map Prod.snd)
  written : report.written.Sublist (listed.map Prod.snd)
  skipped : report.skipped.Sublist
    ((listed.filter fun l => l.1 = .createIfMissing).map Prod.snd)
  regenerated : ((listed.filter fun l => l.1 = .regenerate).map Prod.snd).Sublist report.written

namespace WriteReport.Follows

variable {report : WriteReport} {listed : List (WriteMode × String)} {mode : WriteMode}
  {path : String}

theorem nil : Follows ⟨[], []⟩ [] := ⟨.refl _, .slnil, .slnil, .slnil⟩

theorem write (h : report.Follows listed) :
    Follows { report with written := path :: report.written } ((mode, path) :: listed) where
  together := .cons path h.together
  written := h.written.cons_cons path
  skipped := h.skipped.trans ((List.sublist_cons_self _ _).filter _ |>.map _)
  regenerated := by
    cases mode with
    | regenerate => exact h.regenerated.cons_cons path
    | createIfMissing => exact h.regenerated.cons path

theorem skip (h : report.Follows listed) :
    Follows { report with skipped := path :: report.skipped }
      ((.createIfMissing, path) :: listed) where
  together := List.perm_middle.trans (.cons path h.together)
  written := h.written.cons path
  skipped := h.skipped.cons_cons path
  regenerated := h.regenerated

/-- What is listed and written last. -/
theorem writeLast (h : report.Follows listed) :
    Follows { report with written := report.written ++ [path] }
      (listed ++ [(.regenerate, path)]) where
  together := by
    rw [List.map_append, List.append_assoc]
    calc
      (report.written ++ ([path] ++ report.skipped)).Perm
          (report.written ++ (report.skipped ++ [path])) := List.perm_append_comm.append_left _
      _ = (report.written ++ report.skipped) ++ [path] := (List.append_assoc _ _ _).symm
      List.Perm _ (listed.map Prod.snd ++ [path]) := h.together.append_right _
  written := by
    rw [List.map_append]
    exact h.written.append (.refl _)
  skipped := by
    rw [List.filter_append, List.map_append]
    exact h.skipped.trans (List.sublist_append_left _ _)
  regenerated := by
    rw [List.filter_append, List.map_append]
    exact h.regenerated.append (.refl _)

end WriteReport.Follows

namespace Generation

variable {g : Generation} {t t' : FileTree} {root entitiesRoot : String} {fs : List OutputFile}
  {report : WriteReport}

/-- The paths of a run below two roots with their modes, in the order of writing. -/
def listed (g : Generation) (root entitiesRoot : String) : List (WriteMode × String) :=
  g.files.map (fun f => (f.mode, Path.join root f.path)) ++
    [(.regenerate, Path.join entitiesRoot diagramPath)]

theorem follows_of_writeFiles (h : runOn (writeFiles root fs) t = (.ok report, t')) :
    report.Follows (fs.map fun f => (f.mode, Path.join root f.path)) := by
  induction fs generalizing t report with
  | nil =>
    cases h
    exact .nil
  | cons f fs ih =>
    obtain ⟨t₁, report', hrest, _, _, _, ⟨hkept, _, rfl⟩ | ⟨_, _, rfl⟩⟩ :=
      writeFiles_cons_eq_ok h
    · rw [List.map_cons, hkept.1]
      exact (ih hrest).skip
    · exact (ih hrest).write

theorem follows_of_write (h : runOn (g.write root entitiesRoot) t = (.ok report, t')) :
    report.Follows (g.listed root entitiesRoot) ∧
      report.written.getLast? = some (Path.join entitiesRoot diagramPath) := by
  obtain ⟨_, _, _, _, hfiles, _, rfl⟩ := write_eq_ok h
  exact ⟨(follows_of_writeFiles hfiles).writeLast, List.getLast?_concat⟩

end Generation

namespace Command

variable {t t' : FileTree} {out : String}

/-- What a command makes in memory from what it finds in a tree. -/
def prepared (c : Command) (t : FileTree) : Except Error Generation :=
  (runOn (Config.load c.config) t).1 >>= Generation.ofConfig

theorem runOn_load (path : String) (t : FileTree) : (runOn (Config.load path) t).2 = t := by
  unfold Config.load
  rw [runOn_bind, runOn_lift]
  dsimp only
  split
  · rfl
  · rfl

/-- A command fails as its preparation does, or it goes on to list or to write. -/
theorem runOn_execute (c : Command) (t : FileTree) : runOn c.execute t =
    match c.prepared t with
    | .error e => (.error e, t)
    | .ok g =>
      if c.dryRun then (.ok (c.listing g), t)
      else runOn (g.write c.appRoot c.entitiesDirectory >>= fun r => pure (reportText r)) t := by
  have hload := runOn_load c.config t
  unfold execute prepared
  rw [runOn_bind]
  rcases hrun : runOn (Config.load c.config) t with ⟨e | config, t₁⟩
  · rw [hrun] at hload
    rw [← hload]
    rfl
  · rw [hrun] at hload
    subst hload
    show runOn (ExceptT.mk (pure (Generation.ofConfig config)) >>= _) t₁ =
      match Generation.ofConfig config with
      | .error e => _
      | .ok g => _
    rw [runOn_bind]
    cases Generation.ofConfig config with
    | error e => rfl
    | ok g =>
      show runOn (if c.dryRun then _ else _) t₁ = _
      split
      · rfl
      · rfl

/-- What a command that succeeds answers and leaves. -/
theorem execute_eq_ok {c : Command} : runOn c.execute t = (.ok out, t') ↔
    ∃ g, c.prepared t = .ok g ∧
      if c.dryRun then c.listing g = out ∧ t = t'
      else ∃ report, runOn (g.write c.appRoot c.entitiesDirectory) t = (.ok report, t') ∧
        reportText report = out := by
  rw [runOn_execute]
  cases c.prepared t with
  | error e => simp
  | ok g =>
    simp only [Except.ok.injEq, exists_eq_left']
    cases c.dryRun with
    | true =>
      rw [if_pos rfl, if_pos rfl, Prod.mk.injEq, Except.ok.injEq]
    | false =>
      rw [if_neg Bool.false_ne_true, if_neg Bool.false_ne_true, runOn_bind_eq_ok]
      constructor
      · rintro ⟨report, t₁, hwrite, hreport⟩
        cases hreport
        exact ⟨report, hwrite, rfl⟩
      · rintro ⟨report, hwrite, rfl⟩
        exact ⟨report, t', hwrite, rfl⟩

/-! ## The printed texts -/

/-- What a dry run prints in front of a path: the mode ends in column 18. -/
def modeColumn : WriteMode → String
  | .regenerate => "        Regenerate    "
  | .createIfMissing => "   CreateIfMissing    "

theorem listLine_eq (mode : WriteMode) (path : String) :
    listLine mode path = modeColumn mode ++ path ++ "\n" := by
  have hcolumn : alignRight 18 mode.text ++ "    " = modeColumn mode := by
    cases mode with
    | regenerate => decide
    | createIfMissing => decide
  rw [← hcolumn]
  rfl

/-- The words of a run end in column 12. -/
theorem reportText_eq (r : WriteReport) : reportText r =
    String.join (r.written.map fun path => "     writing    " ++ path ++ "\n") ++
      String.join (r.skipped.map fun path => "     keeping    " ++ path ++ "\n") := by
  have hwriting : "  " ++ alignRight 10 "writing" ++ "    " = "     writing    " := by decide
  have hkeeping : "  " ++ alignRight 10 "keeping" ++ "    " = "     keeping    " := by decide
  rw [← hwriting, ← hkeeping]
  rfl

theorem listing_eq (c : Command) (g : Generation) : c.listing g =
    String.join ((g.listed c.appRoot c.entitiesDirectory).map fun l =>
      modeColumn l.1 ++ l.2 ++ "\n") := by
  unfold listing Generation.listed
  simp only [← listLine_eq]
  rw [List.map_append, List.map_map, String.join_append, List.map_singleton, String.join_cons,
    String.join_nil, String.append_empty]
  rfl

/-- A dry run answers with the list of what it prepares, and what fails in the preparation
fails the same way without it; neither changes the tree. If both a dry run and the same run
without it succeed, the run writes and skips exactly the listed paths, each as often as it is
listed and in the same order, skips only scaffolds, and writes the diagram last. On the command
line, the same run is asked for by leaving out `--dry-run`. -/
theorem dry_run_foretells (c : Command) (t : FileTree) :
    (c.dryRun = true → runOn c.execute t = ((c.prepared t).map c.listing, t)) ∧
    (∀ e, c.prepared t = .error e → runOn c.execute t = (.error e, t)) ∧
    (∀ out out' t', (runOn { c with dryRun := true }.execute t).1 = .ok out →
      runOn { c with dryRun := false }.execute t = (.ok out', t') → ∃ listed report,
        out = String.join (listed.map fun l => modeColumn l.1 ++ l.2 ++ "\n") ∧
        out' = String.join (report.written.map fun path => "     writing    " ++ path ++ "\n") ++
          String.join (report.skipped.map fun path => "     keeping    " ++ path ++ "\n") ∧
        (∃ g, c.prepared t = .ok g ∧ listed = g.listed c.appRoot c.entitiesDirectory ∧
          runOn (g.write c.appRoot c.entitiesDirectory) t = (.ok report, t')) ∧
        report.Follows listed ∧
        ∃ diagram, listed.getLast? = some (.regenerate, diagram) ∧
          report.written.getLast? = some diagram) ∧
    ∀ args, CommandLine.parse args = .ok c → c.dryRun = true →
      CommandLine.parse (args.erase "--dry-run") = .ok { c with dryRun := false } := by
  refine ⟨?_, ?_, ?_, fun args => CommandLine.parse_erase_dryRun⟩
  · intro hdry
    rw [runOn_execute]
    cases c.prepared t with
    | error e => rfl
    | ok g => exact if_pos hdry
  · intro e he
    rw [runOn_execute, he]
  · intro out out' t' hlist hrun
    obtain ⟨g, hg, rfl, _⟩ := execute_eq_ok.1 (Prod.ext hlist rfl)
    obtain ⟨g', hg', report, hwrite, rfl⟩ := execute_eq_ok.1 hrun
    obtain rfl : g = g' := Except.ok.inj (hg.symm.trans hg')
    obtain ⟨hfollows, hlast⟩ := Generation.follows_of_write hwrite
    exact ⟨_, report, listing_eq c g, reportText_eq report, ⟨g, hg, rfl, hwrite⟩, hfollows, _,
      List.getLast?_concat, hlast⟩

/-- A project with one entity, of which the class was edited, seen from the root of the disk. -/
def editedProject : FileTree := .seenFrom (.directory [("srv", .directory [("app", .directory [
  ("entities.json", .file
    "\x7b\"entities\":\x7b\"U\":\x7b\"n\":\x7b\"type\":\"string\"\x7d\x7d\x7d\x7d".toUTF8),
  ("src", .directory [("Entity", .directory [
    ("U.php", .file "<?php // edited".toUTF8)])])])])]) ["srv"]

/-- A preview with an absolute root for the application and a relative configuration. -/
def preview : Command := ⟨"app/entities.json", "/srv/app", none, true⟩

/-- The class is listed as a scaffold, and the run without `--dry-run` keeps it. -/
theorem preview_lists_edited_class : ∃ c t' listed, ∃ report : WriteReport,
    CommandLine.parse ["generate", "--dry-run", "-c", "app/entities.json", "--app-root",
      "/srv/app"] = .ok preview ∧
    CommandLine.parse ["generate", "-c", "app/entities.json", "--app-root", "/srv/app"] = .ok c ∧
    runOn preview.execute editedProject = (.ok
      ("        Regenerate    /srv/app/src/Entity/Generated/UGenerated.php\n" ++
       "   CreateIfMissing    /srv/app/src/Entity/U.php\n" ++
       "   CreateIfMissing    /srv/app/src/Repository/URepository.php\n" ++
       "        Regenerate    app/generated/entities.txt\n"), editedProject) ∧
    runOn c.execute editedProject = (.ok
      ("     writing    /srv/app/src/Entity/Generated/UGenerated.php\n" ++
       "     writing    /srv/app/src/Repository/URepository.php\n" ++
       "     writing    app/generated/entities.txt\n" ++
       "     keeping    /srv/app/src/Entity/U.php\n"), t') ∧
    listed = [(WriteMode.regenerate, "/srv/app/src/Entity/Generated/UGenerated.php"),
      (.createIfMissing, "/srv/app/src/Entity/U.php"),
      (.createIfMissing, "/srv/app/src/Repository/URepository.php"),
      (.regenerate, "app/generated/entities.txt")] ∧
    report.skipped = ["/srv/app/src/Entity/U.php"] ∧ report.Follows listed := by
  obtain ⟨_, _, hagree, hargs⟩ := dry_run_foretells preview editedProject
  have hparse : CommandLine.parse ["generate", "--dry-run", "-c", "app/entities.json",
      "--app-root", "/srv/app"] = .ok preview := by decide
  obtain ⟨g, hg, hlisted, hwrite⟩ : ∃ g, preview.prepared editedProject = .ok g ∧
      g.listed "/srv/app" "app" =
        [(.regenerate, "/srv/app/src/Entity/Generated/UGenerated.php"),
          (.createIfMissing, "/srv/app/src/Entity/U.php"),
          (.createIfMissing, "/srv/app/src/Repository/URepository.php"),
          (.regenerate, "app/generated/entities.txt")] ∧
      ((runOn (g.write "/srv/app" "app") editedProject).1.toOption.any fun r =>
        r.skipped = ["/srv/app/src/Entity/U.php"] ∧
        r.written = ["/srv/app/src/Entity/Generated/UGenerated.php",
          "/srv/app/src/Repository/URepository.php", "app/generated/entities.txt"]) = true :=
    exists_ok_of_any (by decide +kernel)
  obtain ⟨report, hreport, hskipped, hwritten⟩ := exists_ok_of_any hwrite
  have hlist : runOn preview.execute editedProject = (.ok (preview.listing g), editedProject) :=
    execute_eq_ok.2 ⟨g, hg, rfl, rfl⟩
  have hrun : runOn { preview with dryRun := false }.execute editedProject =
      (.ok (reportText report), (runOn (g.write "/srv/app" "app") editedProject).2) :=
    execute_eq_ok.2 ⟨g, hg, report, Prod.ext hreport rfl, rfl⟩
  obtain ⟨listed, report', hout, hout', ⟨g', hg', hlisted', hwrite'⟩, hfollows, _⟩ :=
    hagree _ _ _ (congrArg Prod.fst hlist) hrun
  obtain rfl : g = g' := Except.ok.inj (hg.symm.trans hg')
  obtain rfl : report = report' := Except.ok.inj (hreport.symm.trans (congrArg Prod.fst hwrite'))
  obtain rfl := hlisted'.trans hlisted
  rw [hskipped, hwritten] at hout'
  refine ⟨_, (runOn (g.write "/srv/app" "app") editedProject).2, _, report, hparse,
    hargs _ hparse rfl, ?_, ?_, rfl, hskipped, hfollows⟩
  · rw [hlist, hout]
    rfl
  · rw [hrun, hout']
    rfl

end Command

end OrmGen

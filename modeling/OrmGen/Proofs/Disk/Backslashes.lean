/-
  Backslashes around the namespaces of a configuration. Namespaces are joined without the
  backslashes at the ends of their segments, so these reach no class and no diagram
  (`Pads.outlineOf_eq`). But the application namespace is also taken off the namespace of a
  class as it is written, and that fails if it has backslashes at its ends
  (`relativeNamespace_of_surrounded`): then its own segments become directories below `src`,
  and all that is not at an absolute path moves below them
  (`surrounding_backslashes_only_move_files`, `rooted_namespace_moves_files`).
-/
import OrmGen.Proofs.Disk.Joining
import OrmGen.Proofs.Mapping.Members
import OrmGen.Proofs.Mapping.Settings
import OrmGen.Proofs.Php.QualifiedName

namespace OrmGen

open Text (IsStripped)

/-! ## Padded texts -/

/-- The text `t` is `s` with backslashes added at its ends. -/
def Padded (s t : String) : Prop :=
  ∃ m n, t.toList = List.replicate m '\\' ++ s.toList ++ List.replicate n '\\'

/-- A text that counts as a segment but has backslashes at its ends. -/
def IsSurrounded (s : String) : Prop := stripped s ≠ "" ∧ stripped s ≠ s

instance (s : String) : Decidable (IsSurrounded s) :=
  inferInstanceAs (Decidable (stripped s ≠ "" ∧ stripped s ≠ s))

variable {s t app app' ns name : String} {rest : List String}

theorem Padded.refl (s : String) : Padded s s := ⟨0, 0, by simp⟩

theorem Padded.stripped_eq (h : Padded s t) : stripped t = stripped s := by
  obtain ⟨m, n, ht⟩ := h
  have hpad : ∀ k, ∀ c ∈ List.replicate k '\\', decide (c = '\\') = true :=
    fun k c hc => decide_eq_true (List.eq_of_mem_replicate hc)
  unfold stripped
  rw [ht, Text.stripBy_append (hpad m) (hpad n)]

/-- Padded segments are joined as if they were not. -/
theorem joinNamespace_of_padded {segments segments' : List String}
    (h : List.Forall₂ Padded segments segments') :
    joinNamespace segments' = joinNamespace segments := by
  apply joinNamespace_congr
  induction h with
  | nil => rfl
  | cons hs _ ih => rw [List.map_cons, List.map_cons, hs.stripped_eq, ih]

theorem exists_toList_eq (s : String) : ∃ xs ys, (∀ c ∈ xs, c = '\\') ∧ (∀ c ∈ ys, c = '\\') ∧
    s.toList = xs ++ (stripped s).toList ++ ys := by
  obtain ⟨xs, ys, hxs, hys, hs⟩ := Text.exists_append_stripBy (· = '\\') s.toList
  refine ⟨xs, ys, fun c hc => of_decide_eq_true (hxs c hc),
    fun c hc => of_decide_eq_true (hys c hc), ?_⟩
  rw [stripped, String.toList_ofList]
  exact hs

/-- Added backslashes do not undo those that are there. -/
theorem Padded.isSurrounded (h : Padded s t) (hs : IsSurrounded s) : IsSurrounded t := by
  have hstripped := h.stripped_eq
  refine ⟨hstripped ▸ hs.1, ?_⟩
  intro ht
  obtain ⟨m, n, hpad⟩ := h
  obtain ⟨xs, ys, _, _, hends⟩ := exists_toList_eq s
  have hlength := congrArg List.length hpad
  have hlengthEnds := congrArg List.length hends
  simp only [List.length_append, List.length_replicate] at hlength hlengthEnds
  rw [← ht, hstripped] at hlength
  have hxs : xs = [] := List.length_eq_zero_iff.1 (by omega)
  have hys : ys = [] := List.length_eq_zero_iff.1 (by omega)
  rw [hxs, hys, List.nil_append, List.append_nil] at hends
  exact hs.2 (String.toList_inj.1 hends).symm

namespace Php

/-! ## Below the application namespace -/

theorem head?_ne_backslash {cs : List Char} (h : IsStripped (· = '\\') cs) :
    cs.head? ≠ some '\\' := by
  intro hhead
  have hkept := h.head '\\' hhead
  simp at hkept

theorem head?_backslashes {xs : List Char} (hxs : ∀ c ∈ xs, c = '\\') (cs : List Char) :
    (xs ++ '\\' :: cs).head? = some '\\' := by
  cases xs with
  | nil => rfl
  | cons c xs => exact congrArg some (hxs c List.mem_cons_self)

/-- Nothing is taken off a namespace that does not start with the application namespace. -/
theorem relativeNamespace_eq_self (hne : ns = app → ns = "")
    (hstart : ∀ below, ns.toList ≠ app.toList ++ '\\' :: below) :
    relativeNamespace app ns = ns.toList := by
  unfold relativeNamespace
  split
  · rename_i heq
    rw [hne heq]
    rfl
  · split
    · rename_i below hbelow
      have happend := Text.eq_append_of_isPrefixOf? hbelow
      rw [List.append_assoc] at happend
      exact absurd happend (hstart below)
    · rfl

/-- Taking off an application namespace without backslashes at its ends leaves the other
segments. -/
theorem relativeNamespace_of_not_surrounded (h : ¬ IsSurrounded app) (rest : List String) :
    relativeNamespace app (joinNamespace (app :: rest)) = (joinNamespace rest).toList := by
  by_cases hempty : stripped app = ""
  · have hns := isStripped_joinNamespace rest
    rw [joinNamespace_cons_of_empty hempty]
    apply relativeNamespace_eq_self
    · intro e
      rw [← stripped_eq_self hns, e, hempty]
    · intro below heq
      obtain ⟨xs, ys, hxs, hys, happ⟩ := exists_toList_eq app
      rw [happ, hempty, String.toList_empty, List.append_nil, List.append_assoc] at heq
      have hall : ∀ c ∈ xs ++ ys, c = '\\' := fun c hc =>
        (List.mem_append.1 hc).elim (hxs c) (hys c)
      apply head?_ne_backslash hns
      rw [heq, ← List.append_assoc]
      exact head?_backslashes hall below
  · have happ : stripped app = app := by
      by_contra hne
      exact h ⟨hempty, hne⟩
    unfold relativeNamespace
    rcases joinNamespace_cons_cases hempty rest with ⟨hrest, hjoin⟩ | ⟨_, hjoin⟩
    · rw [if_pos (hjoin.trans happ), hrest]
      rfl
    · rw [happ] at hjoin
      have hne : joinNamespace (app :: rest) ≠ app := by
        intro e
        rw [e] at hjoin
        exact absurd (List.append_right_eq_self.1 hjoin.symm) (by simp)
      rw [if_neg hne, hjoin, List.append_cons _ _ (joinNamespace rest).toList,
        Text.isPrefixOf?_append]

/-- With backslashes at its ends it is not taken off. -/
theorem relativeNamespace_of_surrounded (h : IsSurrounded app) (rest : List String) :
    relativeNamespace app (joinNamespace (app :: rest)) = (joinNamespace (app :: rest)).toList := by
  have hns := isStripped_joinNamespace (app :: rest)
  obtain ⟨xs, ys, hxs, hys, happ⟩ := exists_toList_eq app
  apply relativeNamespace_eq_self
  · intro e
    exact absurd (stripped_eq_self (e ▸ hns)) h.2
  · intro below heq
    rw [happ] at heq
    -- no backslash stands in front of a joined namespace, so the surplus is at the end
    obtain rfl : xs = [] := by
      cases xs with
      | nil => rfl
      | cons c xs =>
        have hc : c = '\\' := hxs c List.mem_cons_self
        exact absurd (by rw [heq, hc]; rfl) (head?_ne_backslash hns)
    obtain ⟨c, ys, rfl⟩ : ∃ c cs, ys = c :: cs := by
      apply List.exists_cons_of_ne_nil
      rintro rfl
      rw [List.nil_append, List.append_nil] at happ
      exact h.2 (String.toList_inj.1 happ).symm
    rw [List.forall_mem_cons] at hys
    rw [List.nil_append, List.append_assoc] at heq
    rcases joinNamespace_cons_cases h.1 rest with ⟨_, hjoin⟩ | ⟨_, hjoin⟩
    · rw [hjoin] at heq
      exact absurd (List.append_right_eq_self.1 heq.symm) (by simp)
    · rw [hjoin, List.append_cancel_left_eq, List.cons_append, List.cons.injEq] at heq
      apply head?_ne_backslash (isStripped_joinNamespace rest)
      rw [heq.2]
      exact head?_backslashes hys.2 below

theorem directories_ne_nil (h : stripped s ≠ "") : directories (stripped s).toList ≠ [] := by
  cases hlist : (stripped s).toList with
  | nil => exact absurd (String.toList_eq_nil_iff.1 hlist) h
  | cons c cs =>
    have hc : c ≠ '\\' := by
      rintro rfl
      exact head?_ne_backslash (isStripped_stripped s) (by rw [hlist]; rfl)
    obtain ⟨piece, hpiece, hmem⟩ := Text.exists_mem_splitOn List.mem_cons_self hc
    have hdirectory : piece ∈ directories (c :: cs) :=
      mem_directories_iff.2 ⟨hpiece, List.ne_nil_of_mem hmem⟩
    exact List.ne_nil_of_mem hdirectory

theorem directories_joinNamespace_cons (s : String) (rest : List String) :
    directories (joinNamespace (s :: rest)).toList =
      directories (stripped s).toList ++ directories (joinNamespace rest).toList := by
  have hnil : directories "".toList = [] := rfl
  by_cases hempty : stripped s = ""
  · rw [joinNamespace_cons_of_empty hempty, hempty, hnil, List.nil_append]
  · rcases joinNamespace_cons_cases hempty rest with ⟨hrest, hjoin⟩ | ⟨_, hjoin⟩
    · rw [hjoin, hrest, hnil, List.append_nil]
    · unfold directories
      rw [hjoin, List.splitOn_append_cons_self, List.filter_append]

/-! ## The directory of the application namespace -/

/-- Where the classes in the application namespace itself are. -/
def applicationDirectory (app : String) : String := namespaceDirectory app (joinNamespace [app])

/-- The directories of a namespace in the application namespace follow those of the latter. -/
theorem directories_relativeNamespace (app : String) (rest : List String) :
    directories (relativeNamespace app (joinNamespace (app :: rest))) =
      directories (relativeNamespace app (joinNamespace [app])) ++
        directories (joinNamespace rest).toList := by
  have hnil : directories (joinNamespace []).toList = [] := rfl
  by_cases h : IsSurrounded app
  · rw [relativeNamespace_of_surrounded h, relativeNamespace_of_surrounded h,
      directories_joinNamespace_cons, directories_joinNamespace_cons, hnil, List.append_nil]
  · rw [relativeNamespace_of_not_surrounded h, relativeNamespace_of_not_surrounded h, hnil,
      List.nil_append]

theorem namespaceDirectory_joinNamespace (app : String) (rest : List String) :
    namespaceDirectory app (joinNamespace (app :: rest)) =
      Path.joinAll (applicationDirectory app) (directories (joinNamespace rest).toList) := by
  rw [applicationDirectory, namespaceDirectory_eq, namespaceDirectory_eq,
    directories_relativeNamespace, Path.joinAll_append]

theorem classPath_joinNamespace (app : String) (rest : List String) (name : String) :
    classPath app (joinNamespace (app :: rest)) name = Path.joinAll (applicationDirectory app)
      (directories (joinNamespace rest).toList ++ [(name ++ ".php").toList]) := by
  rw [classPath, namespaceDirectory_joinNamespace, Path.joinAll_append, Path.joinAll_cons,
    Path.joinAll_nil, String.ofList_toList]

theorem applicationDirectory_of_not_surrounded (h : ¬ IsSurrounded app) :
    applicationDirectory app = "src" := by
  rw [applicationDirectory, namespaceDirectory_eq, relativeNamespace_of_not_surrounded h]
  rfl

theorem applicationDirectory_of_surrounded (h : IsSurrounded app) :
    applicationDirectory app = Path.joinAll "src" (directories (stripped app).toList) := by
  have hnil : directories (joinNamespace []).toList = [] := rfl
  rw [applicationDirectory, namespaceDirectory_eq, relativeNamespace_of_surrounded h,
    directories_joinNamespace_cons, hnil, List.append_nil]

/-- The segments of a surrounded application namespace lead away from the source directory. -/
theorem closed_applicationDirectory_ne (h : IsSurrounded app) :
    Path.closed (applicationDirectory app) ≠ Path.closed "src" := by
  rw [applicationDirectory_of_surrounded h]
  exact Path.closed_joinAll_ne (by decide) (by decide) (directories_ne_nil h.1)
    fun s hs => (mem_directories_iff.1 hs).2

theorem applicationDirectory_ne_empty : applicationDirectory app ≠ "" :=
  namespaceDirectory_ne_empty

/-- The directory is another one only if the backslashes are the first ones. -/
theorem applicationDirectory_of_padded (h : Padded app app')
    (hsurrounded : IsSurrounded app' → IsSurrounded app) :
    applicationDirectory app' = applicationDirectory app := by
  by_cases happ : IsSurrounded app
  · rw [applicationDirectory_of_surrounded happ,
      applicationDirectory_of_surrounded (h.isSurrounded happ), h.stripped_eq]
  · rw [applicationDirectory_of_not_surrounded happ,
      applicationDirectory_of_not_surrounded fun happ' => happ (hsurrounded happ')]

end Php

/-! ## Places -/

open Php (applicationDirectory)
open OrmGen.Path (IsAbsolute closed joinAll)

/-- The paths of one file in two runs with the application namespaces `app` and `app'`. -/
structure SamePlace (app app' path path' : String) : Prop where
  /-- It moves only if the application namespace gets its first backslashes and its path is
  relative. -/
  stays : path' = path ↔ (IsSurrounded app' → IsSurrounded app) ∨ IsAbsolute path
  /-- A relative path is at the same place below the directory of the application namespace. -/
  moves : ¬ IsAbsolute path → ∃ below,
    closed path = closed (applicationDirectory app) ++ below ∧
      closed path' = closed (applicationDirectory app') ++ below

/-- Texts that are joined to the directories of the two application namespaces. -/
theorem samePlace_joinAll (h : Padded app app') {pieces : List (List Char)}
    (hne : ∀ s ∈ pieces, s ≠ []) :
    SamePlace app app' (joinAll (applicationDirectory app) pieces)
      (joinAll (applicationDirectory app') pieces) := by
  have habsolute : IsAbsolute (joinAll (applicationDirectory app) pieces) ↔
      IsAbsolute (applicationDirectory app) ∨ ∃ s ∈ pieces, IsAbsolute (String.ofList s) :=
    Path.isAbsolute_joinAll_iff Php.applicationDirectory_ne_empty
  constructor
  · by_cases hsurrounded : IsSurrounded app' → IsSurrounded app
    · rw [Php.applicationDirectory_of_padded h hsurrounded]
      exact iff_of_true rfl (.inl hsurrounded)
    · obtain ⟨happ', happ⟩ := Classical.not_imp.1 hsurrounded
      have hclosed := Php.closed_applicationDirectory_ne happ'
      have hsrc : ¬ IsAbsolute "src" := by decide
      rw [Php.applicationDirectory_of_not_surrounded happ] at habsolute ⊢
      rw [Path.joinAll_eq_iff hne hclosed, habsolute, or_iff_right hsurrounded, or_iff_right hsrc]
  · intro hpath
    have hrelative : ∀ s ∈ pieces, ¬ IsAbsolute (String.ofList s) :=
      fun s hs hs' => hpath (habsolute.2 (.inr ⟨s, hs, hs'⟩))
    exact ⟨_, Path.closed_joinAll hrelative hne _, Path.closed_joinAll hrelative hne _⟩

theorem samePlace_namespaceDirectory (h : Padded app app') (rest : List String) :
    SamePlace app app' (Php.namespaceDirectory app (joinNamespace (app :: rest)))
      (Php.namespaceDirectory app' (joinNamespace (app' :: rest))) := by
  rw [Php.namespaceDirectory_joinNamespace, Php.namespaceDirectory_joinNamespace]
  exact samePlace_joinAll h fun s hs => (Php.mem_directories_iff.1 hs).2

theorem samePlace_classPath (h : Padded app app') (rest : List String) (name : String) :
    SamePlace app app' (Php.classPath app (joinNamespace (app :: rest)) name)
      (Php.classPath app' (joinNamespace (app' :: rest)) name) := by
  rw [Php.classPath_joinNamespace, Php.classPath_joinNamespace]
  apply samePlace_joinAll h
  rw [List.forall_mem_append, List.forall_mem_singleton, String.toList_append]
  exact ⟨fun s hs => (Php.mem_directories_iff.1 hs).2, List.append_ne_nil_of_right_ne_nil _
    (by decide)⟩

/-! ## Runs -/

namespace Generation

variable {config config' : Config} {claims : Mapping.Claims} {e : Entity}
  {classes : List (WriteMode × Php.Class)} {c : WriteMode × Php.Class}

/-- A namespace that is joined to that of the application. -/
def InApplication (config : Config) (ns : String) : Prop :=
  ∃ rest, ns = joinNamespace (config.appNamespace :: rest)

theorem inApplication_of_mem_classesOf {claims' : Mapping.Claims}
    (h : classesOf config claims e = (.ok classes, claims')) (hc : c ∈ classes) :
    InApplication config c.2.ns := by
  unfold classesOf at h
  rw [Prod.mk.injEq] at h
  obtain ⟨built, hbuilt, h⟩ := bind_eq_ok.1 h.1
  obtain ⟨scaffolds, hscaffolds, h⟩ := bind_eq_ok.1 h
  rw [pure_eq_ok] at h
  rw [← h, List.mem_cons, List.mem_map] at hc
  rcases hc with rfl | ⟨scaffold, hscaffold, rfl⟩
  · rcases Mapping.build_eq_ok_cases (Prod.ext hbuilt rfl) with ⟨_, henum⟩ | ⟨_, hbase⟩
    · exact ⟨[config.namespaces.enumeration], henum.ns.trans (Php.Class.generated_ns ..)⟩
    · exact ⟨[config.namespaces.entity, config.namespaces.base], hbase.ns⟩
  · rcases ((mem_scaffoldsOf hscaffolds).1 hscaffold).2 with hfinal | hrepository
    · exact ⟨[config.namespaces.entity], (Mapping.buildFinal_eq_ok hfinal).2.1⟩
    · exact ⟨[config.namespaces.repository], (Mapping.buildRepository_eq_ok hrepository).2.1⟩

/-- All classes of a run are in the application namespace or below it. -/
theorem inApplication_of_mem {es : List Entity} (h : classesOfAll config claims es = .ok classes)
    (hc : c ∈ classes) : InApplication config c.2.ns := by
  induction es generalizing claims classes with
  | nil =>
    cases h
    cases hc
  | cons e es ih =>
    rw [classesOfAll] at h
    split at h
    · cases h
    · rename_i first claims' hfirst
      obtain ⟨others, hothers, rfl⟩ := map_eq_ok.1 h
      rcases List.mem_append.1 hc with hc | hc
      · exact inApplication_of_mem_classesOf hfirst hc
      · exact ih hothers hc

theorem inApplication_of_outlineOf {outline : List (WriteMode × Php.Class) × String}
    (h : outlineOf config = .ok outline) (hc : c ∈ outline.1) : InApplication config c.2.ns := by
  obtain ⟨schema, _, h⟩ := bind_eq_ok.1 h
  obtain ⟨classes, hclasses, h⟩ := bind_eq_ok.1 h
  obtain ⟨diagram, _, h⟩ := bind_eq_ok.1 h
  rw [pure_eq_ok] at h
  subst h
  exact inApplication_of_mem hclasses hc

/-- Two configurations that differ by backslashes around the namespaces of the second. -/
structure Pads (config config' : Config) : Prop where
  app : Padded config.namespaces.app config'.namespaces.app
  base : Padded config.namespaces.base config'.namespaces.base
  enumeration : Padded config.namespaces.enumeration config'.namespaces.enumeration
  entity : Padded config.namespaces.entity config'.namespaces.entity
  repository : Padded config.namespaces.repository config'.namespaces.repository
  others : { config' with namespaces := config.namespaces } = config

namespace Pads

theorem joinNamespace_cons_eq (h : Pads config config') (rest : List String) :
    joinNamespace (config'.appNamespace :: rest) = joinNamespace (config.appNamespace :: rest) :=
  joinNamespace_of_padded (.cons h.app (List.forall₂_same.2 fun s _ => .refl s))

theorem sharesSettings (h : Pads config config') : SharesSettings config config' where
  base := joinNamespace_of_padded (.cons h.app (.cons h.entity (.cons h.base .nil)))
  enumeration := joinNamespace_of_padded (.cons h.app (.cons h.enumeration .nil))
  entity := joinNamespace_of_padded (.cons h.app (.cons h.entity .nil))
  repository := joinNamespace_of_padded (.cons h.app (.cons h.repository .nil))
  classPostfix := by rw [← h.others]
  imports := by rw [← h.others]

/-- The classes and the diagram are the same. -/
theorem outlineOf_eq (h : Pads config config') : outlineOf config' = outlineOf config :=
  h.sharesSettings.outlineOf_eq (by rw [← h.others])

end Pads

/-- Two files that differ at most in where they are. -/
structure SameFile (app app' : String) (f f' : OutputFile) : Prop where
  contents : f'.contents = f.contents
  mode : f'.mode = f.mode
  place : SamePlace app app' f.path f'.path

namespace Pads

theorem samePlace_placed (h : Pads config config') (hc : InApplication config c.2.ns) :
    SamePlace config.appNamespace config'.appNamespace (placed config c).path
      (placed config' c).path := by
  obtain ⟨rest, hrest⟩ := hc
  have hrest' : c.2.ns = joinNamespace (config'.appNamespace :: rest) :=
    hrest.trans (h.joinNamespace_cons_eq rest).symm
  have happ : Padded config.appNamespace config'.appNamespace := h.app
  have hplace := samePlace_classPath happ rest c.2.name
  rw [← hrest, ← hrest'] at hplace
  exact hplace

theorem samePlace_generatedDirectory (h : Pads config config')
    (outline : List (WriteMode × Php.Class) × String) :
    SamePlace config.appNamespace config'.appNamespace
      (located config outline).generatedDirectory (located config' outline).generatedDirectory := by
  have happ : Padded config.appNamespace config'.appNamespace := h.app
  have hbase : config.baseNamespace = joinNamespace
      [config.appNamespace, config.namespaces.entity, config.namespaces.base] := rfl
  have hplace := samePlace_namespaceDirectory happ
    [config.namespaces.entity, config.namespaces.base]
  rw [h.joinNamespace_cons_eq, ← hbase] at hplace
  rw [located_generatedDirectory, located_generatedDirectory, h.sharesSettings.base]
  exact hplace

theorem forall₂_files (h : Pads config config')
    (hclasses : ∀ c ∈ classes, InApplication config c.2.ns) :
    List.Forall₂ (SameFile config.appNamespace config'.appNamespace)
      (classes.map (placed config)) (classes.map (placed config')) := by
  induction classes with
  | nil => exact .nil
  | cons c classes ih =>
    rw [List.forall_mem_cons] at hclasses
    exact .cons ⟨rfl, rfl, h.samePlace_placed hclasses.1⟩ (ih hclasses.2)

/-- The two runs are the same exactly if everything stays where it is. -/
theorem located_eq_iff (h : Pads config config')
    {outline : List (WriteMode × Php.Class) × String}
    (hclasses : ∀ c ∈ outline.1, InApplication config c.2.ns) :
    located config' outline = located config outline ↔
      (IsSurrounded config'.appNamespace → IsSurrounded config.appNamespace) ∨
        IsAbsolute (located config outline).generatedDirectory ∧
          ∀ f ∈ (located config outline).files, IsAbsolute f.path := by
  have hrun : located config' outline = located config outline ↔
      (∀ c ∈ outline.1, (placed config' c).path = (placed config c).path) ∧
        (located config' outline).generatedDirectory =
          (located config outline).generatedDirectory := by
    simp only [located, Generation.mk.injEq, List.map_inj_left, placed, fileOf,
      OutputFile.mk.injEq, and_true]
  have hpath : ∀ c ∈ outline.1, (placed config' c).path = (placed config c).path ↔
      (IsSurrounded config'.appNamespace → IsSurrounded config.appNamespace) ∨
        IsAbsolute (placed config c).path :=
    fun c hc => (h.samePlace_placed (hclasses c hc)).stays
  have hfiles : (∀ f ∈ (located config outline).files, IsAbsolute f.path) ↔
      ∀ c ∈ outline.1, IsAbsolute (placed config c).path := List.forall_mem_map
  rw [hrun, forall₂_congr hpath, (h.samePlace_generatedDirectory outline).stays, hfiles]
  by_cases hsurrounded : IsSurrounded config'.appNamespace → IsSurrounded config.appNamespace
  · exact iff_of_true ⟨fun _ _ => .inl hsurrounded, .inl hsurrounded⟩ (.inl hsurrounded)
  · simp only [or_iff_right hsurrounded, and_comm]

end Pads

/-- Backslashes added around namespaces change nothing of a run but where its files are: it
fails with the same errors, and the diagram and the classes with their modes stay the same. The
result as a whole is the same exactly if the application namespace does not get its first
backslashes by them, or if there is no relative path in it. -/
theorem surrounding_backslashes_only_move_files (h : Pads config config') :
    (∀ err, ofConfig config' = .error err ↔ ofConfig config = .error err) ∧
    ∀ g, ofConfig config = .ok g → ∃ g', ofConfig config' = .ok g' ∧ g'.diagram = g.diagram ∧
      List.Forall₂ (SameFile config.appNamespace config'.appNamespace) g.files g'.files ∧
      SamePlace config.appNamespace config'.appNamespace g.generatedDirectory
        g'.generatedDirectory ∧
      (g' = g ↔ (IsSurrounded config'.appNamespace → IsSurrounded config.appNamespace) ∨
        IsAbsolute g.generatedDirectory ∧ ∀ f ∈ g.files, IsAbsolute f.path) := by
  rw [ofConfig_eq_map, ofConfig_eq_map, h.outlineOf_eq]
  cases houtline : outlineOf config with
  | error err => exact ⟨fun _ => Iff.rfl, fun g hg => nomatch hg⟩
  | ok outline =>
    refine ⟨fun err => iff_of_false nofun nofun, ?_⟩
    intro g hg
    obtain rfl : located config outline = g := Except.ok.inj hg
    have hclasses : ∀ c ∈ outline.1, InApplication config c.2.ns :=
      fun c hc => inApplication_of_outlineOf houtline hc
    exact ⟨located config' outline, rfl, rfl, h.forall₂_files hclasses,
      h.samePlace_generatedDirectory outline, h.located_eq_iff hclasses⟩

/-- One enumeration, in the application namespace `App`. -/
def levelConfig : Config where
  entities := .object [("Level", .object [("low", .number (.integer 1))])]

/-- The same with a backslash in front of the application namespace. -/
def rootedConfig : Config := { levelConfig with namespaces := { app := "\\App" } }

theorem pads_levelConfig : Pads levelConfig rootedConfig where
  app := ⟨1, 0, rfl⟩
  base := .refl _
  enumeration := .refl _
  entity := .refl _
  repository := .refl _
  others := rfl

/-- The backslash makes a directory of the application namespace. -/
theorem rooted_namespace_moves_files : Pads levelConfig rootedConfig ∧
    ∃ g g', ofConfig levelConfig = .ok g ∧ ofConfig rootedConfig = .ok g' ∧ g' ≠ g ∧
      g.files.map (·.path) = ["src/Enum/Level.php"] ∧
      g'.files.map (·.path) = ["src/App/Enum/Level.php"] := by
  obtain ⟨g, hg, hpaths⟩ : ∃ g, ofConfig levelConfig = .ok g ∧
      g.files.map (·.path) = ["src/Enum/Level.php"] := exists_ok_of_any (by decide +kernel)
  obtain ⟨g₁, hg₁, hpaths'⟩ : ∃ g', ofConfig rootedConfig = .ok g' ∧
      g'.files.map (·.path) = ["src/App/Enum/Level.php"] := exists_ok_of_any (by decide +kernel)
  obtain ⟨g', hg', _, _, _, hsame⟩ :=
    (surrounding_backslashes_only_move_files pads_levelConfig).2 g hg
  obtain rfl : g₁ = g' := Except.ok.inj (hg₁.symm.trans hg')
  refine ⟨pads_levelConfig, g, g₁, hg, hg₁, ?_, hpaths, hpaths'⟩
  rw [Ne, hsame]
  rintro (hsurrounded | ⟨_, habsolute⟩)
  · have hrooted : IsSurrounded rootedConfig.appNamespace := by decide
    have hlevel : ¬ IsSurrounded levelConfig.appNamespace := by decide
    exact hlevel (hsurrounded hrooted)
  · obtain ⟨f, hf, hpath⟩ := List.map_eq_singleton_iff.1 hpaths
    have hfile := habsolute f (hf ▸ List.mem_singleton_self f)
    rw [hpath] at hfile
    exact absurd hfile (by decide)

end Generation
end OrmGen

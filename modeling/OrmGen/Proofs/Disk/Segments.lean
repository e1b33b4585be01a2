/-
  Segments of paths. A path that ends in a name has the segments of its parent in front of the
  name, up to idle ones (`Path.sameFront_parent?`), so the directories that are made for
  a file are among those that its path leads through (`mem_passedBy_of_mem_madeBy`). What a
  path ends with is the end of its last segment (`segments?_append`). Where a path leads
  depends on the working directory, but on nothing that a tree holds (`destination?`).
-/
import Mathlib.Data.List.DropRight
import OrmGen.Disk.FileTree
import OrmGen.Proofs.Disk.Walk

namespace OrmGen.Path

variable {a : Char} {xs ys : List Char} {path dir base p : String}
  {above : List (List Char)} {name : List Char}

/-! ## Cutting at a separator -/

theorem notMem_of_mem_splitOn {seg : List Char} (h : seg ∈ xs.splitOn a) : a ∉ seg := by
  induction xs generalizing seg with
  | nil =>
    rw [List.splitOn_nil, List.mem_singleton] at h
    simp [h]
  | cons x xs ih =>
    rw [List.splitOn_cons_eq_if_modifyHead] at h
    split at h
    · rcases List.mem_cons.1 h with rfl | h
      · simp
      · exact ih h
    · rename_i hx
      obtain ⟨first, rest, hrest⟩ := List.exists_cons_of_ne_nil (List.splitOn_ne_nil a xs)
      rw [hrest, List.modifyHead_cons] at h
      rcases List.mem_cons.1 h with rfl | h
      · have hfirst : a ∉ first := ih (hrest ▸ List.mem_cons_self)
        simp only [beq_iff_eq] at hx
        simp [hfirst, Ne.symm hx]
      · exact ih (hrest ▸ List.mem_cons_of_mem _ h)

/-- What is added without a separator is added to the last segment. -/
theorem exists_splitOn_append (xs : List Char) (h : a ∉ ys) :
    ∃ before last, (xs ++ ys).splitOn a = before ++ [last ++ ys] := by
  induction xs with
  | nil => exact ⟨[], [], List.splitOn_eq_singleton h⟩
  | cons x xs ih =>
    obtain ⟨before, last, hlast⟩ := ih
    rw [List.cons_append, List.splitOn_cons_eq_if_modifyHead, hlast]
    split
    · exact ⟨[] :: before, last, rfl⟩
    · cases before with
      | nil => exact ⟨[], x :: last, rfl⟩
      | cons first before => exact ⟨(x :: first) :: before, last, rfl⟩

/-- What is added after a separator is a segment of its own. -/
theorem splitOn_append_cons (h : a ∉ ys) :
    (xs ++ a :: ys).splitOn a = xs.splitOn a ++ [ys] := by
  rw [List.splitOn_append_cons_self, List.splitOn_eq_singleton h]

theorem splitOn_cons_slash (xs : List Char) : ('/' :: xs).splitOn '/' = [] :: xs.splitOn '/' :=
  List.splitOn_append_cons_self_of_not_mem List.not_mem_nil xs

/-! ## Parents -/

theorem parent?_of_splitHead {head body : List Char} (hsplit : splitHead path.toList = (head, body))
    (h : body.splitOn '/' = above ++ [name]) (hname : isIdle name ≠ true) :
    parent? path = some (String.ofList (head ++ ['/'].intercalate (above.rdropWhile isIdle))) := by
  have hsegments : reversedSegments body = name :: above.reverse := by
    unfold reversedSegments
    rw [h, List.reverse_concat, List.dropWhile_cons_of_neg (by simpa using hname)]
  unfold parent?
  rw [hsplit]
  simp only [hsegments]
  rfl

/-- Segments of a text that are joined are cut again where they were joined. -/
theorem splitOn_intercalate_front (h : above <+: xs.splitOn '/') (hne : above ≠ []) :
    (['/'].intercalate above).splitOn '/' = above := by
  apply List.splitOn_intercalate _ _ hne
  intro seg hseg
  exact notMem_of_mem_splitOn (h.subset hseg)

/-- Dropping idle segments at the end of a path that starts with a dot keeps the dot. -/
theorem dot_append_intercalate (above : List (List Char)) :
    ['.'] ++ ['/'].intercalate (([] :: above).rdropWhile isIdle) =
      ['/'].intercalate (['.'] :: above.rdropWhile isIdle) := by
  have hdrop : ([] :: above).rdropWhile isIdle =
      if above.rdropWhile isIdle = [] then [] else [] :: above.rdropWhile isIdle := by
    unfold List.rdropWhile
    rw [List.reverse_cons, List.dropWhile_append]
    by_cases hnil : above.reverse.dropWhile isIdle = []
    · simp [hnil, isIdle]
    · simp [hnil]
  rw [hdrop]
  by_cases hnil : above.rdropWhile isIdle = []
  · rw [if_pos hnil, hnil, List.intercalate_nil, List.intercalate_singleton, List.append_nil]
  · rw [if_neg hnil, List.intercalate_cons_of_ne_nil hnil, List.intercalate_cons_of_ne_nil hnil]
    rfl

/-- A text and the segments it is cut into start with a slash and with an empty segment. -/
theorem head?_splitOn_of_slash (h : xs.head? = some '/') : (xs.splitOn '/').head? = some [] := by
  obtain ⟨rest, rfl⟩ := List.head?_eq_some_iff.1 h
  rw [splitOn_cons_slash]
  rfl

theorem isAbsolute_iff (h : path ≠ "") :
    isAbsolute path = true ↔ (path.toList.splitOn '/').head? = some [] := by
  unfold isAbsolute
  rw [decide_eq_true_eq]
  constructor
  · exact head?_splitOn_of_slash
  · intro hfirst
    obtain ⟨x, xs, hxs⟩ := List.exists_cons_of_ne_nil (mt String.toList_eq_nil_iff.1 h)
    rw [hxs, List.splitOn_cons_eq_if_modifyHead] at hfirst
    rw [hxs, List.head?_cons, Option.some.injEq]
    split at hfirst
    · rename_i hx
      exact beq_iff_eq.1 hx
    · obtain ⟨first, rest, hrest⟩ := List.exists_cons_of_ne_nil (List.splitOn_ne_nil '/' xs)
      rw [hrest, List.modifyHead_cons, List.head?_cons, Option.some.injEq] at hfirst
      cases hfirst

/-- Two lists of segments that begin alike and go on with idle segments only. -/
def SameFront (ss ss' : List (List Char)) : Prop :=
  ∃ front idle idle', front ≠ [] ∧ ss = front ++ idle ∧ ss' = front ++ idle' ∧
    (∀ s ∈ idle, isIdle s = true) ∧ ∀ s ∈ idle', isIdle s = true

theorem sameFront_rdropWhile {ss : List (List Char)} (h : ss.rdropWhile isIdle ≠ []) :
    SameFront (ss.rdropWhile isIdle) ss :=
  ⟨ss.rdropWhile isIdle, [], ss.rtakeWhile isIdle, h, (List.append_nil _).symm,
    List.rdropWhile_append_rtakeWhile.symm, by simp, fun _ hs => List.mem_rtakeWhile_imp hs⟩

theorem SameFront.cons {ss ss' : List (List Char)} (s : List Char) (h : SameFront ss ss') :
    SameFront (s :: ss) (s :: ss') := by
  obtain ⟨front, idle, idle', _, rfl, rfl, hidle, hidle'⟩ := h
  exact ⟨s :: front, idle, idle', List.cons_ne_nil _ _, rfl, rfl, hidle, hidle'⟩

theorem sameFront_of_idle {ss ss' : List (List Char)} (s : List Char)
    (h : ∀ s ∈ ss, isIdle s = true) (h' : ∀ s ∈ ss', isIdle s = true) :
    SameFront (s :: ss) (s :: ss') := ⟨[s], ss, ss', List.cons_ne_nil _ _, rfl, rfl, h, h'⟩

/-- The parent of an absolute path. Where only idle segments stand in front of the name, it is
the root. -/
theorem sameFront_absolute {body : List Char} (hsplit : splitHead path.toList = (['/'], body))
    (h : parent? path = some dir) (hbody : body.splitOn '/' = above ++ [name])
    (hname : isIdle name ≠ true) : SameFront (dir.toList.splitOn '/') ([] :: above) := by
  rw [parent?_of_splitHead hsplit hbody hname, Option.some.injEq] at h
  subst h
  rw [String.toList_ofList, List.singleton_append, splitOn_cons_slash]
  by_cases hnil : above.rdropWhile isIdle = []
  · rw [hnil, List.intercalate_nil]
    exact sameFront_of_idle [] (by decide) (List.rdropWhile_eq_nil_iff.1 hnil)
  · have hfront : above.rdropWhile isIdle <+: body.splitOn '/' := by
      rw [hbody]
      exact (List.rdropWhile_prefix ..).trans (List.prefix_append ..)
    rw [splitOn_intercalate_front hfront hnil]
    exact (sameFront_rdropWhile hnil).cons []

/-- The parent of a path that starts with a dot. -/
theorem sameFront_dotted {body : List Char} (hsplit : splitHead path.toList = (['.'], '/' :: body))
    (h : parent? path = some dir) (hbody : body.splitOn '/' = above ++ [name])
    (hname : isIdle name ≠ true) : SameFront (dir.toList.splitOn '/') (['.'] :: above) := by
  have hsegments : ('/' :: body).splitOn '/' = ([] :: above) ++ [name] := by
    rw [splitOn_cons_slash, hbody, List.cons_append]
  have hdot : ∀ xs : List Char, ('.' :: '/' :: xs).splitOn '/' = ['.'] :: xs.splitOn '/' :=
    List.splitOn_append_cons_self_of_not_mem (by decide : '/' ∉ ['.'])
  rw [parent?_of_splitHead hsplit hsegments hname, Option.some.injEq] at h
  subst h
  have hfront : ['.'] :: above.rdropWhile isIdle <+: ('.' :: '/' :: body).splitOn '/' := by
    rw [hdot, hbody, List.cons_prefix_cons]
    exact ⟨rfl, (List.rdropWhile_prefix ..).trans (List.prefix_append ..)⟩
  rw [String.toList_ofList, dot_append_intercalate,
    splitOn_intercalate_front hfront (List.cons_ne_nil _ _)]
  by_cases hnil : above.rdropWhile isIdle = []
  · rw [hnil]
    exact sameFront_of_idle ['.'] (by simp) (List.rdropWhile_eq_nil_iff.1 hnil)
  · exact (sameFront_rdropWhile hnil).cons ['.']

/-- The parent of any other path. -/
theorem sameFront_plain {body : List Char} (hsplit : splitHead path.toList = ([], body))
    (h : parent? path = some dir) (hbody : body.splitOn '/' = above ++ [name])
    (hname : isIdle name ≠ true) (hdir : dir ≠ "") :
    SameFront (dir.toList.splitOn '/') above := by
  rw [parent?_of_splitHead hsplit hbody hname, Option.some.injEq] at h
  subst h
  have hne : above.rdropWhile isIdle ≠ [] := by
    intro hnil
    rw [hnil] at hdir
    exact hdir rfl
  have hfront : above.rdropWhile isIdle <+: body.splitOn '/' := by
    rw [hbody]
    exact (List.rdropWhile_prefix ..).trans (List.prefix_append ..)
  rw [List.nil_append, String.toList_ofList, splitOn_intercalate_front hfront hne]
  exact sameFront_rdropWhile hne

/-- The parent of a path that ends in a name has the segments in front of the name, up to idle
ones at the end. -/
theorem sameFront_parent? (h : parent? path = some dir)
    (hpath : path.toList.splitOn '/' = above ++ [name]) (hname : isIdle name ≠ true)
    (hdir : dir ≠ "") : SameFront (dir.toList.splitOn '/') above := by
  obtain ⟨head, body, hsplit⟩ : ∃ head body, splitHead path.toList = (head, body) := ⟨_, _, rfl⟩
  have hsplit' := hsplit
  unfold splitHead at hsplit'
  split at hsplit'
  · rename_i hbody
    cases hsplit'
    rw [hbody, splitOn_cons_slash] at hpath
    cases above with
    | nil => exact absurd (List.cons.inj hpath).2 (List.splitOn_ne_nil '/' body)
    | cons first above =>
      obtain ⟨rfl, hsegments⟩ := List.cons.inj hpath
      exact sameFront_absolute hsplit h hsegments hname
  · rename_i hdot
    rw [hdot, List.splitOn_eq_singleton (by decide)] at hpath
    have hlast := congrArg List.getLast? hpath
    rw [List.getLast?_concat] at hlast
    cases hlast
    exact absurd rfl hname
  · rename_i rest hrest
    cases hsplit'
    have hdot : path.toList.splitOn '/' = ['.'] :: rest.splitOn '/' := by
      rw [hrest]
      exact List.splitOn_append_cons_self_of_not_mem (by decide : '/' ∉ ['.']) rest
    rw [hdot] at hpath
    cases above with
    | nil => exact absurd (List.cons.inj hpath).2 (List.splitOn_ne_nil '/' rest)
    | cons first above =>
      obtain ⟨rfl, hsegments⟩ := List.cons.inj hpath
      exact sameFront_dotted hsplit h hsegments hname
  · cases hsplit'
    exact sameFront_plain hsplit h hpath hname hdir

/-! ## Joining -/

theorem exists_join_eq (base p : String) : ∃ pre, join base p = pre ++ p := by
  unfold join
  split
  · exact ⟨"", String.empty_append.symm⟩
  · split
    · exact ⟨base, rfl⟩
    · exact ⟨base ++ "/", rfl⟩

end OrmGen.Path

namespace OrmGen.FileTree

/-! ## Where paths lead -/

/-- The location that a path names, seen from a working directory. -/
def destination? (workingDirectory : Location) (path : String) : Option Location :=
  (approach? workingDirectory path).map fun a => follow a.1 a.2

/-- The directories in which the names of a path are looked up. -/
def passedBy (workingDirectory : Location) (path : String) : List Location :=
  ((approach? workingDirectory path).map fun a => passed a.1 a.2).getD []

/-- The directories that are made for a path. -/
def madeBy (workingDirectory : Location) (path : String) : List Location :=
  if path = "" then []
  else ((approach? workingDirectory path).map fun a => visited a.1 a.2).getD []

/-- The locations on the way along segments, from the first name on. -/
def way (l : Location) (ss : List String) : List Location :=
  visited (follow l (ss.takeWhile isNameless)) (ss.dropWhile isNameless)

variable {path dir s : String} {l d w : Location} {ss ss' above : List String} {name : String}

theorem segments?_eq_some : segments? path = some ss ↔
    isPath path = true ∧ (path.toList.splitOn '/').map String.ofList = ss := by
  unfold segments?
  split
  · rename_i h
    simp [h]
  · rename_i h
    simp [h]

theorem destination?_eq (w : Location) (path : String) :
    destination? w path = (segments? path).map (follow (origin w path)) := by
  unfold destination? approach?
  rw [Option.map_map]
  congr 1
  funext ss
  show follow (follow _ _) _ = _
  rw [← follow_append, List.takeWhile_append_dropWhile]

theorem isIdle_ofList (cs : List Char) : isIdle (String.ofList cs) = Path.isIdle cs := by
  have hdot : String.ofList cs = String.ofList ['.'] ↔ cs = ['.'] := String.ofList_inj
  simp only [isIdle, Path.isIdle, String.ofList_eq_empty_iff, ← hdot]

/-- Segments that are added behind a name do not change where the names start. -/
theorem takeWhile_append_of_name (h : ¬ ∀ s ∈ ss, isNameless s = true) :
    (ss ++ ss').takeWhile isNameless = ss.takeWhile isNameless := by
  rw [List.takeWhile_append, if_neg]
  intro hlength
  exact h (List.takeWhile_eq_self_iff.1 ((List.takeWhile_prefix _).eq_of_length hlength))

theorem dropWhile_append_of_name (h : ¬ ∀ s ∈ ss, isNameless s = true) :
    (ss ++ ss').dropWhile isNameless = ss.dropWhile isNameless ++ ss' := by
  rw [List.dropWhile_append, if_neg]
  rwa [List.isEmpty_iff, List.dropWhile_eq_nil_iff]

/-- The approach of a path that ends in a name leaves the name to be followed. -/
theorem approach?_concat (h : segments? path = some (above ++ [name]))
    (hname : isNameless name ≠ true) :
    approach? w path = some (follow (origin w path) (above.takeWhile isNameless),
      above.dropWhile isNameless ++ [name]) := by
  unfold approach?
  rw [h, Option.map_some]
  by_cases hall : ∀ s ∈ above, isNameless s = true
  · rw [List.takeWhile_append_of_pos hall, List.dropWhile_append_of_pos hall,
      List.takeWhile_cons_of_neg hname, List.dropWhile_cons_of_neg hname, List.append_nil,
      List.takeWhile_eq_self_iff.2 hall, List.dropWhile_eq_nil_iff.2 hall, List.nil_append]
  · rw [takeWhile_append_of_name hall, dropWhile_append_of_name hall]

theorem destination?_concat (h : segments? path = some (above ++ [name]))
    (hname : isNameless name ≠ true) :
    destination? w path = some (follow (origin w path) above ++ [name]) := by
  rw [destination?_eq, h, Option.map_some, follow_concat _ _ hname]

theorem passedBy_concat (h : segments? path = some (above ++ [name]))
    (hname : isNameless name ≠ true) : passedBy w path = way (origin w path) above := by
  unfold passedBy
  rw [approach?_concat h hname, Option.map_some, Option.getD_some]
  exact passed_concat ..

/-- Idle segments at the end change nothing of the way. -/
theorem mem_way_append_idle (h : ∀ s ∈ ss', isIdle s = true) :
    d ∈ way l (ss ++ ss') ↔ d ∈ way l ss := by
  unfold way
  by_cases hall : ∀ s ∈ ss, isNameless s = true
  · have hnameless : ∀ s ∈ ss', isNameless s = true := fun s hs => isNameless_iff.2 (.inl (h s hs))
    rw [List.takeWhile_append_of_pos hall, List.dropWhile_append_of_pos hall,
      List.takeWhile_eq_self_iff.2 hnameless, List.dropWhile_eq_nil_iff.2 hnameless,
      List.takeWhile_eq_self_iff.2 hall, List.dropWhile_eq_nil_iff.2 hall, follow_append,
      follow_of_idle h]
  · rw [takeWhile_append_of_name hall, dropWhile_append_of_name hall]
    exact ⟨mem_visited_of_idle h, fun hd => visited_subset (List.prefix_append ..) hd⟩

/-- On the way down, everything passed lies above the end. -/
theorem prefix_of_mem_way (hup : ".." ∉ ss) (hd : d ∈ way l ss) : d <+: follow l ss := by
  have happend := List.takeWhile_append_dropWhile (p := isNameless) (l := ss)
  have hnames : ".." ∉ ss.dropWhile isNameless :=
    fun h => hup ((List.dropWhile_suffix _).subset h)
  have hprefix := prefix_of_mem_visited hnames hd
  rwa [← follow_append, happend] at hprefix

/-- The directories that are made for a file that has a name are among those that its path
leads through. -/
theorem mem_passedBy_of_mem_madeBy (h : Path.parent? path = some dir)
    (hpath : segments? path = some (above ++ [name])) (hname : isNameless name ≠ true)
    (hd : d ∈ madeBy w dir) : d ∈ passedBy w path := by
  obtain ⟨hvalid, hsegments⟩ := segments?_eq_some.1 hpath
  obtain ⟨above', last, hsplit, rfl, hlast⟩ := List.map_eq_append_iff.1 hsegments
  obtain ⟨name', rfl, rfl⟩ := List.map_eq_singleton_iff.1 hlast
  rw [passedBy_concat hpath hname]
  unfold madeBy at hd
  split at hd
  · cases hd
  rename_i hdir
  rw [Ne, isNameless_iff, not_or, isIdle_ofList] at hname
  obtain ⟨front, idle, idle', hfront, hdsplit, rfl, hidle, hidle'⟩ :=
    Path.sameFront_parent? h hsplit hname.1 hdir
  have hstart : origin w dir = origin w path := by
    have hne : path ≠ "" := by
      rintro rfl
      exact absurd hvalid (by decide)
    have habsolute : Path.isAbsolute dir = Path.isAbsolute path := by
      rw [Bool.eq_iff_iff, Path.isAbsolute_iff hdir, Path.isAbsolute_iff hne, hdsplit, hsplit,
        List.append_assoc, List.head?_append_of_ne_nil _ hfront,
        List.head?_append_of_ne_nil _ hfront]
    unfold origin
    rw [habsolute]
  have hall : ∀ {ss : List (List Char)}, (∀ s ∈ ss, Path.isIdle s = true) →
      ∀ s ∈ ss.map String.ofList, isIdle s = true := by
    intro ss hss s hs
    obtain ⟨cs, hcs, rfl⟩ := List.mem_map.1 hs
    rw [isIdle_ofList]
    exact hss cs hcs
  cases hss : segments? dir with
  | none =>
    unfold approach? at hd
    rw [hss] at hd
    cases hd
  | some ss =>
    unfold approach? at hd
    rw [hss] at hd
    have hway : d ∈ way (origin w dir) ss := hd
    rw [← (segments?_eq_some.1 hss).2, hdsplit, List.map_append, mem_way_append_idle (hall hidle),
      hstart] at hway
    rw [List.map_append, mem_way_append_idle (hall hidle')]
    exact hway

/-! ## The last segment -/

/-- A path that ends in a text without slashes has a last segment that ends in it. -/
theorem segments?_append {ending : String} (h : '/' ∉ ending.toList)
    (hss : segments? (s ++ ending) = some ss) :
    ∃ above last, ss = above ++ [last ++ ending] := by
  obtain ⟨above, last, hlast⟩ := Path.exists_splitOn_append s.toList h
  refine ⟨above.map String.ofList, String.ofList last, ?_⟩
  rw [← (segments?_eq_some.1 hss).2, String.toList_append, hlast, List.map_append]
  simp

theorem segments?_append_slash (h : '/' ∉ name.toList)
    (hss : segments? (s ++ "/" ++ name) = some ss) : ∃ above, ss = above ++ [name] := by
  refine ⟨(s.toList.splitOn '/').map String.ofList, ?_⟩
  have hsplit : (s ++ "/" ++ name).toList = s.toList ++ '/' :: name.toList := by
    rw [String.toList_append, String.toList_append, List.append_assoc]
    rfl
  rw [← (segments?_eq_some.1 hss).2, hsplit, Path.splitOn_append_cons h, List.map_append]
  simp

theorem getLast?_append_php (name : String) : (name ++ ".php").toList.getLast? = some 'p' := by
  simp [String.toList_append]

end OrmGen.FileTree

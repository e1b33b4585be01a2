/-
  Qualified names: the path of a class is its namespace and its name with a backslash between
  them. A namespace is joined from its segments without the backslashes at their ends
  (`joinNamespace_cons_cases`) and has none at its own (`isStripped_joinNamespace`), so a
  statement that imports a class by its qualified name is read as that name unless the name
  itself gets in the way: by white space at an end or by an ` as ` (`path_parse_joinNamespace`).
-/
import OrmGen.Config
import OrmGen.Php.Import
import OrmGen.Proofs.Text.Pieces

namespace OrmGen

open Text (IsStripped)

variable {a ns name : String} {parts segments : List String}

/-! ## Joined namespaces -/

theorem toList_join_cons (h : parts ≠ []) : ("\\".intercalate (a :: parts)).toList =
    a.toList ++ ['\\'] ++ ("\\".intercalate parts).toList := by
  rw [String.intercalate_cons_of_ne_nil h, String.toList_append, String.toList_append]
  rfl

theorem intercalate_ne_nil (hne : parts ≠ []) (h : ∀ s ∈ parts, s ≠ "") :
    ("\\".intercalate parts).toList ≠ [] := by
  cases parts with
  | nil => exact absurd rfl hne
  | cons s parts =>
    have hs : s.toList ≠ [] := fun e => h s List.mem_cons_self (String.toList_eq_nil_iff.1 e)
    by_cases hparts : parts = []
    · rw [hparts, String.intercalate_singleton]
      exact hs
    · rw [toList_join_cons hparts]
      simp [hs]

theorem isStripped_intercalate {p : Char → Bool}
    (h : ∀ s ∈ parts, s ≠ "" ∧ IsStripped p s.toList) :
    IsStripped p ("\\".intercalate parts).toList := by
  induction parts with
  | nil => exact Text.isStripped_of_forall (by simp)
  | cons s parts ih =>
    rw [List.forall_mem_cons] at h
    obtain ⟨⟨hne, hs⟩, hrest⟩ := h
    by_cases hparts : parts = []
    · rw [hparts, String.intercalate_singleton]
      exact hs
    · rw [toList_join_cons hparts]
      have hsne : s.toList ≠ [] := fun e => hne (String.toList_eq_nil_iff.1 e)
      have hrestne := intercalate_ne_nil hparts fun s hs => (hrest s hs).1
      exact hs.append (ih hrest) hsne hrestne ['\\']

/-- A joined namespace neither starts nor ends with a backslash. -/
theorem isStripped_joinNamespace (segments : List String) :
    IsStripped (· = '\\') (joinNamespace segments).toList := by
  unfold joinNamespace
  apply isStripped_intercalate
  intro s hs
  obtain ⟨htrimmed, hne⟩ := List.mem_filter.1 hs
  obtain ⟨segment, _, rfl⟩ := List.mem_map.1 htrimmed
  refine ⟨by simpa using hne, ?_⟩
  rw [String.toList_ofList]
  exact Text.isStripped_stripBy _ _

/-- A joined namespace has the characters of its segments, and backslashes. -/
theorem mem_joinNamespace {ch : Char} (h : ch ∈ (joinNamespace segments).toList) :
    ch = '\\' ∨ ∃ s ∈ segments, ch ∈ s.toList := by
  refine (Text.mem_intercalate h).imp List.mem_singleton.1 ?_
  rintro ⟨part, hpart, hmem⟩
  obtain ⟨s, hs, rfl⟩ := List.mem_map.1 (List.mem_filter.1 hpart).1
  rw [String.toList_ofList] at hmem
  exact ⟨s, hs, Text.mem_of_mem_stripBy hmem⟩

/-- A segment of a namespace as it counts: without the backslashes at its ends. -/
def stripped (s : String) : String := String.ofList (Text.stripBy (· = '\\') s.toList)

theorem isStripped_stripped (s : String) : IsStripped (· = '\\') (stripped s).toList := by
  unfold stripped
  rw [String.toList_ofList]
  exact Text.isStripped_stripBy _ _

theorem stripped_eq_self {s : String} (h : IsStripped (· = '\\') s.toList) : stripped s = s := by
  rw [stripped, Text.stripBy_eq_self h, String.ofList_toList]

theorem joinNamespace_eq (segments : List String) :
    joinNamespace segments = "\\".intercalate ((segments.map stripped).filter (· ≠ "")) := rfl

/-- Segments that count as the same texts join to the same namespace. -/
theorem joinNamespace_congr {segments' : List String}
    (h : segments'.map stripped = segments.map stripped) :
    joinNamespace segments' = joinNamespace segments := by
  rw [joinNamespace_eq, joinNamespace_eq, h]

theorem joinNamespace_cons_of_empty (h : stripped a = "") :
    joinNamespace (a :: segments) = joinNamespace segments := by
  rw [joinNamespace_eq, joinNamespace_eq, List.map_cons, h, List.filter_cons_of_neg (by simp)]

/-- A segment that counts stands in front of the others, with a backslash if there are any. -/
theorem joinNamespace_cons_cases (h : stripped a ≠ "") (segments : List String) :
    joinNamespace segments = "" ∧ joinNamespace (a :: segments) = stripped a ∨
      joinNamespace segments ≠ "" ∧ (joinNamespace (a :: segments)).toList =
        (stripped a).toList ++ '\\' :: (joinNamespace segments).toList := by
  have hne : ∀ s ∈ (segments.map stripped).filter (· ≠ ""), s ≠ "" :=
    fun s hs => by simpa using (List.mem_filter.1 hs).2
  rw [joinNamespace_eq, joinNamespace_eq, List.map_cons, List.filter_cons_of_pos (by simpa using h)]
  generalize (segments.map stripped).filter (· ≠ "") = parts at hne
  by_cases hparts : parts = []
  · refine .inl ⟨?_, ?_⟩
    · rw [hparts, String.intercalate_nil]
    · rw [hparts, String.intercalate_singleton]
  · refine .inr ⟨?_, ?_⟩
    · exact fun e => intercalate_ne_nil hparts hne (String.toList_eq_nil_iff.2 e)
    · rw [toList_join_cons hparts, List.append_assoc, List.singleton_append]

/-! ## Imports of classes -/

namespace Php.Import

/-- Whether the qualified name of a class is read from an import as it is written: neither
joining nor reading it drops anything, and it does not contain ` as `. -/
def isPlain (ns name : String) : Bool :=
  let path := ns ++ "\\" ++ name
  ns ≠ "" && joinNamespace [ns, name] = path &&
    Text.stripBy Text.isBlank path.toList = path.toList &&
    Text.splitOnce? " as ".toList path.toList = none

/-- The import of a class in a namespace leads to its qualified name. -/
theorem path_parse_joinNamespace (h : isPlain (joinNamespace segments) name = true) :
    (parse (joinNamespace [joinNamespace segments, name])).path =
      joinNamespace segments ++ "\\" ++ name := by
  have hstripped := isStripped_joinNamespace segments
  generalize joinNamespace segments = ns at *
  unfold isPlain at h
  simp only [Bool.and_eq_true, decide_eq_true_eq] at h
  obtain ⟨⟨⟨hns, hjoin⟩, hstrip⟩, hsplit⟩ := h
  have hdrop : (ns ++ "\\" ++ name).toList.dropWhile (fun c => decide (c = '\\')) =
      (ns ++ "\\" ++ name).toList := by
    cases hlist : ns.toList with
    | nil => exact absurd (String.toList_eq_nil_iff.1 hlist) hns
    | cons c cs =>
      have hhead := hstripped.head c (by rw [hlist]; rfl)
      rw [String.toList_append, String.toList_append, hlist]
      exact List.dropWhile_cons_of_neg (by simpa using hhead)
  unfold parse
  simp only [hjoin, hstrip, hdrop, hsplit, String.ofList_toList]

end Php.Import

end OrmGen

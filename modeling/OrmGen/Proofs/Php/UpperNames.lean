/-
  Upper case of names. A name in upper case is a name again (`isName_constantName`,
  `isName_accessorSuffix`): the upper-case forms of the characters of names are made of such
  characters.
-/
import OrmGen.Proofs.Php.DeclaredNames

namespace OrmGen.Php

open Text (upper caseRuns caseExpansions CaseRun)

/-- Whether a text consists of characters of names. -/
def isName (s : String) : Bool := s.toList.all isNameChar

theorem isNameChar_toUpper : ∀ n < 128, isNameChar (Char.ofNat n) = true →
    isNameChar (Char.ofNat n).toUpper = true := by
  decide +kernel

theorem isNameChar_of_mem_caseExpansions : ∀ e ∈ caseExpansions, ∀ n ∈ e.2,
    isNameChar (Char.ofNat n) = true := by
  decide +kernel

/-- The upper case of a run is above U+007F on one side of the surrogates, or it is one letter. -/
def UpperIsName (r : CaseRun) : Prop :=
  (128 ≤ r.first + r.offset ∧ r.last + r.offset < 0xD800) ∨
    (0xE000 ≤ r.first + r.offset ∧ r.last + r.offset < 0x110000) ∨
    r.first = r.last ∧ isNameChar (Char.ofNat (r.first + r.offset).toNat) = true

instance (r : CaseRun) : Decidable (UpperIsName r) := inferInstanceAs (Decidable (_ ∨ _))

theorem upperIsName_of_mem_caseRuns : ∀ r ∈ caseRuns, UpperIsName r := by
  decide +kernel

theorem isNameChar_ofNat {n : Nat} (hvalid : n.isValidChar) (hn : 128 ≤ n) :
    isNameChar (Char.ofNat n) = true := by
  have hcode : (Char.ofNat n).toNat = n := by
    rw [Char.ofNat, dif_pos hvalid]
    rfl
  simp [isNameChar, hcode, hn]

theorem isNameChar_of_has {r : CaseRun} (hr : UpperIsName r) {n : Nat} (h : r.has n = true) :
    isNameChar (Char.ofNat (n + r.offset).toNat) = true := by
  simp only [CaseRun.has, Bool.and_eq_true, decide_eq_true_eq, beq_iff_eq] at h
  obtain ⟨⟨hfirst, hlast⟩, _⟩ := h
  rcases hr with hlow | hhigh | ⟨hone, hname⟩
  · exact isNameChar_ofNat (.inl (by omega)) (by omega)
  · exact isNameChar_ofNat (.inr ⟨by omega, by omega⟩) (by omega)
  · obtain rfl : n = r.first := by omega
    exact hname

/-- The upper-case form of a character of names is made of such characters. -/
theorem isNameChar_upper {c : Char} (h : isNameChar c = true) :
    ∀ d ∈ upper c, isNameChar d = true := by
  unfold upper
  split
  · rename_i hascii
    rw [List.forall_mem_singleton]
    have htable := isNameChar_toUpper c.toNat hascii
    rw [Char.ofNat_toNat] at htable
    exact htable h
  · split
    · rename_i ns hns
      obtain ⟨before, after, hsplit, _⟩ := List.lookup_eq_some_iff.1 hns
      have hmem : (c.toNat, ns) ∈ caseExpansions := by
        rw [hsplit]
        exact List.mem_append_right _ List.mem_cons_self
      rw [List.forall_mem_map]
      exact isNameChar_of_mem_caseExpansions _ hmem
    · split
      · rename_i r hr
        rw [List.forall_mem_singleton]
        have hmem := List.mem_of_find?_eq_some hr
        have hhas := List.find?_some hr
        exact isNameChar_of_has (upperIsName_of_mem_caseRuns r hmem) hhas
      · rw [List.forall_mem_singleton]
        exact h

theorem isName_constantName {s : String} (h : isName s = true) :
    isName (constantName s) = true := by
  unfold isName constantName Text.upperCase
  rw [String.toList_ofList, List.all_flatMap, List.all_eq_true]
  intro c hc
  exact List.all_eq_true.2 (isNameChar_upper (List.all_eq_true.1 h c hc))

theorem isName_accessorSuffix {s : String} (h : isName s = true) :
    isName (accessorSuffix s) = true := by
  unfold accessorSuffix Text.capitalize
  unfold isName at h ⊢
  cases hs : s.toList with
  | nil => rfl
  | cons c cs =>
    rw [hs, List.all_cons, Bool.and_eq_true] at h
    rw [String.toList_ofList, List.all_append, Bool.and_eq_true]
    exact ⟨List.all_eq_true.2 (isNameChar_upper h.1), h.2⟩

/-- A name has no other characters. -/
theorem notMem_of_isName {s : String} (h : isName s = true) {c : Char}
    (hc : isNameChar c = false) : c ∉ s.toList := by
  intro hmem
  have hname := List.all_eq_true.1 h c hmem
  rw [hc] at hname
  cases hname

theorem readName_of_isName {s : String} (h : isName s = true) : readName s = s := by
  unfold readName
  rw [List.takeWhile_eq_self_iff.2 (List.all_eq_true.1 h), String.ofList_toList]

theorem readName_constantName {s : String} (h : isName s = true) :
    readName (constantName s) = constantName s :=
  readName_of_isName (isName_constantName h)

theorem readName_accessorSuffix {s : String} (h : isName s = true) :
    readName (accessorSuffix s) = accessorSuffix s :=
  readName_of_isName (isName_accessorSuffix h)

end OrmGen.Php

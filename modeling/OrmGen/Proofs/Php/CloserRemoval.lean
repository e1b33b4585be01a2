/-
  Taking the closers of comments out of a text. The order of the deletions is of no matter. A
  scan with a stack, in which a slash takes a star on top with it, gives the same before and
  after a deletion (`scanClosers_eq_of_deletes`), and leaves a text without closers as it is
  (`scanClosers_eq_self`). So all deletions that go on until no closer is left end in one text.
  The sweeps of the filter are such deletions and come to an end
  (`closers_are_removed_in_any_order`).
-/
import Mathlib.Logic.Relation
import OrmGen.Proofs.Php.DocComment

namespace OrmGen.Php

/-- The text `t` is `s` without one occurrence of `*/`. -/
def DeletesCloser (s t : String) : Prop :=
  ∃ before after, s = before ++ "*/" ++ after ∧ t = before ++ after

/-- Deleting one closer after another leads from `s` to `t`. -/
abbrev ReducesTo : String → String → Prop := Relation.ReflTransGen DeletesCloser

/-- The stack with one more character, or without the star on top if a slash closes it. -/
def pushChar : List Char → Char → List Char
  | '*' :: stack, '/' => stack
  | stack, c => c :: stack

/-- One scan of a text in which every slash cancels a star right before it. -/
def scanClosers (s : String) : String := String.ofList (s.toList.foldl pushChar []).reverse

variable {s t : String} {cs stack : List Char} {c : Char}

/-! ## The scan -/

theorem pushChar_eq_cons (h : ¬ (stack.head? = some '*' ∧ c = '/')) :
    pushChar stack c = c :: stack := by
  unfold pushChar
  split
  · exact absurd ⟨rfl, rfl⟩ h
  · rfl

/-- A closer leaves the stack as it is. -/
theorem foldl_pushChar_closer (stack : List Char) :
    "*/".toList.foldl pushChar stack = stack := by
  have hstar : pushChar stack '*' = '*' :: stack := pushChar_eq_cons fun h => absurd h.2 (by decide)
  show pushChar (pushChar stack '*') '/' = stack
  rw [hstar]
  rfl

theorem scanClosers_eq_of_deletes (h : DeletesCloser s t) : scanClosers t = scanClosers s := by
  obtain ⟨before, after, rfl, rfl⟩ := h
  unfold scanClosers
  rw [String.toList_append, String.toList_append, String.toList_append, List.foldl_append,
    List.foldl_append, List.foldl_append, foldl_pushChar_closer]

/-- As long as no closer comes up, the characters pile up on the stack. -/
theorem foldl_pushChar_of_not_closer (h : ¬ ['*', '/'] <:+: stack.reverse ++ cs) :
    cs.foldl pushChar stack = cs.reverse ++ stack := by
  induction cs generalizing stack with
  | nil => rfl
  | cons c cs ih =>
    have hpush : pushChar stack c = c :: stack := by
      refine pushChar_eq_cons ?_
      rintro ⟨hstar, rfl⟩
      obtain ⟨rest, rfl⟩ := List.head?_eq_some_iff.1 hstar
      exact h ⟨rest.reverse, cs, by simp⟩
    rw [List.foldl_cons, hpush, ih (by simpa using h), List.reverse_cons, List.append_assoc]
    rfl

theorem scanClosers_eq_self (h : ¬ Closes s) : scanClosers s = s := by
  have hpile : s.toList.foldl pushChar [] = s.toList.reverse ++ [] :=
    foldl_pushChar_of_not_closer h
  unfold scanClosers
  rw [hpile, List.append_nil, List.reverse_reverse, String.ofList_toList]

theorem scanClosers_eq_of_reaches (h : ReducesTo s t) :
    scanClosers t = scanClosers s := by
  induction h with
  | refl => rfl
  | tail _ hlast ih => rw [scanClosers_eq_of_deletes hlast, ih]

/-! ## Deletions one at a time -/

theorem length_of_deletes (h : DeletesCloser s t) : s.length = t.length + 2 := by
  obtain ⟨before, after, rfl, rfl⟩ := h
  have hcloser : "*/".length = 2 := rfl
  rw [String.length_append, String.length_append, String.length_append, hcloser]
  omega

/-- There is no endless sequence of deletions. -/
theorem wellFounded_deletes : WellFounded fun t s => DeletesCloser s t := by
  refine Subrelation.wf ?_ (measure String.length).wf
  intro t s h
  have hlength := length_of_deletes h
  show t.length < s.length
  omega

theorem deletes_append (before : String) (h : DeletesCloser s t) :
    DeletesCloser (before ++ s) (before ++ t) := by
  obtain ⟨front, after, rfl, rfl⟩ := h
  refine ⟨before ++ front, after, ?_, ?_⟩
  · simp only [String.append_assoc]
  · rw [String.append_assoc]

/-- A sweep deletes closers one after another. -/
theorem reaches_dropClosers (cs : List Char) :
    ReducesTo (String.ofList cs) (String.ofList (dropClosers cs)) := by
  fun_induction dropClosers cs with
  | case1 cs ih =>
    refine .head ⟨"", String.ofList cs, ?_, ?_⟩ ih
    · rw [String.empty_append, ← String.ofList_append]
      rfl
    · rw [String.empty_append]
  | case2 c cs _ ih =>
    have hcons (ds : List Char) :
        String.ofList (c :: ds) = String.ofList [c] ++ String.ofList ds := by
      rw [← String.ofList_append]
      rfl
    rw [hcons cs, hcons (dropClosers cs)]
    exact ih.lift (String.ofList [c] ++ ·) fun _ _ => deletes_append (String.ofList [c])
  | case3 => exact .refl

/-! ## Sweeps -/

theorem dropClosers_eq_self (h : ¬ ['*', '/'] <:+: cs) : dropClosers cs = cs := by
  fun_induction dropClosers cs with
  | case1 cs => exact absurd ⟨[], cs, rfl⟩ h
  | case2 c cs _ ih =>
    rw [closer_infix_cons_iff, not_or] at h
    rw [ih h.2]
  | case3 => rfl

/-- The loop goes through so many sweeps: before each of them there is a closer, and after the
last there is none. -/
theorem exists_sweeps (cs : List Char) : ∃ n, withoutClosers cs = dropClosers^[n] cs ∧
    (∀ m < n, ['*', '/'] <:+: dropClosers^[m] cs) ∧
    ReducesTo (String.ofList cs) (String.ofList (withoutClosers cs)) := by
  fun_induction withoutClosers cs with
  | case1 cs hshorter ih =>
    obtain ⟨n, hresult, hbefore, hreaches⟩ := ih
    refine ⟨n + 1, hresult, ?_, (reaches_dropClosers cs).trans hreaches⟩
    intro m hm
    cases m with
    | zero =>
      by_contra hclosed
      have hsame : dropClosers cs = cs := dropClosers_eq_self hclosed
      rw [hsame] at hshorter
      exact lt_irrefl _ hshorter
    | succ m => exact hbefore m (by omega)
  | case2 cs => exact ⟨0, rfl, fun m hm => absurd hm (Nat.not_lt_zero m), .refl⟩

theorem reaches_sanitizeTag (s : String) : ReducesTo s (sanitizeTag s) := by
  obtain ⟨_, _, _, hreaches⟩ := exists_sweeps s.toList
  rwa [String.ofList_toList] at hreaches

theorem sanitizeTag_eq_scanClosers (s : String) : sanitizeTag s = scanClosers s := by
  rw [← scanClosers_eq_of_reaches (reaches_sanitizeTag s),
    scanClosers_eq_self (not_closes_sanitizeTag s)]

example : scanClosers "a***///b" = "ab" := by decide

/-- Wherever deletions end, they end in the text that is written. -/
theorem eq_sanitizeTag_of_reaches (h : ReducesTo s t) (ht : ¬ Closes t) :
    t = sanitizeTag s := by
  rw [sanitizeTag_eq_scanClosers, ← scanClosers_eq_of_reaches h, scanClosers_eq_self ht]

theorem sanitizeTag_eq_self_iff : sanitizeTag s = s ↔ ¬ Closes s := by
  constructor
  · intro h
    rw [← h]
    exact not_closes_sanitizeTag s
  · intro h
    exact (eq_sanitizeTag_of_reaches .refl h).symm

/-- The filter for annotations sweeps until no `*/` is left, which takes finitely many sweeps.
It ends where all deletions end that take out one `*/` after another, in any order, until none
is left, and these always come to an end. That is also where a single scan with a stack ends.
So what is written has no `*/`, a text without any is written as it is, and filtering once is
filtering twice. -/
theorem closers_are_removed_in_any_order (s : String) :
    (∃ n, (sanitizeTag s).toList = dropClosers^[n] s.toList ∧
      ∀ m < n, ['*', '/'] <:+: dropClosers^[m] s.toList) ∧
    Acc (fun t s => DeletesCloser s t) s ∧
    (∀ t, ReducesTo s t ∧ ¬ Closes t ↔ t = sanitizeTag s) ∧
    sanitizeTag s = scanClosers s ∧
    ¬ Closes (sanitizeTag s) ∧ (sanitizeTag s = s ↔ ¬ Closes s) ∧
    sanitizeTag (sanitizeTag s) = sanitizeTag s := by
  have hclosed := not_closes_sanitizeTag s
  refine ⟨?_, wellFounded_deletes.apply s, ?_, sanitizeTag_eq_scanClosers s, hclosed,
    sanitizeTag_eq_self_iff, sanitizeTag_eq_self_iff.2 hclosed⟩
  · obtain ⟨n, hresult, hbefore, _⟩ := exists_sweeps s.toList
    refine ⟨n, ?_, hbefore⟩
    unfold sanitizeTag
    rw [String.toList_ofList, hresult]
  · intro t
    constructor
    · rintro ⟨hreaches, ht⟩
      exact eq_sanitizeTag_of_reaches hreaches ht
    · rintro rfl
      exact ⟨reaches_sanitizeTag s, hclosed⟩

end OrmGen.Php

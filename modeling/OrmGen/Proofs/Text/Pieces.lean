/-
  Pieces of texts. A word has neither blanks nor marks (`isWord`), and a text is cut at the
  first occurrence of a character in one way only (`append_cons_inj`). A stripped text has no
  unwanted character at its ends (`IsStripped`), and what is added at the ends of a text does
  not change it stripped (`stripBy_append`). The last separator of a text divides it into the
  parts `beforeLast` and `afterLast`, the first occurrence of a longer one is where `splitOnce?`
  cuts (`splitOnce?_eq_some_iff`), and lines are found again in the text that they are joined to
  (`takeWhile_splitOn_intercalate`).
-/
import Mathlib.Data.List.DropRight
import OrmGen.Text.Blank
import OrmGen.Text.Split

namespace OrmGen.Text

variable {p : Char → Bool} {xs ys cs : List Char} {sep c : Char}

/-! ## Words -/

/-- Whether a text consists of ASCII letters, digits and underscores. -/
def isWord (s : String) : Bool := s.toList.all fun c => c.isAlphanum || c = '_'

theorem notMem_of_isWord {s : String} (h : isWord s = true) {c : Char}
    (hc : (c.isAlphanum || c = '_') = false) : c ∉ s.toList := by
  intro hmem
  have := List.all_eq_true.1 h c hmem
  rw [hc] at this
  cases this

/-- A text is cut at the first separator in one way only. -/
theorem append_cons_inj {sep : Char} {a b u v : List Char} (ha : sep ∉ a) (hb : sep ∉ b)
    (h : a ++ sep :: u = b ++ sep :: v) : a = b ∧ u = v := by
  induction a generalizing b with
  | nil =>
    cases b with
    | nil => exact ⟨rfl, (List.cons.inj h).2⟩
    | cons d b => exact absurd ((List.cons.inj h).1 ▸ List.mem_cons_self) hb
  | cons c a ih =>
    cases b with
    | nil => exact absurd ((List.cons.inj h).1 ▸ List.mem_cons_self) ha
    | cons d b =>
      obtain ⟨hcd, htail⟩ := List.cons.inj h
      obtain ⟨hab, huv⟩ := ih (fun hm => ha (List.mem_cons_of_mem _ hm))
        (fun hm => hb (List.mem_cons_of_mem _ hm)) htail
      exact ⟨by rw [hcd, hab], huv⟩

/-! ## Ends -/

/-- No character satisfying `p` stands at either end. -/
structure IsStripped (p : Char → Bool) (cs : List Char) : Prop where
  head : ∀ c ∈ cs.head?, p c = false
  last : ∀ c ∈ cs.getLast?, p c = false

theorem isStripped_stripBy (p : Char → Bool) (cs : List Char) : IsStripped p (stripBy p cs) := by
  constructor
  · intro c hc
    have hne : stripBy p cs ≠ [] := by
      rintro hnil
      rw [hnil] at hc
      cases hc
    obtain ⟨rest, hrest⟩ : stripBy p cs <+: cs.dropWhile p := isPrefix_dropTailWhile p _
    have hhead : (cs.dropWhile p).head? = some c := by
      rw [← hrest, List.head?_append_of_ne_nil _ hne]
      exact hc
    have hdrop := List.head?_dropWhile_not p cs
    rw [hhead] at hdrop
    exact hdrop
  · intro c hc
    have hne : (cs.dropWhile p).rdropWhile p ≠ [] := by
      rintro hnil
      have hstrip : stripBy p cs = [] := hnil
      rw [hstrip] at hc
      cases hc
    have hlast := List.rdropWhile_last_not p _ hne
    have hc' : ((cs.dropWhile p).rdropWhile p).getLast? = some c := hc
    rw [List.getLast?_eq_some_getLast hne, Option.some.injEq] at hc'
    rw [hc'] at hlast
    simpa using hlast

/-- What stands between two stripped texts does not matter. -/
theorem IsStripped.append (hx : IsStripped p xs) (hy : IsStripped p ys) (hxs : xs ≠ [])
    (hys : ys ≠ []) (mid : List Char) : IsStripped p (xs ++ mid ++ ys) := by
  constructor
  · intro c hc
    rw [List.append_assoc, List.head?_append_of_ne_nil _ hxs] at hc
    exact hx.head c hc
  · intro c hc
    rw [List.getLast?_append_of_ne_nil _ hys] at hc
    exact hy.last c hc

theorem isStripped_of_forall (h : ∀ c ∈ cs, p c = false) : IsStripped p cs :=
  ⟨fun c hc => h c (List.mem_of_mem_head? hc), fun c hc => h c (List.mem_of_mem_getLast? hc)⟩

theorem IsStripped.dropWhile_eq (h : IsStripped p cs) : cs.dropWhile p = cs := by
  cases cs with
  | nil => rfl
  | cons c cs => exact List.dropWhile_cons_of_neg (by simp [h.head c rfl])

theorem stripBy_eq_self (h : IsStripped p cs) : stripBy p cs = cs := by
  have hlast : cs.rdropWhile p = cs := by
    rw [List.rdropWhile_eq_self_iff]
    intro hne
    simp [h.last _ (List.getLast?_eq_some_getLast hne)]
  unfold stripBy
  rw [h.dropWhile_eq]
  exact hlast

/-- What is added at the ends is cut off again. -/
theorem stripBy_append (hxs : ∀ c ∈ xs, p c = true) (hys : ∀ c ∈ ys, p c = true)
    (cs : List Char) : stripBy p (xs ++ cs ++ ys) = stripBy p cs := by
  unfold stripBy dropTailWhile
  rw [List.append_assoc, List.dropWhile_append_of_pos hxs, List.dropWhile_append]
  split
  · rename_i hempty
    rw [List.isEmpty_iff.1 hempty, List.dropWhile_eq_nil_iff.2 hys]
  · have hys' : ∀ c ∈ ys.reverse, p c = true := fun c hc => hys c (List.mem_reverse.1 hc)
    rw [List.reverse_append, List.dropWhile_append_of_pos hys']

theorem exists_append_stripBy (p : Char → Bool) (cs : List Char) : ∃ xs ys,
    (∀ c ∈ xs, p c = true) ∧ (∀ c ∈ ys, p c = true) ∧ cs = xs ++ stripBy p cs ++ ys := by
  refine ⟨cs.takeWhile p, (cs.dropWhile p).rtakeWhile p, ?_, ?_, ?_⟩
  · exact fun c => List.mem_takeWhile_imp
  · exact fun c => List.mem_rtakeWhile_imp
  · have hback : stripBy p cs ++ (cs.dropWhile p).rtakeWhile p = cs.dropWhile p :=
      List.rdropWhile_append_rtakeWhile
    rw [List.append_assoc, hback, List.takeWhile_append_dropWhile]

/-- Stripping removes only what it is meant to. -/
theorem mem_stripBy_of_not (h : c ∈ cs) (hc : p c = false) : c ∈ stripBy p cs := by
  obtain ⟨xs, ys, hxs, hys, hcs⟩ := exists_append_stripBy p cs
  rw [hcs, List.mem_append, List.mem_append] at h
  rcases h with (hfront | hmem) | hback
  · rw [hxs c hfront] at hc
    cases hc
  · exact hmem
  · rw [hys c hback] at hc
    cases hc

/-- Dropping characters in front stops at one that is to stay. -/
theorem dropWhile_append_cons (hc : p c = false) (xs ys : List Char) :
    (xs ++ c :: ys).dropWhile p = xs.dropWhile p ++ c :: ys := by
  induction xs with
  | nil => exact List.dropWhile_cons_of_neg (by simp [hc])
  | cons x xs ih =>
    by_cases hx : p x = true
    · rw [List.cons_append, List.dropWhile_cons_of_pos hx, ih, List.dropWhile_cons_of_pos hx]
    · rw [List.cons_append, List.dropWhile_cons_of_neg hx, List.dropWhile_cons_of_neg hx,
        List.cons_append]

/-! ## Separators -/

theorem forall_mem_reverse_ne (h : sep ∉ cs) : ∀ c ∈ cs.reverse, decide (c ≠ sep) = true := by
  intro c hc
  have hne : c ≠ sep := fun e => h (e ▸ List.mem_reverse.1 hc)
  simpa using hne

theorem afterLast_append_cons (h : sep ∉ ys) : afterLast sep (xs ++ sep :: ys) = ys := by
  have hall := forall_mem_reverse_ne h
  unfold afterLast
  rw [List.reverse_append, List.reverse_cons, List.append_assoc, List.singleton_append,
    List.takeWhile_append_of_pos hall, List.takeWhile_cons_of_neg (by simp), List.append_nil,
    List.reverse_reverse]

theorem beforeLast_append_cons (h : sep ∉ ys) : beforeLast sep (xs ++ sep :: ys) = xs := by
  have hall := forall_mem_reverse_ne h
  unfold beforeLast
  rw [List.reverse_append, List.reverse_cons, List.append_assoc, List.singleton_append,
    List.dropWhile_append_of_pos hall, List.dropWhile_cons_of_neg (by simp), List.drop_one,
    List.tail_cons, List.reverse_reverse]

theorem notMem_afterLast : sep ∉ afterLast sep cs := by
  intro hmem
  unfold afterLast at hmem
  rw [List.mem_reverse] at hmem
  have hne := List.mem_takeWhile_imp hmem
  simp at hne

theorem beforeLast_append_afterLast (h : sep ∈ cs) :
    beforeLast sep cs ++ sep :: afterLast sep cs = cs := by
  obtain ⟨ys, xs, hsplit, hys⟩ := List.eq_append_cons_of_mem (List.mem_reverse.2 h)
  have hcs : cs = xs.reverse ++ sep :: ys.reverse := by
    rw [← List.reverse_reverse cs, hsplit]
    simp
  have hnot : sep ∉ ys.reverse := fun hmem => hys (List.mem_reverse.1 hmem)
  rw [hcs, beforeLast_append_cons hnot, afterLast_append_cons hnot]

theorem beforeLast_eq_nil (h : sep ∉ cs) : beforeLast sep cs = [] := by
  have hall := forall_mem_reverse_ne h
  have hdrop : cs.reverse.dropWhile (fun c => decide (c ≠ sep)) = [] :=
    List.dropWhile_eq_nil_iff.2 hall
  unfold beforeLast
  rw [hdrop]
  rfl

theorem afterLast_eq_self (h : sep ∉ cs) : afterLast sep cs = cs := by
  have hall := forall_mem_reverse_ne h
  unfold afterLast
  rw [List.takeWhile_eq_self_iff.2 hall, List.reverse_reverse]

theorem afterLast_cons_self : afterLast sep (sep :: cs) = afterLast sep cs := by
  by_cases h : sep ∈ cs
  · calc afterLast sep (sep :: cs)
        = afterLast sep ((sep :: beforeLast sep cs) ++ sep :: afterLast sep cs) := by
          rw [List.cons_append, beforeLast_append_afterLast h]
      _ = afterLast sep cs := afterLast_append_cons notMem_afterLast
  · rw [afterLast_eq_self h]
    have hfirst : afterLast sep ([] ++ sep :: cs) = cs := afterLast_append_cons h
    exact hfirst

/-- Leading separators do not change what follows the last one. -/
theorem afterLast_dropWhile : afterLast sep (cs.dropWhile (· = sep)) = afterLast sep cs := by
  induction cs with
  | nil => rfl
  | cons c cs ih =>
    by_cases hc : c = sep
    · rw [List.dropWhile_cons_of_pos (by simpa using hc), ih, hc, afterLast_cons_self]
    · rw [List.dropWhile_cons_of_neg (by simpa using hc)]

theorem takeWhile_filter_ne (hp : p sep = true) :
    (cs.filter p).takeWhile (· ≠ sep) = (cs.takeWhile (· ≠ sep)).filter p := by
  induction cs with
  | nil => rfl
  | cons c cs ih =>
    by_cases hc : c = sep
    · subst hc
      simp [hp]
    · by_cases hpc : p c = true
      · rw [List.filter_cons_of_pos hpc, List.takeWhile_cons_of_pos (by simpa using hc), ih,
          List.takeWhile_cons_of_pos (by simpa using hc), List.filter_cons_of_pos hpc]
      · rw [List.filter_cons_of_neg hpc, ih, List.takeWhile_cons_of_pos (by simpa using hc),
          List.filter_cons_of_neg hpc]

/-- A filter that keeps the separators can be applied before or after. -/
theorem afterLast_filter (hp : p sep = true) :
    afterLast sep (cs.filter p) = (afterLast sep cs).filter p := by
  unfold afterLast
  rw [← List.filter_reverse, takeWhile_filter_ne hp, List.filter_reverse]

/-- Every character other than the separator stands in one of the pieces. -/
theorem exists_mem_splitOn (h : c ∈ cs) (hne : c ≠ sep) : ∃ piece ∈ cs.splitOn sep, c ∈ piece := by
  induction cs with
  | nil => cases h
  | cons d cs ih =>
    obtain ⟨first, rest, hsplit⟩ := List.exists_cons_of_ne_nil (List.splitOn_ne_nil sep cs)
    rw [List.splitOn_cons_eq_if_modifyHead, hsplit]
    rw [hsplit] at ih
    rcases List.mem_cons.1 h with rfl | hmem
    · have hfirst : (c == sep) = false := by simpa using hne
      rw [hfirst]
      exact ⟨c :: first, List.mem_cons_self, List.mem_cons_self⟩
    · obtain ⟨piece, hpiece, hc⟩ := ih hmem
      split
      · exact ⟨piece, List.mem_cons_of_mem _ hpiece, hc⟩
      · rcases List.mem_cons.1 hpiece with rfl | hpiece
        · exact ⟨d :: piece, List.mem_cons_self, List.mem_cons_of_mem _ hc⟩
        · exact ⟨piece, List.mem_cons_of_mem _ hpiece, hc⟩

/-- The pieces have no other characters than the text. -/
theorem mem_of_mem_splitOn {piece : List Char} (h : piece ∈ cs.splitOn sep) (hc : c ∈ piece) :
    c ∈ cs := by
  induction cs generalizing piece with
  | nil =>
    rw [List.splitOn_nil, List.mem_singleton] at h
    rw [h] at hc
    exact hc
  | cons d cs ih =>
    obtain ⟨first, rest, hsplit⟩ := List.exists_cons_of_ne_nil (List.splitOn_ne_nil sep cs)
    rw [hsplit] at ih
    rw [List.splitOn_cons_eq_if_modifyHead, hsplit] at h
    split at h
    · rcases List.mem_cons.1 h with rfl | hpiece
      · cases hc
      · exact List.mem_cons_of_mem _ (ih hpiece hc)
    · rcases List.mem_cons.1 h with rfl | hpiece
      · rcases List.mem_cons.1 hc with rfl | hfirst
        · exact List.mem_cons_self
        · exact List.mem_cons_of_mem _ (ih List.mem_cons_self hfirst)
      · exact List.mem_cons_of_mem _ (ih (List.mem_cons_of_mem _ hpiece) hc)

theorem isPrefixOf?_append (xs ys : List Char) : xs.isPrefixOf? (xs ++ ys) = some ys := by
  induction xs with
  | nil => simp [List.isPrefixOf?]
  | cons x xs ih => simp [List.isPrefixOf?, ih]

theorem eq_append_of_isPrefixOf? {rest : List Char} (h : xs.isPrefixOf? ys = some rest) :
    ys = xs ++ rest := by
  induction xs generalizing ys with
  | nil =>
    rw [List.isPrefixOf?, Option.some.injEq] at h
    rw [h, List.nil_append]
  | cons x xs ih =>
    cases ys with
    | nil => cases h
    | cons y ys =>
      rw [List.isPrefixOf?] at h
      split at h
      · rename_i hxy
        rw [ih h, eq_of_beq hxy, List.cons_append]
      · cases h

/-- A separator is found after a text in which its first character does not occur. -/
theorem splitOnce?_append {rest : List Char} (h : c ∉ xs) :
    splitOnce? (c :: rest) (xs ++ c :: rest ++ ys) = some (xs, ys) := by
  induction xs with
  | nil =>
    have hprefix := isPrefixOf?_append (c :: rest) ys
    rw [List.cons_append] at hprefix
    rw [List.nil_append, List.cons_append, splitOnce?, hprefix]
  | cons x xs ih =>
    rw [List.mem_cons, not_or] at h
    have hprefix : (c :: rest).isPrefixOf? (x :: (xs ++ c :: rest ++ ys)) = none := by
      simp [List.isPrefixOf?, h.1]
    rw [List.cons_append, List.cons_append, splitOnce?, hprefix]
    simp only
    rw [ih h.2]
    rfl

theorem isPrefixOf?_eq_none_iff : xs.isPrefixOf? ys = none ↔ ¬ xs <+: ys := by
  constructor
  · rintro h ⟨rest, rfl⟩
    rw [isPrefixOf?_append] at h
    cases h
  · intro h
    rw [Option.eq_none_iff_forall_ne_some]
    intro rest hrest
    exact h ⟨rest, (eq_append_of_isPrefixOf? hrest).symm⟩

section FirstOccurrence

variable {sep : List Char}

/-- A separator is not found exactly if it does not occur. -/
theorem splitOnce?_eq_none_iff (hsep : sep ≠ []) : splitOnce? sep cs = none ↔ ¬ sep <:+: cs := by
  induction cs with
  | nil =>
    rw [splitOnce?, if_neg hsep, List.infix_nil]
    simp [hsep]
  | cons c cs ih =>
    rw [splitOnce?, List.infix_cons_iff, not_or, ← isPrefixOf?_eq_none_iff]
    cases sep.isPrefixOf? (c :: cs) with
    | some rest => simp
    | none => simp [ih]

/-- A separator is not found where its first character does not occur. -/
theorem splitOnce?_eq_none {rest : List Char} (h : c ∉ cs) : splitOnce? (c :: rest) cs = none := by
  rw [splitOnce?_eq_none_iff (List.cons_ne_nil c rest)]
  exact fun hpart => h (hpart.subset List.mem_cons_self)

/-- The cut is made at the first occurrence, before whose end there is no other. -/
theorem splitOnce?_eq_some_iff (hsep : sep ≠ []) : splitOnce? sep cs = some (xs, ys) ↔
    cs = xs ++ sep ++ ys ∧ ¬ sep <:+: xs ++ sep.dropLast := by
  have hshorter : sep.dropLast.length < sep.length := by
    rw [List.length_dropLast]
    have hpos := List.length_pos_iff.2 hsep
    omega
  induction cs generalizing xs with
  | nil =>
    rw [splitOnce?, if_neg hsep]
    simp [hsep]
  | cons c cs ih =>
    rw [splitOnce?]
    cases hprefix : sep.isPrefixOf? (c :: cs) with
    | some rest =>
      have hcs := eq_append_of_isPrefixOf? hprefix
      show some ([], rest) = some (xs, ys) ↔ _
      rw [Option.some.injEq, Prod.mk.injEq]
      cases xs with
      | nil =>
        have hnot : ¬ sep <:+: sep.dropLast := fun h => absurd h.length_le (by omega)
        rw [hcs, List.nil_append, List.append_right_inj]
        simp [hnot]
      | cons x xs =>
        refine iff_of_false (by simp) ?_
        rintro ⟨hsplit, hfirst⟩
        -- the separator at the front ends before the one after `xs` does
        have hwhole : x :: xs ++ sep.dropLast <+: c :: cs := by
          rw [hsplit, List.append_assoc, List.prefix_append_right_inj]
          exact (List.dropLast_prefix sep).trans (List.prefix_append _ _)
        have hfront : sep <+: c :: cs := ⟨rest, hcs.symm⟩
        have hlength : sep.length ≤ (x :: xs ++ sep.dropLast).length := by
          rw [List.length_append, List.length_cons, List.length_dropLast]
          omega
        exact hfirst (List.prefix_of_prefix_length_le hfront hwhole hlength).isInfix
    | none =>
      have hnot := isPrefixOf?_eq_none_iff.1 hprefix
      show ((splitOnce? sep cs).map fun p => (c :: p.1, p.2)) = some (xs, ys) ↔ _
      cases xs with
      | nil =>
        refine iff_of_false (by simp) ?_
        rintro ⟨hsplit, _⟩
        exact hnot ⟨ys, hsplit.symm⟩
      | cons x xs =>
        have hrest : (splitOnce? sep cs).map (fun p => (c :: p.1, p.2)) = some (x :: xs, ys) ↔
            c = x ∧ splitOnce? sep cs = some (xs, ys) := by
          cases splitOnce? sep cs with
          | none => simp
          | some q => simp [Prod.ext_iff, and_assoc]
        have hlater : splitOnce? sep cs = some (xs, ys) ↔
            cs = xs ++ sep ++ ys ∧ ¬ sep <:+: xs ++ sep.dropLast := ih
        rw [hrest, hlater, List.cons_append, List.cons_append, List.cons_append, List.cons.injEq,
          List.infix_cons_iff, not_or, and_assoc]
        refine and_congr_right ?_
        rintro rfl
        refine and_congr_right ?_
        rintro rfl
        rw [iff_and_self]
        intro _ hfront
        refine hnot (hfront.trans ?_)
        rw [← List.cons_append, ← List.cons_append, ← List.cons_append, List.append_assoc,
          List.prefix_append_right_inj]
        exact (List.dropLast_prefix sep).trans (List.prefix_append _ _)

end FirstOccurrence

/-- Joined texts have the characters of the texts and those of the separator. -/
theorem mem_intercalate {sep : String} {parts : List String}
    (h : c ∈ (sep.intercalate parts).toList) : c ∈ sep.toList ∨ ∃ s ∈ parts, c ∈ s.toList := by
  induction parts with
  | nil => simp at h
  | cons s parts ih =>
    by_cases hparts : parts = []
    · rw [hparts, String.intercalate_singleton] at h
      exact .inr ⟨s, List.mem_cons_self, h⟩
    · rw [String.intercalate_cons_of_ne_nil hparts, String.toList_append, String.toList_append,
        List.mem_append, List.mem_append] at h
      rcases h with (hs | hsep) | hrest
      · exact .inr ⟨s, List.mem_cons_self, hs⟩
      · exact .inl hsep
      · refine (ih hrest).imp_right ?_
        rintro ⟨t, ht, hmem⟩
        exact ⟨t, List.mem_cons_of_mem _ ht, hmem⟩

/-! ## Lines -/

/-- The lines before the first empty one are found again in the text that they are joined
to. -/
theorem takeWhile_splitOn_intercalate {ls rest : List (List Char)}
    (h : ∀ l ∈ ls, l ≠ [] ∧ sep ∉ l) :
    (([sep].intercalate (ls ++ [] :: rest)).splitOn sep).takeWhile (· ≠ []) = ls := by
  induction ls with
  | nil =>
    cases rest with
    | nil => simp
    | cons r rest =>
      rw [List.nil_append, List.intercalate_cons_of_ne_nil (List.cons_ne_nil _ _),
        List.nil_append, List.singleton_append]
      have hcut : (sep :: [sep].intercalate (r :: rest)).splitOn sep =
          [] :: ([sep].intercalate (r :: rest)).splitOn sep :=
        List.splitOn_append_cons_self_of_not_mem List.not_mem_nil _
      rw [hcut, List.takeWhile_cons_of_neg (by simp)]
  | cons l ls ih =>
    rw [List.forall_mem_cons] at h
    obtain ⟨⟨hne, hsep⟩, hrest⟩ := h
    rw [List.cons_append, List.intercalate_cons_of_ne_nil (by simp), List.append_assoc,
      List.singleton_append, List.splitOn_append_cons_self_of_not_mem hsep,
      List.takeWhile_cons_of_pos (by simpa using hne), ih hrest]

end OrmGen.Text

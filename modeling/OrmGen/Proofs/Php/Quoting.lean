/-
  Strings in literals, as they are read from the left: a quote opens a string, the next one
  closes it, and a backslash inside a string takes the next character along (`Quoting`). A text is
  closed if no string is left open at its end (`IsClosed`).

  The literal for a text is one closed string. The filter for literals is applied when the text is
  already quoted, but it splits no escape: of what is written for a character it keeps all or
  nothing (`filter_encodeChar`). So what it leaves is again the literal for a text, the one without
  the characters that do not survive (`keep_encode`).
-/
import OrmGen.Php.Filter
import OrmGen.Proofs.Json.Literal

namespace OrmGen.Php

open Json.Literal (encode encodeChar hexByte shortEscape? encodeChar_cases)

/-! ## Reading strings -/

/-- Where a reader stands: outside of strings, inside one, or behind a backslash inside one. -/
inductive Quoting where
  | outside
  | inside
  | escaped
deriving DecidableEq, Repr

namespace Quoting

/-- Read one character. -/
def step : Quoting → Char → Quoting
  | .outside, c => if c = '"' then .inside else .outside
  | .inside, c => if c = '"' then .outside else if c = '\\' then .escaped else .inside
  | .escaped, _ => .inside

/-- Where a reader stands after a text. -/
def after (q : Quoting) (cs : List Char) : Quoting := cs.foldl step q

variable {q : Quoting} {c : Char} {xs ys : List Char}

@[simp]
theorem after_nil : q.after [] = q := rfl

@[simp]
theorem after_cons : q.after (c :: xs) = (q.step c).after xs := rfl

@[simp]
theorem after_append : q.after (xs ++ ys) = (q.after xs).after ys := List.foldl_append

end Quoting

/-- No string is left open at the end of the text. -/
def IsClosed (s : String) : Prop := Quoting.after .outside s.toList = .outside

instance (s : String) : Decidable (IsClosed s) := inferInstanceAs (Decidable (_ = _))

/-- What can stand between the quotes of one string: characters other than quotes and
backslashes, and backslashes with any character behind each. -/
inductive IsBody : List Char → Prop where
  | nil : IsBody []
  | plain {c : Char} {cs : List Char} : c ≠ '"' → c ≠ '\\' → IsBody cs → IsBody (c :: cs)
  | escape {c : Char} {cs : List Char} : IsBody cs → IsBody ('\\' :: c :: cs)

variable {s t : String} {cs xs ys : List Char}

namespace IsBody

theorem append (hxs : IsBody xs) (hys : IsBody ys) : IsBody (xs ++ ys) := by
  induction hxs with
  | nil => exact hys
  | plain hquote hbackslash _ ih => exact .plain hquote hbackslash ih
  | escape _ ih => exact .escape ih

theorem flatMap {f : Char → List Char} (h : ∀ c ∈ cs, IsBody (f c)) : IsBody (cs.flatMap f) := by
  induction cs with
  | nil => exact .nil
  | cons c cs ih =>
    rw [List.forall_mem_cons] at h
    rw [List.flatMap_cons]
    exact h.1.append (ih h.2)

theorem of_notMem (hquote : '"' ∉ cs) (hbackslash : '\\' ∉ cs) : IsBody cs := by
  induction cs with
  | nil => exact .nil
  | cons c cs ih =>
    rw [List.mem_cons, not_or] at hquote hbackslash
    exact .plain (Ne.symm hquote.1) (Ne.symm hbackslash.1) (ih hquote.2 hbackslash.2)

/-- Inside a string, a body is read up to its end. -/
theorem after_inside (h : IsBody cs) : Quoting.after .inside cs = .inside := by
  induction h with
  | nil => rfl
  | plain hquote hbackslash _ ih => simp [Quoting.step, hquote, hbackslash, ih]
  | escape _ ih => simp [Quoting.step, ih]

end IsBody

/-! ## Closed texts -/

theorem IsClosed.append (hs : IsClosed s) (ht : IsClosed t) : IsClosed (s ++ t) := by
  unfold IsClosed at *
  rw [String.toList_append, Quoting.after_append, hs, ht]

theorem isClosed_of_quote_notMem (h : '"' ∉ s.toList) : IsClosed s := by
  unfold IsClosed
  generalize s.toList = cs at h
  induction cs with
  | nil => rfl
  | cons c cs ih =>
    rw [List.mem_cons, not_or] at h
    rw [Quoting.after_cons, Quoting.step, if_neg (Ne.symm h.1), ih h.2]

theorem isClosed_of_body (h : IsBody cs) : IsClosed (String.ofList ('"' :: cs ++ ['"'])) := by
  unfold IsClosed
  rw [String.toList_ofList, List.cons_append, Quoting.after_cons, Quoting.after_append]
  show ((Quoting.inside.after cs).after ['"']) = .outside
  rw [h.after_inside]
  rfl

theorem isBody_hexByte : ∀ n < 0x20, IsBody (hexByte n) := by
  intro n hn
  have hplain : ∀ n < 0x20, '"' ∉ hexByte n ∧ '\\' ∉ hexByte n := by
    decide +kernel
  exact .of_notMem (hplain n hn).1 (hplain n hn).2

theorem isBody_encodeChar (c : Char) : IsBody (encodeChar c) := by
  rcases encodeChar_cases c with ⟨e, _, _, hencode⟩ | ⟨hcontrol, hencode⟩ |
    ⟨hquote, hbackslash, _, hencode⟩
  · rw [hencode]
    exact .escape .nil
  · rw [hencode]
    exact .escape (.plain (by decide) (by decide) (.plain (by decide) (by decide)
      (isBody_hexByte _ hcontrol)))
  · rw [hencode]
    exact .plain hquote hbackslash .nil

/-- The literal for a text is one string. -/
theorem isBody_encode (cs : List Char) : IsBody (cs.flatMap encodeChar) :=
  .flatMap fun c _ => isBody_encodeChar c

theorem isClosed_encode (s : String) : IsClosed (encode s) := isClosed_of_body (isBody_encode _)

/-! ## Filtered literals -/

/-- The characters that are found again in the filtered literal for a text: letters and digits,
white space, some marks, and the controls that are written with letters and digits. -/
def survives (c : Char) : Bool :=
  c.isAlphanum || Text.isBlank c || ['.', '(', ')', '[', ']', ',', '"', '\\'].contains c
    || c.toNat < 0x20

theorem survives_iff {c : Char} :
    survives c = true ↔ isLiteralChar c = true ∨ c.toNat < 0x20 := by
  simp only [survives, isLiteralChar, isLetterOrDigit, Bool.or_eq_true, decide_eq_true_eq,
    List.contains_iff_mem, List.mem_cons, List.not_mem_nil]
  grind

/-- What is written for a character is kept or taken out as a whole. -/
theorem filter_encodeChar (c : Char) :
    (encodeChar c).filter isLiteralChar = if survives c then encodeChar c else [] := by
  rcases encodeChar_cases c with ⟨e, he, hshort, hencode⟩ | ⟨hcontrol, hencode⟩ |
    ⟨_, _, hplain, hencode⟩
  · have hletters : (['"', '\\', 'b', 't', 'n', 'f', 'r'].all fun e =>
        isLiteralChar e && (shortEscape? e).all survives) = true := by decide
    obtain ⟨hletter, hall⟩ := Bool.and_eq_true_iff.1 (List.all_eq_true.1 hletters e he)
    have hsurvives : survives c = true := by
      rwa [hshort, Option.all_some] at hall
    have hbackslash : isLiteralChar '\\' = true := by decide
    rw [if_pos hsurvives, hencode]
    simp [hbackslash, hletter]
  · have hdigits : ∀ n < 0x20, (hexByte n).filter isLiteralChar = hexByte n := by
      decide +kernel
    have hfront : ['\\', 'u', '0', '0'].filter isLiteralChar = ['\\', 'u', '0', '0'] := by decide
    rw [if_pos (survives_iff.2 (.inr hcontrol)), hencode]
    show (['\\', 'u', '0', '0'] ++ hexByte c.toNat).filter isLiteralChar = _
    rw [List.filter_append, hfront, hdigits _ hcontrol]
    rfl
  · have hsame : survives c = isLiteralChar c := by
      rw [Bool.eq_iff_iff, survives_iff]
      exact or_iff_left (by omega)
    rw [hencode, hsame]
    cases hkept : isLiteralChar c <;> simp [hkept]

theorem filter_flatMap_encodeChar (cs : List Char) :
    (cs.flatMap encodeChar).filter isLiteralChar = (cs.filter survives).flatMap encodeChar := by
  induction cs with
  | nil => rfl
  | cons c cs ih =>
    rw [List.flatMap_cons, List.filter_append, filter_encodeChar, ih, List.filter_cons]
    by_cases hc : survives c = true
    · rw [if_pos hc, if_pos hc, List.flatMap_cons]
    · rw [if_neg hc, if_neg hc, List.nil_append]

/-- What the filter leaves of the literal for a text is the literal for what survives of it. -/
theorem keep_encode (s : String) : keep isLiteralChar (encode s) = encode (keep survives s) := by
  have hquote : isLiteralChar '"' = true := by decide
  unfold keep encode
  rw [String.toList_ofList, String.toList_ofList, List.cons_append, List.filter_cons_of_pos hquote,
    List.filter_append, filter_flatMap_encodeChar, List.filter_cons_of_pos hquote, List.filter_nil,
    List.cons_append]

theorem encode_ne_empty (s : String) : encode s ≠ "" := by
  intro h
  have hlist := congrArg String.toList h
  simp [encode] at hlist

theorem sanitizeLiteral_encode (s : String) :
    sanitizeLiteral (encode s) = encode (keep survives s) := by
  unfold sanitizeLiteral
  rw [keep_encode]
  exact if_neg (encode_ne_empty _)

end OrmGen.Php

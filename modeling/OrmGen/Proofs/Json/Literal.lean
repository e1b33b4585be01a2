/-
  String literals read back. A character is written with a short escape, by its number or as it
  is (`encodeChar_cases`), and each of the three is read as one piece that spells the character
  (`exists_piece`). So what is written for a text decodes to the text (`decode?_encode`).
-/
import OrmGen.Json.Literal

namespace OrmGen.Json.Literal

variable {c : Char} {cs rest : List Char} {ps : List Piece} {n : Nat}

/-- How a character is written: with a short escape, by its number, or as it is. -/
theorem encodeChar_cases (c : Char) :
    (∃ e, e ∈ ['"', '\\', 'b', 't', 'n', 'f', 'r'] ∧ shortEscape? e = some c ∧
      encodeChar c = ['\\', e]) ∨
    (c.toNat < 0x20 ∧ encodeChar c = '\\' :: 'u' :: '0' :: '0' :: hexByte c.toNat) ∨
    (c ≠ '"' ∧ c ≠ '\\' ∧ 0x20 ≤ c.toNat ∧ encodeChar c = [c]) := by
  unfold encodeChar
  split
  · subst c; exact .inl ⟨'"', by decide, rfl, rfl⟩
  split
  · subst c; exact .inl ⟨'\\', by decide, rfl, rfl⟩
  split
  · subst c; exact .inl ⟨'b', by decide, rfl, rfl⟩
  split
  · subst c; exact .inl ⟨'t', by decide, rfl, rfl⟩
  split
  · subst c; exact .inl ⟨'n', by decide, rfl, rfl⟩
  split
  · subst c; exact .inl ⟨'f', by decide, rfl, rfl⟩
  split
  · subst c; exact .inl ⟨'r', by decide, rfl, rfl⟩
  split
  · rename_i hcontrol
    exact .inr (.inl ⟨hcontrol, rfl⟩)
  · rename_i hquote hbackslash _ _ _ _ _ hcontrol
    exact .inr (.inr ⟨hquote, hbackslash, by omega, rfl⟩)

/-! ## One character -/

theorem pieces?_short {e : Char} (he : e ≠ 'u') (h : shortEscape? e = some c) :
    pieces? ('\\' :: e :: rest) = (pieces? rest).map fun p => (.char c :: p.1, p.2) := by
  rw [pieces?, h]
  · cases pieces? rest <;> rfl
  · exact fun _ _ _ _ _ heq => absurd heq he

theorem hex4?_hexByte :
    ∀ n < 0x20, hex4? '0' '0' (n / 16).digitChar (n % 16).digitChar = some n := by
  decide

theorem pieces?_number (h : n < 0x20) : pieces? ('\\' :: 'u' :: '0' :: '0' :: (hexByte n ++ rest)) =
    (pieces? rest).map fun p => (.unit n :: p.1, p.2) := by
  show pieces? ('\\' :: 'u' :: '0' :: '0' :: (n / 16).digitChar :: (n % 16).digitChar :: rest) = _
  rw [pieces?, hex4?_hexByte n h]
  cases pieces? rest <;> rfl

theorem pieces?_plain (hquote : c ≠ '"') (hbackslash : c ≠ '\\') (h : 0x20 ≤ c.toNat) :
    pieces? (c :: rest) = (pieces? rest).map fun p => (.char c :: p.1, p.2) := by
  have hkept : ¬ (decide (c.toNat < 0x20) || decide (c = '\\')) = true := by
    simp [hbackslash, Nat.not_lt.2 h]
  rw [pieces?, if_neg hkept]
  · exact hquote
  · exact fun _ _ _ _ _ heq => absurd heq hbackslash
  · exact fun _ _ heq => absurd heq hbackslash

/-- A number below the surrogates stands for its character. -/
theorem join?_unit (h : n < 0xD800) :
    join? (.unit n :: ps) = (join? ps).map (Char.ofNat n :: ·) := by
  have hhigh : ¬ (0xD800 ≤ n ∧ n < 0xDC00) := by omega
  have hlow : ¬ (0xDC00 ≤ n ∧ n < 0xE000) := by omega
  have hboth : ¬ (0xD800 ≤ n ∧ n < 0xE000) := by omega
  cases ps with
  | nil => simp [join?, hboth]
  | cons p ps =>
    cases p with
    | char c => simp [join?, hboth]
    | unit m => simp [join?, hhigh, hlow]

/-- What is written for a character is read as one piece, which spells the character. -/
theorem exists_piece (c : Char) : ∃ piece,
    (∀ rest, pieces? (encodeChar c ++ rest) = (pieces? rest).map fun p => (piece :: p.1, p.2)) ∧
      ∀ ps, join? (piece :: ps) = (join? ps).map (c :: ·) := by
  rcases encodeChar_cases c with ⟨e, he, hshort, hencode⟩ | ⟨hcontrol, hencode⟩ |
    ⟨hquote, hbackslash, hplain, hencode⟩
  · have hu : e ≠ 'u' := fun heq => absurd (heq ▸ he) (by decide)
    refine ⟨.char c, ?_, fun ps => by rw [join?]⟩
    intro rest
    rw [hencode]
    exact pieces?_short hu hshort
  · refine ⟨.unit c.toNat, ?_, ?_⟩
    · intro rest
      rw [hencode]
      exact pieces?_number hcontrol
    · intro ps
      rw [join?_unit (by omega), Char.ofNat_toNat]
  · refine ⟨.char c, ?_, fun ps => by rw [join?]⟩
    intro rest
    rw [hencode]
    exact pieces?_plain hquote hbackslash hplain

/-! ## Texts -/

/-- What is written for a text is read as pieces that spell it. -/
theorem exists_pieces (cs rest : List Char) : ∃ ps,
    pieces? (cs.flatMap encodeChar ++ '"' :: rest) = some (ps, rest) ∧ join? ps = some cs := by
  induction cs with
  | nil => exact ⟨[], by rw [List.flatMap_nil, List.nil_append, pieces?], by rw [join?]⟩
  | cons c cs ih =>
    obtain ⟨ps, hps, hjoin⟩ := ih
    obtain ⟨piece, hpiece, hspells⟩ := exists_piece c
    refine ⟨piece :: ps, ?_, ?_⟩
    · rw [List.flatMap_cons, List.append_assoc, hpiece, hps, Option.map_some]
    · rw [hspells, hjoin, Option.map_some]

/-- What is written for a text decodes to the text. -/
theorem decode?_encode (cs rest : List Char) :
    decode? (cs.flatMap encodeChar ++ '"' :: rest) = some (String.ofList cs, rest) := by
  obtain ⟨ps, hps, hjoin⟩ := exists_pieces cs rest
  unfold decode?
  rw [hps]
  show ((join? ps).map String.ofList).map (·, rest) = _
  rw [hjoin]
  rfl

end OrmGen.Json.Literal

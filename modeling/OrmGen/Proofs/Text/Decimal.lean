/-
  Numbers as texts. A natural number is written in digits and can be read from them; the text
  of a negative integer is that of its absolute value after a minus sign.
-/
import OrmGen.Text.Count

namespace OrmGen.Text

theorem isDigit_of_mem_toString {n : Nat} {c : Char} (h : c ∈ (toString n).toList) :
    c.isDigit = true := by
  rw [Nat.toString_eq_ofList_toDigits, String.toList_ofList] at h
  exact Nat.isDigit_of_mem_toDigits (by decide) (by decide) h

theorem toString_nat_ne_empty (n : Nat) : toString n ≠ "" := by
  rw [Nat.toString_eq_ofList_toDigits]
  intro h
  have hlist := congrArg String.toList h
  rw [String.toList_ofList] at hlist
  exact Nat.toDigits_ne_nil hlist

theorem toString_nat_inj {m n : Nat} (h : toString m = toString n) : m = n := by
  have hdigits := congrArg String.toList h
  rw [Nat.toString_eq_ofList_toDigits, Nat.toString_eq_ofList_toDigits, String.toList_ofList,
    String.toList_ofList] at hdigits
  have hvalue := congrArg (fun ds => Nat.ofDigitChars 10 ds 0) hdigits
  rwa [Nat.ofDigitChars_toDigits (by decide) (by decide),
    Nat.ofDigitChars_toDigits (by decide) (by decide)] at hvalue

theorem all_isDigit_ofCount (n : UInt32) : (ofCount n).toList.all Char.isDigit = true :=
  List.all_eq_true.2 fun _ hc => isDigit_of_mem_toString hc

theorem ofCount_inj {m n : UInt32} (h : ofCount m = ofCount n) : m = n :=
  UInt32.toNat_inj.1 (toString_nat_inj h)

theorem toString_negSucc (n : Nat) : toString (Int.negSucc n) = "-" ++ toString (n + 1) := rfl

theorem toString_natAbs_of_nonneg {n : Int} (h : 0 ≤ n) : toString n.natAbs = toString n := by
  obtain ⟨m, rfl⟩ := Int.eq_ofNat_of_zero_le h
  rfl

theorem minus_mem_toString_negSucc (n : Nat) : '-' ∈ (toString (Int.negSucc n)).toList := by
  rw [toString_negSucc, String.toList_append]
  exact List.mem_append_left _ (by decide)

/-- The text of an integer has digits and the minus sign. -/
theorem isDigit_or_of_mem_toString {n : Int} {c : Char} (h : c ∈ (toString n).toList) :
    c.isDigit = true ∨ c = '-' := by
  cases n with
  | ofNat n => exact .inl (isDigit_of_mem_toString h)
  | negSucc n =>
    rw [toString_negSucc, String.toList_append, List.mem_append] at h
    rcases h with h | h
    · exact .inr (by simpa using h)
    · exact .inl (isDigit_of_mem_toString h)

end OrmGen.Text

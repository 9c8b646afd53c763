import HypermediaApi.Text.Digits
import Mathlib.Algebra.Group.Nat.Defs

/-!
# HypermediaApi.Proofs.Text.Integers — decimal text of integers

The decimal digits of a number are digits (`isDigit_of_mem_toDigits`), and they read back as the number
(`digitsValue_toDigits`). Integers are written with these digits and a minus where they are negative;
`toList_toString_int` gives their characters, and no two integers have the same ones (`toString_int_inj`).
-/

namespace HypermediaApi.Text

/-- A run of digits writes in base ten what the digits of core write. -/
theorem foldl_digit_eq_ofDigitChars {ds : List Char} (h : ∀ c ∈ ds, c.isDigit) (n : Nat) :
    ds.foldl (fun n d => n * 10 + hexValue d) n = Nat.ofDigitChars 10 ds n := by
  induction ds generalizing n with
  | nil => rfl
  | cons d ds ih =>
    have hd : hexValue d = d.toNat - '0'.toNat := if_pos (h d (List.mem_cons_self ..))
    rw [List.foldl_cons, Nat.ofDigitChars_cons, ih fun c hc => h c (List.mem_cons_of_mem _ hc), hd, Nat.mul_comm]

theorem isDigit_of_mem_toDigits {n : Nat} {c : Char} (h : c ∈ Nat.toDigits 10 n) : c.isDigit :=
  Nat.isDigit_of_mem_toDigits (by decide) (by decide) h

/-- **The decimal digits of a number read back as that number.** -/
theorem digitsValue_toDigits (n : Nat) : digitsValue 10 (Nat.toDigits 10 n) = n := by
  unfold digitsValue
  rw [foldl_digit_eq_ofDigitChars fun c hc => isDigit_of_mem_toDigits hc]
  exact Nat.ofDigitChars_ten_toDigits

/-- Only the number zero starts with the digit zero. -/
theorem eq_zero_of_head?_toDigits {n : Nat} (h : (Nat.toDigits 10 n).head? = some '0') : n = 0 := by
  induction n using Nat.strongRecOn with
  | _ n ih =>
    rw [Nat.toDigits_eq_if (by decide)] at h
    split at h
    · exact Nat.digitChar_eq_zero.mp (Option.some.inj h)
    · next hlarge =>
      obtain ⟨d, ds, hdigits⟩ := List.exists_cons_of_ne_nil (Nat.toDigits_ne_nil (n := n / 10) (b := 10))
      have hhead : (Nat.toDigits 10 (n / 10)).head? = some '0' := by
        rw [hdigits] at h ⊢
        exact h
      have hquotient := ih (n / 10) (by omega) hhead
      omega

/-- The characters of an integer: its digits, after a minus if it is negative. -/
theorem toList_toString_int (n : Int) :
    (toString n).toList =
      if n < 0 then '-' :: Nat.toDigits 10 n.natAbs else Nat.toDigits 10 n.natAbs := by
  cases n with
  | ofNat m =>
    have htext : toString (Int.ofNat m) = Nat.repr m := rfl
    rw [htext, Nat.toList_repr, if_neg (by simp)]
    rfl
  | negSucc m =>
    have htext : toString (Int.negSucc m) = "-" ++ Nat.repr (m + 1) := rfl
    rw [htext, String.toList_append, Nat.toList_repr, if_pos (Int.negSucc_lt_zero m)]
    rfl

/-- The text of an integer is made of digits and the minus. -/
theorem isDigit_or_minus_of_mem_toString {n : Int} {c : Char} (h : c ∈ (toString n).toList) :
    c.isDigit = true ∨ c = '-' := by
  rw [toList_toString_int] at h
  split at h
  · rcases List.mem_cons.mp h with hminus | hdigit
    · exact .inr hminus
    · exact .inl (isDigit_of_mem_toDigits hdigit)
  · exact .inl (isDigit_of_mem_toDigits h)

/-- **Integers are told apart by their texts.** -/
theorem toString_int_inj {a b : Int} : toString a = toString b ↔ a = b := by
  refine ⟨fun h => ?_, congrArg toString⟩
  have hdigits {m n : Nat} (h : Nat.toDigits 10 m = Nat.toDigits 10 n) : m = n := by
    rw [← digitsValue_toDigits m, h, digitsValue_toDigits]
  -- A text with a minus is not the text of digits only.
  have hminus {m n : Nat} (h : '-' :: Nat.toDigits 10 m = Nat.toDigits 10 n) : False := by
    have hmem : '-' ∈ Nat.toDigits 10 n := h ▸ List.mem_cons_self
    exact absurd (isDigit_of_mem_toDigits hmem) (by decide)
  have hchars := congrArg String.toList h
  rw [toList_toString_int, toList_toString_int] at hchars
  split at hchars
  · split at hchars
    · have habs := hdigits (List.cons.inj hchars).2
      omega
    · exact (hminus hchars).elim
  · split at hchars
    · exact (hminus hchars.symm).elim
    · have habs := hdigits hchars
      omega

end HypermediaApi.Text

import HypermediaApi.Json.Reader
import HypermediaApi.Json.Writer
import HypermediaApi.Proofs.Text.Integers
import Mathlib.Data.List.TakeWhile

/-!
# HypermediaApi.Proofs.Json.Numerals — a written integer denotes itself

An integer is written by its decimal digits, with a minus before them if it is negative. That text is a numeral without
a fraction and without an exponent (`wordToken?_intText`), and as long as the integer has 64 bits, signed or unsigned, the
numeral denotes it exactly and not as a binary64 number (`toNumber?_ofInt`).
-/

namespace HypermediaApi.Json

/-- The integers that are read exactly: those of 64 bits, signed or unsigned. -/
def IsExactInt (n : Int) : Prop := leastInt ≤ n ∧ n ≤ greatestUnsigned

instance (n : Int) : Decidable (IsExactInt n) := inferInstanceAs (Decidable (leastInt ≤ n ∧ n ≤ greatestUnsigned))

/-- The numeral that an integer is written as. -/
def Numeral.ofInt (n : Int) : Numeral := ⟨n < 0, Nat.toDigits 10 n.natAbs, [], none⟩

/-! ### Reading the digits -/

/-- The decimal digits of a number are a whole number without a leading zero. -/
theorem whole_toDigits (n : Nat) :
    ((Nat.toDigits 10 n).isEmpty || ((Nat.toDigits 10 n).head? = some '0' && (Nat.toDigits 10 n).length ≠ 1)) = false := by
  have hne : (Nat.toDigits 10 n).isEmpty = false := by simp [Nat.toDigits_ne_nil]
  by_cases hzero : n = 0
  · subst hzero
    decide
  · have hhead : (Nat.toDigits 10 n).head? ≠ some '0' := fun h => hzero (Text.eq_zero_of_head?_toDigits h)
    simp [hne, hhead]

theorem takeWhile_toDigits (n : Nat) : (Nat.toDigits 10 n).takeWhile Char.isDigit = Nat.toDigits 10 n :=
  List.takeWhile_eq_self_iff.mpr fun _ hc => Text.isDigit_of_mem_toDigits hc

theorem dropWhile_toDigits (n : Nat) : (Nat.toDigits 10 n).dropWhile Char.isDigit = [] :=
  List.dropWhile_eq_nil_iff.mpr fun _ hc => Text.isDigit_of_mem_toDigits hc

/-- Digits without a minus before them. -/
theorem ne_minus_of_toDigits (n : Nat) (r : List Char) : Nat.toDigits 10 n ≠ '-' :: r := by
  intro h
  have hmem : '-' ∈ Nat.toDigits 10 n := h ▸ List.mem_cons_self
  exact absurd (Text.isDigit_of_mem_toDigits hmem) (by decide)

/-- **The text of an integer is its numeral.** -/
theorem Numeral.read?_intText (n : Int) : Numeral.read? (intText n) = some (.ofInt n) := by
  unfold intText Numeral.ofInt
  by_cases hneg : n < 0
  · rw [if_pos hneg, Numeral.read?]
    simp only [takeWhile_toDigits, dropWhile_toDigits, whole_toDigits]
    simp [readExponent?, hneg]
  · rw [if_neg hneg, Numeral.read?]
    · simp only [takeWhile_toDigits, dropWhile_toDigits, whole_toDigits]
      simp [readExponent?, hneg]
    · exact ne_minus_of_toDigits n.natAbs

/-- The first character of the text of an integer. -/
theorem intText_shape (n : Int) : ∃ c r, intText n = c :: r ∧ (c.isDigit = true ∨ c = '-') ∧ ∀ d ∈ r, d.isDigit = true := by
  unfold intText
  split
  · exact ⟨'-', _, rfl, .inr rfl, fun d hd => Text.isDigit_of_mem_toDigits hd⟩
  · obtain ⟨d, ds, hdigits⟩ := List.exists_cons_of_ne_nil (Nat.toDigits_ne_nil (n := n.natAbs) (b := 10))
    have hall : ∀ c ∈ d :: ds, c.isDigit = true := hdigits ▸ fun c hc => Text.isDigit_of_mem_toDigits hc
    exact ⟨d, ds, hdigits, .inl (hall d List.mem_cons_self), fun c hc => hall c (List.mem_cons_of_mem d hc)⟩

theorem isWordChar_of_isDigit {c : Char} (h : c.isDigit = true) : isWordChar c = true := by
  simp [isWordChar, Char.isAlphanum, h]

/-- The text of an integer is made of the characters of words. -/
theorem isWordChar_of_mem_intText {n : Int} {c : Char} (h : c ∈ intText n) : isWordChar c = true := by
  obtain ⟨d, r, htext, hfirst, hrest⟩ := intText_shape n
  rw [htext] at h
  rcases List.mem_cons.mp h with rfl | hmem
  · rcases hfirst with hdigit | rfl
    · exact isWordChar_of_isDigit hdigit
    · decide
  · exact isWordChar_of_isDigit (hrest c hmem)

/-- **The text of an integer is the word of its numeral.** -/
theorem wordToken?_intText (n : Int) : wordToken? (intText n) = some (.number (.ofInt n)) := by
  obtain ⟨c, r, htext, hfirst, -⟩ := intText_shape n
  -- None of the other words starts like a number.
  have hword {d : Char} {ds : List Char} (hd : d.isDigit = false) (hd' : d ≠ '-') : intText n ≠ d :: ds := by
    intro h
    obtain ⟨rfl, -⟩ := List.cons.inj (htext.symm.trans h)
    rcases hfirst with hdigit | hminus
    · rw [hd] at hdigit
      cases hdigit
    · exact hd' hminus
  unfold wordToken?
  rw [if_neg (hword rfl (by decide)), if_neg (hword rfl (by decide)), if_neg (hword rfl (by decide)),
    Numeral.read?_intText, Option.map_some]

/-! ### What the numeral denotes -/

/-- **The numeral of an integer denotes that integer.** -/
theorem Numeral.toNumber?_ofInt {n : Int} (h : IsExactInt n) : (Numeral.ofInt n).toNumber? = some (.int n) := by
  obtain ⟨hlow, hhigh⟩ := h
  unfold Numeral.toNumber? Numeral.ofInt
  simp only [Text.digitsValue_toDigits]
  generalize hmagnitude : n.natAbs = magnitude
  by_cases hneg : n < 0
  · have hvalue : -(magnitude : Int) = n := by omega
    have hpos : 0 < magnitude := by omega
    simp [hneg, hvalue, hpos, hlow]
  · have hvalue : (magnitude : Int) = n := by omega
    have hfits : magnitude ≤ greatestUnsigned := by omega
    simp [hneg, hvalue, hfits]

end HypermediaApi.Json

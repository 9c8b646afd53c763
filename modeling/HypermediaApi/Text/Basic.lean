/-!
# HypermediaApi.Text.Basic — cutting and comparing text

The text operations that every reader of client input shares: cutting at a separator, trimming,
cutting into words, and comparing names without regard to ASCII case.

Each operation is defined on `List Char`, where the recursion is structural, and lifted to `String`.
Blank means the Unicode property `White_Space`, so a no-break space separates words and a zero-width
space does not. Case is ignored for the letters `A`–`Z` only: `É` and `é` are different names, and so
are `K` (the Kelvin sign) and `k`.
-/

namespace HypermediaApi.Text

/-! ### Blank characters -/

/-- The Unicode property `White_Space`. -/
def isBlank (c : Char) : Bool :=
  let n := c.toNat
  (9 ≤ n && n ≤ 13) || n = 0x20 || n = 0x85 || n = 0xA0 || n = 0x1680 ||
    (0x2000 ≤ n && n ≤ 0x200A) || n = 0x2028 || n = 0x2029 || n = 0x202F || n = 0x205F || n = 0x3000

/-- Text without a character that is not blank; the empty text is blank. -/
def isBlankText (s : String) : Bool := s.toList.all isBlank

/-! ### Cutting at separators -/

/-- The pieces between the characters that satisfy `p`, always at least one; a separator at an end or
next to another one leaves an empty piece. -/
def pieces (p : Char → Bool) : List Char → List (List Char)
  | [] => [[]]
  | c :: r =>
    if p c then [] :: pieces p r
    else match pieces p r with
      | [] => [[c]]
      | w :: ws => (c :: w) :: ws

/-- There is always a first piece. -/
theorem pieces_ne_nil (p : Char → Bool) (cs : List Char) : pieces p cs ≠ [] := by
  cases cs with
  | nil => simp [pieces]
  | cons c r =>
    simp only [pieces]
    split
    · simp
    · split <;> simp

/-- A scan up to a separator passes over text without it. -/
theorem forall_ne_of_not_mem {separator : Char} {cs : List Char} (h : separator ∉ cs) :
    ∀ c ∈ cs, decide (c ≠ separator) = true := by
  intro c hc
  have hne : c ≠ separator := fun he => h (he ▸ hc)
  exact decide_eq_true hne

/-- Text without a separator is one piece. -/
theorem pieces_of_forall_not {p : Char → Bool} {cs : List Char} (h : ∀ c ∈ cs, p c = false) :
    pieces p cs = [cs] := by
  induction cs with
  | nil => rfl
  | cons c r ih =>
    have hr : pieces p r = [r] := ih fun d hd => h d (List.mem_cons_of_mem _ hd)
    simp [pieces, h c (List.mem_cons_self ..), hr]

/-- Cutting joined text: a separator ends the piece before it. -/
theorem pieces_append_cons {p : Char → Bool} {cs : List Char} {d : Char} (h : ∀ c ∈ cs, p c = false)
    (hd : p d) (r : List Char) : pieces p (cs ++ d :: r) = cs :: pieces p r := by
  induction cs with
  | nil => simp [pieces, hd]
  | cons c cs ih =>
    have hr := ih fun e he => h e (List.mem_cons_of_mem _ he)
    simp [pieces, h c (List.mem_cons_self ..), hr]

/-- No piece holds a separator. -/
theorem not_of_mem_pieces {p : Char → Bool} {cs w : List Char} (hw : w ∈ pieces p cs) :
    ∀ c ∈ w, p c = false := by
  induction cs generalizing w with
  | nil => simp_all [pieces]
  | cons d r ih =>
    simp only [pieces] at hw
    split at hw
    · rcases List.mem_cons.1 hw with rfl | hw
      · simp
      · exact ih hw
    · next hd =>
      split at hw
      · simp_all
      · next w' ws heq =>
        rcases List.mem_cons.1 hw with rfl | hw
        · intro c hc
          rcases List.mem_cons.1 hc with rfl | hc
          · simpa using hd
          · exact ih (heq ▸ List.mem_cons_self ..) c hc
        · exact ih (heq ▸ List.mem_cons_of_mem _ hw)

/-- The text cut at every occurrence of one character. -/
def split (separator : Char) (s : String) : List String :=
  (pieces (· == separator) s.toList).map String.ofList

/-! ### Trimming and words -/

/-- The characters without the blank ones at both ends. -/
def trimChars (cs : List Char) : List Char :=
  ((cs.dropWhile isBlank).reverse.dropWhile isBlank).reverse

/-- The text without the blank characters at both ends. -/
def trim (s : String) : String := .ofList (trimChars s.toList)

@[simp] theorem toList_trim (s : String) : (trim s).toList = trimChars s.toList := by
  simp [trim]

/-- The maximal runs of characters that are not blank. -/
def words (s : String) : List String :=
  ((pieces isBlank s.toList).filter (! ·.isEmpty)).map String.ofList

/-- The entries of a comma-separated list: trimmed, empty ones left out. -/
def entries (s : String) : List String :=
  ((split ',' s).map trim).filter (! ·.isEmpty)

/-! ### Names -/

/-- What is left of a name when ASCII case is ignored. -/
def foldCase (s : String) : List Char := s.toList.map Char.toLower

/-- Equality of names up to ASCII case. -/
def sameName (a b : String) : Bool := foldCase a == foldCase b

@[simp] theorem sameName_refl (a : String) : sameName a a := by simp [sameName]

theorem sameName_iff {a b : String} : sameName a b ↔ foldCase a = foldCase b := by
  simp [sameName]

/-- The text without the given character at its end. -/
def dropEnd (c : Char) (s : String) : String :=
  .ofList (s.toList.reverse.dropWhile (· == c)).reverse

/-- Membership of a character in a table of ranges of code points. -/
def inRanges (ranges : List (Nat × Nat)) (c : Char) : Bool :=
  ranges.any fun (lo, hi) => lo ≤ c.toNat && c.toNat ≤ hi

/-- The number of code points of the text. -/
def codePoints (s : String) : Nat := s.toList.length

end HypermediaApi.Text

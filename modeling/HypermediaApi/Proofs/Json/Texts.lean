import HypermediaApi.Http
import HypermediaApi.Json.Reader

/-!
# HypermediaApi.Proofs.Json.Texts — a written text denotes itself

A text is written character by character (`escapedChar`), and everything about written texts is a fact about one
character that is carried along the text. The written form of a character denotes that character whatever follows
(`unescape?_escapedChar`): the escape that the writer uses for a control character starts with `\u00` and is no half of a
surrogate pair, so the reader does not join it with an escape after it. The lexer stays inside the text until the closing
quote (`tokensFrom?_escapedChar`).

Escapes leave no character below U+0020 in a written text. Of the characters that a header refuses only U+007F is left,
and it stands for itself (`isHeaderChar_escapedChar`).
-/

namespace HypermediaApi.Json

/-! ### The kinds of characters -/

/-- The characters that are written as themselves. -/
def IsPlain (c : Char) : Prop := c ≠ '"' ∧ c ≠ '\\' ∧ 0x20 ≤ c.toNat

/-- **A character is written as itself, by a letter after a backslash, or by its four digits.** -/
inductive EscapedAs (c : Char) : List Char → Prop where
  | plain (h : IsPlain c) : EscapedAs c [c]
  | letter {l : Char} (hl : l ∈ ['"', '\\', 'b', 'f', 'n', 'r', 't']) (hc : shortEscape l = c) : EscapedAs c ['\\', l]
  | digits (h : c.toNat < 0x20) :
      EscapedAs c ['\\', 'u', '0', '0', hexDigit (c.toNat / 16), hexDigit (c.toNat % 16)]

theorem escapedAs_escapedChar (c : Char) : EscapedAs c (escapedChar c) := by
  unfold escapedChar
  split
  case h_8 hquote hbackslash _ _ _ _ _ =>
    split
    · next hcontrol => exact .digits hcontrol
    · next hplain => exact .plain ⟨hquote, hbackslash, by omega⟩
  all_goals exact .letter (by decide) (by decide)

/-! ### What a written text denotes -/

/-- Four digits that are no half of a surrogate pair denote their character, whatever follows. -/
theorem unescape?_unit {a b c d : Char} (hhigh : isHighSurrogate (unitValue a b c d) = false)
    (hlow : isLowSurrogate (unitValue a b c d) = false) (r : List Char) :
    unescape? ('\\' :: 'u' :: a :: b :: c :: d :: r) = (unescape? r).map (.ofNat (unitValue a b c d) :: ·) := by
  by_cases hpair : ∃ e f g h r', r = '\\' :: 'u' :: e :: f :: g :: h :: r'
  · obtain ⟨e, f, g, h, r', rfl⟩ := hpair
    rw [unescape?, hhigh, hlow]
    rfl
  · rw [unescape?, hhigh, hlow]
    · rfl
    · exact fun e f g h r' hr => hpair ⟨e, f, g, h, r', hr⟩

theorem unescape?_letter {l : Char} (hl : l ≠ 'u') (r : List Char) :
    unescape? ('\\' :: l :: r) = (unescape? r).map (shortEscape l :: ·) := by
  rw [unescape?]
  · exact fun _ _ _ _ _ _ _ _ _ h => absurd h hl
  · exact fun _ _ _ _ _ h => absurd h hl

theorem unescape?_plain {c : Char} (hc : c ≠ '\\') (r : List Char) :
    unescape? (c :: r) = (unescape? r).map (c :: ·) := by
  rw [unescape?]
  all_goals intros; contradiction

/-- The digits of a control character have its code. -/
theorem unitValue_hexDigit {n : Nat} (h : n < 0x20) : unitValue '0' '0' (hexDigit (n / 16)) (hexDigit (n % 16)) = n := by
  revert n
  decide

/-- **The written form of a character denotes that character.** -/
theorem unescape?_escapedChar (c : Char) (r : List Char) :
    unescape? (escapedChar c ++ r) = (unescape? r).map (c :: ·) := by
  have hform := escapedAs_escapedChar c
  generalize escapedChar c = written at hform
  cases hform with
  | plain h => exact unescape?_plain h.2.1 r
  | letter hl hc =>
    subst hc
    refine unescape?_letter ?_ r
    rintro rfl
    exact absurd hl (by decide)
  | digits h =>
    have hvalue := unitValue_hexDigit h
    have hread := unescape?_unit (a := '0') (b := '0') (c := hexDigit (c.toNat / 16)) (d := hexDigit (c.toNat % 16))
      (by rw [hvalue]; simp [isHighSurrogate]; omega) (by rw [hvalue]; simp [isLowSurrogate]; omega) r
    rw [hvalue, Char.ofNat_toNat] at hread
    exact hread

/-- **A written text denotes itself.** -/
theorem unescape?_escape (s : String) : unescape? (escape s) = some s.toList := by
  have hchars : ∀ cs : List Char, unescape? (cs.flatMap escapedChar) = some cs := by
    intro cs
    induction cs with
    | nil => rfl
    | cons c cs ih => rw [List.flatMap_cons, unescape?_escapedChar, ih, Option.map_some]
  exact hchars s.toList

/-! ### How a written text is cut out -/

theorem tokensFrom?_cons {state state' : LexState} {done done' : List Token} {c : Char}
    (h : state.step c done = some (state', done')) (r : List Char) :
    tokensFrom? state done (c :: r) = tokensFrom? state' done' r := by
  rw [tokensFrom?, h]

/-- Four hexadecimal digits after a backslash and `u` stay inside the text. -/
theorem tokensFrom?_digits {a b c d : Char} (h : ∀ x ∈ [a, b, c, d], Text.isHexDigit x = true) (read : List Char)
    (done : List Token) (r : List Char) :
    tokensFrom? (.text read) done ('\\' :: 'u' :: a :: b :: c :: d :: r) =
      tokensFrom? (.text (d :: c :: b :: a :: 'u' :: '\\' :: read)) done r := by
  simp only [List.forall_mem_cons] at h
  obtain ⟨ha, hb, hc, hd, -⟩ := h
  have hescape : (LexState.text read).step '\\' done = some (.escape ('\\' :: read), done) := rfl
  have hunit : (LexState.escape ('\\' :: read)).step 'u' done = some (.hex 4 ('u' :: '\\' :: read), done) := rfl
  have hmore (left : Nat) {x : Char} (hx : Text.isHexDigit x = true) (read : List Char) :
      (LexState.hex (left + 2) read).step x done = some (.hex (left + 1) (x :: read), done) := if_pos hx
  have hlast : (LexState.hex 1 (c :: b :: a :: 'u' :: '\\' :: read)).step d done =
      some (.text (d :: c :: b :: a :: 'u' :: '\\' :: read), done) := if_pos hd
  rw [tokensFrom?_cons hescape, tokensFrom?_cons hunit, tokensFrom?_cons (hmore 2 ha _), tokensFrom?_cons (hmore 1 hb _),
    tokensFrom?_cons (hmore 0 hc _), tokensFrom?_cons hlast]

theorem isHexDigit_hexDigit {n : Nat} (h : n < 16) : Text.isHexDigit (hexDigit n) = true := by
  revert n
  decide

/-- The lexer goes through the written form of a character and stays inside the text. -/
theorem tokensFrom?_escapedChar (c : Char) (read : List Char) (done : List Token) (r : List Char) :
    tokensFrom? (.text read) done (escapedChar c ++ r) =
      tokensFrom? (.text ((escapedChar c).reverse ++ read)) done r := by
  have hform := escapedAs_escapedChar c
  generalize escapedChar c = written at hform
  cases hform with
  | plain h =>
    obtain ⟨hquote, hbackslash, hcode⟩ := h
    refine tokensFrom?_cons ?_ r
    simp only [LexState.step]
    rw [if_neg hquote, if_neg hbackslash, if_neg (Nat.not_lt.mpr hcode)]
    rfl
  | @letter l hl hc =>
    have hletters : List.Sublist ['"', '\\', 'b', 'f', 'n', 'r', 't'] ['"', '\\', '/', 'b', 'f', 'n', 'r', 't'] := by decide
    have hescape : (LexState.text read).step '\\' done = some (.escape ('\\' :: read), done) := rfl
    refine (tokensFrom?_cons hescape _).trans (tokensFrom?_cons ?_ r)
    simp only [LexState.step]
    rw [if_pos (hletters.subset hl)]
    rfl
  | digits h =>
    refine tokensFrom?_digits ?_ read done r
    simp only [List.forall_mem_cons]
    exact ⟨by decide, by decide, isHexDigit_hexDigit (by omega), isHexDigit_hexDigit (by omega), by simp⟩

/-- **A written text is one token**, whatever follows. -/
theorem tokensFrom?_stringText (s : String) (done : List Token) (r : List Char) :
    tokensFrom? .between done (stringText s ++ r) = tokensFrom? .between (.text (escape s) :: done) r := by
  have hinside : ∀ (cs read : List Char), tokensFrom? (.text read) done (cs.flatMap escapedChar ++ '"' :: r) =
      tokensFrom? .between (.text (read.reverse ++ cs.flatMap escapedChar) :: done) r := by
    intro cs
    induction cs with
    | nil =>
      intro read
      have hclose : (LexState.text read).step '"' done = some (.between, .text read.reverse :: done) := rfl
      rw [List.flatMap_nil, List.nil_append, List.append_nil, tokensFrom?_cons hclose]
    | cons c cs ih =>
      intro read
      rw [List.flatMap_cons, List.append_assoc, tokensFrom?_escapedChar, ih, List.reverse_append, List.reverse_reverse,
        List.append_assoc]
  have hopen : LexState.between.step '"' done = some (.text [], done) := rfl
  unfold stringText
  rw [List.cons_append, List.append_assoc, List.singleton_append, tokensFrom?_cons hopen]
  exact hinside s.toList []

/-! ### Written texts in headers -/

/-- The written form of a character may stand in a header, that of U+007F excepted. -/
theorem all_isHeaderChar_escapedChar (c : Char) : (escapedChar c).all Http.isHeaderChar = (c != '\x7f') := by
  have hform := escapedAs_escapedChar c
  generalize escapedChar c = written at hform
  cases hform with
  | plain h =>
    have hcode : c.toNat = 0x7F ↔ c = '\x7f' := Char.toNat_inj (d := '\x7f')
    have htab : c ≠ '\t' := by
      rintro rfl
      exact absurd h.2.2 (by decide)
    by_cases hdelete : c = '\x7f'
    · subst hdelete
      decide
    · simp [Http.isHeaderChar, htab, h.2.2, hcode, hdelete]
  | @letter l hl hc =>
    subst hc
    have hletters : ['"', '\\', 'b', 'f', 'n', 'r', 't'].all (fun l => Http.isHeaderChar l && shortEscape l != '\x7f') = true := by
      decide
    obtain ⟨hletter, hdelete⟩ := Bool.and_eq_true_iff.mp (List.all_eq_true.mp hletters l hl)
    rw [hdelete, List.all_cons, List.all_cons, hletter]
    rfl
  | digits h =>
    have hforms : ∀ n < 0x20, ['\\', 'u', '0', '0', hexDigit (n / 16), hexDigit (n % 16)].all Http.isHeaderChar = true := by
      decide
    have hdelete : c ≠ '\x7f' := by
      rintro rfl
      exact absurd h (by decide)
    rw [hforms c.toNat h]
    simp [hdelete]

/-- **A written text may stand in a header unless U+007F is in it.** -/
theorem all_isHeaderChar_stringText (s : String) :
    (stringText s).all Http.isHeaderChar = true ↔ '\x7f' ∉ s.toList := by
  have hquote : Http.isHeaderChar '"' = true := by decide
  unfold stringText escape
  simp only [List.all_cons, List.all_append, List.all_nil, hquote, Bool.true_and, Bool.and_true, List.all_flatMap,
    all_isHeaderChar_escapedChar, List.all_eq_true, bne_iff_ne]
  constructor
  · intro h hmem
    exact h '\x7f' hmem rfl
  · rintro h c hc rfl
    exact h hc

end HypermediaApi.Json

import HypermediaApi.Text.Percent

/-!
# HypermediaApi.Proofs.Text.Percent — an encoded component decodes to itself

Encoding goes from characters to bytes to triplets and decoding comes back the same way, so the round trip is
built from the inside out: a hexadecimal digit has the value it was made from, a triplet denotes its byte, a
character its UTF-8 bytes, and a text all bytes of its characters (`decodeBytes_encodeChars`), which are
valid UTF-8 by themselves. The result is `decode?_encode`.

An encoded text is made of characters that stand for themselves and of triplets (`isEncoded_encode`). Separators
of URIs are not among it (`not_mem_encode`).
-/

namespace HypermediaApi.Text.Percent

/-! ### Triplets -/

/-- A hexadecimal digit is one, and has the value it was made from. -/
theorem hexDigit_spec (n : Fin 16) : isHexDigit (hexDigit n) = true ∧ hexValue (hexDigit n) = n := by
  decide +revert

/-- Two digits in base 16. -/
theorem digitsValue_pair (a b : Char) : digitsValue 16 [a, b] = hexValue a * 16 + hexValue b := by
  simp [digitsValue]

/-- The triplet of a byte denotes that byte. -/
theorem decodeBytes_encodeByte (b : UInt8) (r : List Char) :
    decodeBytes (encodeByte b ++ r) = b :: decodeBytes r := by
  have hb : b.toNat < 256 := b.toNat_lt
  obtain ⟨hhi, hhiValue⟩ := hexDigit_spec ⟨b.toNat / 16, by omega⟩
  obtain ⟨hlo, hloValue⟩ := hexDigit_spec ⟨b.toNat % 16, by omega⟩
  have hvalue : digitsValue 16 [hexDigit (b.toNat / 16), hexDigit (b.toNat % 16)] = b.toNat := by
    rw [digitsValue_pair, hhiValue, hloValue]
    exact Nat.div_add_mod' b.toNat 16
  unfold encodeByte
  rw [List.cons_append, List.cons_append, List.cons_append, List.nil_append, decodeBytes, if_pos (by simp [hhi, hlo]),
    hvalue, UInt8.ofNat_toNat]

/-- The triplets of bytes denote those bytes. -/
theorem decodeBytes_flatMap_encodeByte (bs : List UInt8) (r : List Char) :
    decodeBytes (bs.flatMap encodeByte ++ r) = bs ++ decodeBytes r := by
  induction bs with
  | nil => rfl
  | cons b bs ih => rw [List.flatMap_cons, List.append_assoc, decodeBytes_encodeByte, ih, List.cons_append]

/-! ### Characters -/

/-- A character that is no percent sign denotes its own bytes. -/
theorem decodeBytes_cons {c : Char} (h : c ≠ '%') (r : List Char) :
    decodeBytes (c :: r) = String.utf8EncodeChar c ++ decodeBytes r := by
  rw [decodeBytes]
  intro a b r' hc
  exact absurd hc h

/-- The percent sign is not among the characters that stand for themselves. -/
theorem ne_percent_of_isUnreserved {c : Char} (h : isUnreserved c) : c ≠ '%' := by
  rintro rfl
  exact absurd h (by decide)

/-- The encoded form of a character denotes its bytes. -/
theorem decodeBytes_encodeChar (c : Char) (r : List Char) :
    decodeBytes (encodeChar c ++ r) = String.utf8EncodeChar c ++ decodeBytes r := by
  unfold encodeChar
  by_cases h : isUnreserved c
  · rw [if_pos h, List.singleton_append, decodeBytes_cons (ne_percent_of_isUnreserved h)]
  · rw [if_neg h, decodeBytes_flatMap_encodeByte]

/-- The encoded form of a text denotes the bytes of its characters. -/
theorem decodeBytes_encodeChars (cs : List Char) :
    decodeBytes (encodeChars cs) = cs.flatMap String.utf8EncodeChar := by
  induction cs with
  | nil => rfl
  | cons c cs ih =>
    have hcons : encodeChars (c :: cs) = encodeChar c ++ encodeChars cs := rfl
    rw [hcons, decodeBytes_encodeChar, ih, List.flatMap_cons]

/-! ### Texts -/

/-- The bytes of a text are UTF-8 and read back as that text. -/
theorem fromUTF8?_flatMap (cs : List Char) :
    String.fromUTF8? (cs.flatMap String.utf8EncodeChar).toByteArray = some (.ofList cs) :=
  dif_pos (.intro cs rfl)

/-- **What was encoded decodes to itself.** -/
theorem decode?_encode (s : String) : decode? (encode s) = some s := by
  unfold decode? encode
  rw [String.toList_ofList, decodeBytes_encodeChars, fromUTF8?_flatMap, String.ofList_toList]

/-- Texts are told apart by their encoded forms. -/
theorem encode_inj {s t : String} : encode s = encode t ↔ s = t := by
  refine ⟨fun h => ?_, congrArg encode⟩
  have hdecoded : some s = some t := by rw [← decode?_encode s, h, decode?_encode]
  exact Option.some.inj hdecoded

/-- A text of characters that stand for themselves is its own encoded form. -/
theorem encode_of_unreserved {s : String} (h : ∀ c ∈ s.toList, isUnreserved c = true) : encode s = s := by
  have hchars : ∀ cs : List Char, (∀ c ∈ cs, isUnreserved c = true) → encodeChars cs = cs := by
    intro cs hcs
    induction cs with
    | nil => rfl
    | cons c cs ih =>
      have hc : encodeChar c = [c] := if_pos (hcs c List.mem_cons_self)
      have hrest := ih fun d hd => hcs d (List.mem_cons_of_mem c hd)
      rw [show encodeChars (c :: cs) = encodeChar c ++ encodeChars cs from rfl, hc, hrest, List.singleton_append]
  unfold encode
  rw [hchars s.toList h, String.ofList_toList]

/-! ### What encoded text is made of -/

/-- Characters that stand for themselves, and triplets. -/
inductive IsEncoded : List Char → Prop where
  | nil : IsEncoded []
  | plain {c : Char} {r : List Char} (hc : isUnreserved c) (h : IsEncoded r) : IsEncoded (c :: r)
  | triplet {a b : Char} {r : List Char} (ha : isHexDigit a) (hb : isHexDigit b) (h : IsEncoded r) :
      IsEncoded ('%' :: a :: b :: r)

theorem IsEncoded.append {cs ds : List Char} (h : IsEncoded cs) (h' : IsEncoded ds) : IsEncoded (cs ++ ds) := by
  induction h with
  | nil => exact h'
  | plain hc _ ih => exact .plain hc ih
  | triplet ha hb _ ih => exact .triplet ha hb ih

theorem IsEncoded.flatMap {β : Type} {f : β → List Char} (h : ∀ x, IsEncoded (f x)) (xs : List β) :
    IsEncoded (xs.flatMap f) := by
  induction xs with
  | nil => exact .nil
  | cons x rest ih => exact (h x).append ih

theorem isEncoded_encodeByte (b : UInt8) : IsEncoded (encodeByte b) := by
  have hb : b.toNat < 256 := b.toNat_lt
  obtain ⟨hhi, -⟩ := hexDigit_spec ⟨b.toNat / 16, by omega⟩
  obtain ⟨hlo, -⟩ := hexDigit_spec ⟨b.toNat % 16, by omega⟩
  exact .triplet hhi hlo .nil

/-- **An encoded text consists of characters that stand for themselves and of triplets.** -/
theorem isEncoded_encodeChars (cs : List Char) : IsEncoded (encodeChars cs) := by
  refine IsEncoded.flatMap (fun c => ?_) cs
  unfold encodeChar
  split
  · next hc => exact .plain hc .nil
  · exact IsEncoded.flatMap isEncoded_encodeByte _

theorem isEncoded_encode (s : String) : IsEncoded (encode s).toList := by
  unfold encode
  rw [String.toList_ofList]
  exact isEncoded_encodeChars s.toList

theorem isUnreserved_of_isHexDigit {c : Char} (h : isHexDigit c) : isUnreserved c := by
  have halphanum : c.isAlphanum := by
    simp only [isHexDigit, Bool.or_eq_true, Bool.and_eq_true, decide_eq_true_eq] at h
    rcases h with (hdigit | ⟨hge, hle⟩) | ⟨hge, hle⟩
    · exact Bool.or_eq_true_iff.mpr (.inr hdigit)
    · have hlower : c.isLower :=
        Bool.and_eq_true_iff.mpr ⟨decide_eq_true hge, decide_eq_true (Char.le_trans hle (by decide))⟩
      exact Bool.or_eq_true_iff.mpr (.inl (Bool.or_eq_true_iff.mpr (.inr hlower)))
    · have hupper : c.isUpper := decide_eq_true ⟨hge, Char.le_trans hle (by decide)⟩
      exact Bool.or_eq_true_iff.mpr (.inl (Bool.or_eq_true_iff.mpr (.inl hupper)))
  simp [isUnreserved, halphanum]

/-- No reserved character but the percent sign stands in encoded text. -/
theorem IsEncoded.isUnreserved_or_percent {cs : List Char} (h : IsEncoded cs) {c : Char} (hc : c ∈ cs) :
    isUnreserved c ∨ c = '%' := by
  induction h with
  | nil => simp at hc
  | plain hd _ ih =>
    rcases List.mem_cons.mp hc with rfl | hrest
    · exact .inl hd
    · exact ih hrest
  | triplet ha hb _ ih =>
    simp only [List.mem_cons] at hc
    rcases hc with rfl | rfl | rfl | hrest
    · exact .inr rfl
    · exact .inl (isUnreserved_of_isHexDigit ha)
    · exact .inl (isUnreserved_of_isHexDigit hb)
    · exact ih hrest

/-- A character that is reserved does not occur in an encoded text. -/
theorem not_mem_encode {c : Char} (h : isUnreserved c = false) (hc : c ≠ '%') (s : String) :
    c ∉ (encode s).toList := by
  intro hmem
  rcases (isEncoded_encode s).isUnreserved_or_percent hmem with hu | hp
  · exact absurd hu (by simp [h])
  · exact hc hp

end HypermediaApi.Text.Percent

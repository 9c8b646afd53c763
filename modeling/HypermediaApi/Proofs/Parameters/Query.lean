import HypermediaApi.Link.Route
import HypermediaApi.Parameters
import HypermediaApi.Proofs.Text.Integers
import HypermediaApi.Proofs.Text.Percent
import HypermediaApi.Proofs.Traversal

/-!
# HypermediaApi.Proofs.Parameters.Query — requests travel through query strings

A link to another page of a collection carries the whole request as a query. Coming back it is taken apart in
three steps, each the inverse of one that wrote it: the query is cut into its pairs (`pairs?_queryText`), the
integers of the pairs are read (`readInt64?_toString`), and the pairs are put together to a request.

What comes back is `Parameters.atPage`: the request for the page the link is about, with the page size in
effect written out and blank texts left out. It is a fixed point, so nothing changes from link to link.
-/

namespace HypermediaApi

/-! ### Pairs -/

namespace Query

theorem cutPart_append {name : List Char} (h : '=' ∉ name) (value : List Char) :
    cutPart (name ++ '=' :: value) = (name, value) := by
  have hne := Text.forall_ne_of_not_mem h
  unfold cutPart
  rw [List.takeWhile_append_of_pos hne, List.dropWhile_append_of_pos hne]
  simp

/-- The part of a query that one pair writes. -/
def part (p : String × String) : List Char := p.1.toList ++ '=' :: (Text.Percent.encode p.2).toList

/-- A name that can be written without encoding. -/
def PlainName (name : String) : Prop := '&' ∉ name.toList ∧ '=' ∉ name.toList ∧ '#' ∉ name.toList

instance (name : String) : Decidable (PlainName name) :=
  inferInstanceAs (Decidable ('&' ∉ name.toList ∧ '=' ∉ name.toList ∧ '#' ∉ name.toList))

theorem toList_queryText_singleton (p : String × String) : (RouteTable.queryText [p]).toList = part p := by
  simp [RouteTable.queryText, part, String.toList_append]

theorem toList_queryText_cons_cons (p q : String × String) (ps : List (String × String)) :
    (RouteTable.queryText (p :: q :: ps)).toList =
      part p ++ '&' :: (RouteTable.queryText (q :: ps)).toList := by
  simp [RouteTable.queryText, part, String.toList_append]

/-- A character that encoding never leaves is not in a part, unless it is in the name or is the equality
sign. -/
theorem not_mem_part {p : String × String} {c : Char} (hname : c ∉ p.1.toList) (hsign : c ≠ '=')
    (hreserved : Text.Percent.isUnreserved c = false) (hpercent : c ≠ '%') : c ∉ part p := by
  intro hc
  rcases List.mem_append.mp hc with hmem | hvalue
  · exact hname hmem
  · rcases List.mem_cons.mp hvalue with heq | hvalue
    · exact hsign heq
    · exact Text.Percent.not_mem_encode hreserved hpercent p.2 hvalue

/-- A query is its parts with ampersands between them, and cutting at ampersands gives the parts back. -/
theorem pieces_queryText {p : String × String} {ps : List (String × String)}
    (h : ∀ q ∈ p :: ps, PlainName q.1) :
    Text.pieces (· == '&') (RouteTable.queryText (p :: ps)).toList = (p :: ps).map part := by
  -- Values are encoded and names are plain, so the only ampersands are those between the parts.
  have hpart : ∀ q : String × String, PlainName q.1 → ∀ c ∈ part q, (c == '&') = false := by
    intro q hq c hc
    have hne : c ≠ '&' := fun he => not_mem_part hq.1 (by decide) (by decide) (by decide) (he ▸ hc)
    simpa using hne
  induction ps generalizing p with
  | nil =>
    rw [toList_queryText_singleton, Text.pieces_of_forall_not (hpart p (h p (List.mem_cons_self ..)))]
    rfl
  | cons q ps ih =>
    rw [toList_queryText_cons_cons, Text.pieces_append_cons (hpart p (h p (List.mem_cons_self ..))) rfl,
      ih fun r hr => h r (List.mem_cons_of_mem _ hr)]
    rfl

/-- A query does not run into a fragment. -/
theorem numberSign_not_mem_queryText {ps : List (String × String)} (h : ∀ q ∈ ps, PlainName q.1) :
    '#' ∉ (RouteTable.queryText ps).toList := by
  have hpart : ∀ q : String × String, PlainName q.1 → '#' ∉ part q := fun q hq =>
    not_mem_part hq.2.2 (by decide) (by decide) (by decide)
  induction ps with
  | nil => exact List.not_mem_nil
  | cons p ps ih =>
    have hp := hpart p (h p (List.mem_cons_self ..))
    cases ps with
    | nil =>
      rw [toList_queryText_singleton]
      exact hp
    | cons q ps =>
      have hrest := ih fun r hr => h r (List.mem_cons_of_mem _ hr)
      rw [toList_queryText_cons_cons]
      simp [hp, hrest]

theorem read_part {p : String × String} (h : PlainName p.1) :
    (Text.Percent.decode? (.ofList (cutPart (part p)).2)).map (String.ofList (cutPart (part p)).1, ·) =
      some p := by
  unfold part
  rw [cutPart_append h.2.1, String.ofList_toList, String.ofList_toList, Text.Percent.decode?_encode]
  rfl

/-- **The pairs of a query read back**, in order and with repetitions, whatever their values. -/
theorem pairs?_queryText {p : String × String} {ps : List (String × String)}
    (h : ∀ q ∈ p :: ps, PlainName q.1) : pairs? (RouteTable.queryText (p :: ps)) = some (p :: ps) := by
  unfold pairs?
  rw [pieces_queryText h]
  exact mapM_map_eq_some fun q hq => read_part (h q hq)

end Query

/-! ### Integers -/

namespace Parameters

theorem toDigits_shape (n : Nat) :
    (Nat.toDigits 10 n).isEmpty = false ∧ (Nat.toDigits 10 n).all Char.isDigit = true :=
  ⟨by simp, List.all_eq_true.mpr fun _ hc => Text.isDigit_of_mem_toDigits hc⟩

/-- An integer without a minus is the number that its digits write, if that has 64 bits. -/
theorem readInt64?_of_digits {s : String} {n : Nat} (h : s.toList = Nat.toDigits 10 n)
    (hn : n ≤ Int64.maxValue.toInt) : readInt64? s = some (.ofInt n) := by
  -- A minus is no digit, so the text is not taken for that of a negative number.
  have hminus : ∀ r, s.toList ≠ '-' :: r := by
    intro r hr
    have hmem : '-' ∈ Nat.toDigits 10 n := by
      rw [← h, hr]
      exact List.mem_cons_self ..
    exact absurd (Text.isDigit_of_mem_toDigits hmem) (by decide)
  obtain ⟨hne, hdigits⟩ := toDigits_shape n
  unfold readInt64?
  split
  next negative ds heq =>
    split at heq
    · next r hr => exact absurd hr (hminus r)
    · obtain ⟨rfl, rfl⟩ := Prod.mk.inj heq
      rw [h, hne, hdigits, Text.digitsValue_toDigits]
      simp only [Bool.not_true, Bool.or_self, Bool.false_eq_true, if_false]
      have hlow : Int64.minValue.toInt ≤ n := Int.le_trans (by decide) (Int.natCast_nonneg n)
      rw [if_pos ⟨hlow, hn⟩]

theorem readInt64?_of_minus {s : String} {n : Nat} (h : s.toList = '-' :: Nat.toDigits 10 n)
    (hn : Int64.minValue.toInt ≤ -n) : readInt64? s = some (.ofInt (-n)) := by
  obtain ⟨hne, hdigits⟩ := toDigits_shape n
  unfold readInt64?
  rw [h]
  simp only [hne, hdigits, Text.digitsValue_toDigits, Bool.not_true, Bool.or_self, Bool.false_eq_true,
    if_false, if_true]
  have hhigh : -(n : Int) ≤ Int64.maxValue.toInt :=
    Int.le_trans (Int.neg_nonpos_of_nonneg (Int.natCast_nonneg n)) (by decide)
  rw [if_pos ⟨hn, hhigh⟩]

/-- **A written integer reads back.** -/
theorem readInt64?_toString (i : Int64) : readInt64? (toString i.toInt) = some i := by
  have hchars := Text.toList_toString_int i.toInt
  by_cases hneg : i.toInt < 0
  · rw [if_pos hneg] at hchars
    have hvalue : -(i.toInt.natAbs : Int) = i.toInt := by omega
    rw [readInt64?_of_minus hchars (by rw [hvalue]; exact i.minValue_le_toInt), hvalue, Int64.ofInt_toInt]
  · rw [if_neg hneg] at hchars
    have hvalue : (i.toInt.natAbs : Int) = i.toInt := by omega
    rw [readInt64?_of_digits hchars (by rw [hvalue]; exact i.toInt_le), hvalue, Int64.ofInt_toInt]

theorem toString_int_ne_empty (n : Int) : toString n ≠ "" := by
  intro h
  have hchars := Text.toList_toString_int n
  rw [h] at hchars
  split at hchars
  · cases hchars
  · exact Nat.toDigits_ne_nil hchars.symm

/-! ### Requests -/

/-- A pair that may be left out is found under its own name only. -/
theorem lookup_optionalPair (name key : String) (value : Option String) :
    (optionalPair name value).lookup key = if key = name then value else none := by
  cases value with
  | none => simp [optionalPair]
  | some text =>
    by_cases h : key = name
    · simp [optionalPair, h]
    · simp [optionalPair, h, beq_eq_false_iff_ne.mpr h]

theorem eq_name_of_mem_optionalPair {name : String} {value : Option String} {q : String × String}
    (h : q ∈ optionalPair name value) : q.1 = name := by
  cases value with
  | none => exact absurd h List.not_mem_nil
  | some text => rw [List.mem_singleton.mp h]

theorem ne_empty_of_mem_optionalPair {name : String} {value : Option String} {q : String × String}
    (h : q ∈ optionalPair name (value.filter (! Text.isBlankText ·))) : q.2 ≠ "" := by
  cases hvalue : value.filter (! Text.isBlankText ·) with
  | none =>
    rw [hvalue] at h
    exact absurd h List.not_mem_nil
  | some text =>
    rw [hvalue] at h
    obtain rfl : q = (name, text) := List.mem_singleton.mp h
    obtain ⟨-, hblank⟩ := Option.filter_eq_some_iff.mp hvalue
    rintro rfl
    exact absurd hblank (by decide)

end Parameters

/-- Filters whose pairs keep to names of their own, so that they can travel beside the other parameters, and
which say the same when they come back. -/
class LawfulFilter (φ : Type) [Filter φ] : Prop where
  /-- The names are written without encoding and are not those of the other parameters. -/
  plain_of_mem_names : ∀ name ∈ Filter.names φ, Query.PlainName name ∧ name ∉ Parameters.names
  mem_names_of_mem_queryPairs : ∀ (f : φ), ∀ q ∈ Filter.queryPairs f, q.1 ∈ Filter.names φ
  ne_empty_of_mem_queryPairs : ∀ (f : φ), ∀ q ∈ Filter.queryPairs f, q.2 ≠ ""
  /-- Reading a filter passes over the other parameters. -/
  ofPairs_append : ∀ others own : List (String × String), (∀ q ∈ others, q.1 ∈ Parameters.names) →
    (Filter.ofPairs (others ++ own) : φ) = Filter.ofPairs own
  /-- What was read is written as it was. -/
  queryPairs_ofPairs : ∀ f : φ,
    Filter.queryPairs (Filter.ofPairs (Filter.queryPairs f) : φ) = Filter.queryPairs f

instance : LawfulFilter NoFilter where
  plain_of_mem_names := by simp [Filter.names]
  mem_names_of_mem_queryPairs := by simp [Filter.queryPairs]
  ne_empty_of_mem_queryPairs := by simp [Filter.queryPairs]
  ofPairs_append := fun _ _ _ => rfl
  queryPairs_ofPairs := fun _ => rfl

namespace Parameters

variable {φ : Type}

/-- The pairs that every collection has. -/
def commonPairs (p : Parameters φ) (index : Int64) : List (String × String) :=
  [("pageIndex", toString index.toInt), ("pageSize", toString p.pageSize.toInt)] ++
    optionalPair "orderBy" p.orderBy ++ optionalPair "fields" p.fields

theorem mem_names_of_mem_commonPairs {p : Parameters φ} {index : Int64} {q : String × String}
    (h : q ∈ p.commonPairs index) : q.1 ∈ names := by
  unfold commonPairs at h
  simp only [List.mem_append, List.mem_cons, List.not_mem_nil, or_false] at h
  rcases h with ((rfl | rfl) | h) | h
  · simp [names]
  · simp [names]
  · rw [eq_name_of_mem_optionalPair h]
    decide
  · rw [eq_name_of_mem_optionalPair h]
    decide

variable [Filter φ]

theorem queryPairs_eq (p : Parameters φ) (index : Int64) :
    p.queryPairs index = p.commonPairs index ++ Filter.queryPairs p.filter := rfl

/-- A query says nothing but the page size in effect, the texts that are not blank and the filter's pairs. -/
theorem queryPairs_congr {p q : Parameters φ} (hsize : p.pageSize = q.pageSize)
    (horder : p.orderBy = q.orderBy) (hfields : p.fields = q.fields) (hfilter : Filter.queryPairs p.filter = Filter.queryPairs q.filter)
    (index : Int64) : p.queryPairs index = q.queryPairs index := by
  rw [queryPairs_eq, queryPairs_eq, hfilter]
  unfold commonPairs
  rw [hsize, horder, hfields]

/-- The request for the page at an index of the same collection: the page size in effect is written out, and
what is blank is left out. -/
def atPage (p : Parameters φ) (index : Int64) : Parameters φ where
  pageIndex := index
  givenPageSize := some p.pageSize
  givenOrderBy := p.orderBy
  givenFields := p.fields
  filter := Filter.ofPairs (Filter.queryPairs p.filter)

@[simp] theorem atPage_pageIndex (p : Parameters φ) (index : Int64) : (p.atPage index).pageIndex = index := rfl

@[simp] theorem atPage_orderBy (p : Parameters φ) (index : Int64) : (p.atPage index).orderBy = p.orderBy := by
  show (p.givenOrderBy.filter _).filter _ = p.givenOrderBy.filter _
  simp [Option.filter_filter]

@[simp] theorem atPage_fields (p : Parameters φ) (index : Int64) : (p.atPage index).fields = p.fields := by
  show (p.givenFields.filter _).filter _ = p.givenFields.filter _
  simp [Option.filter_filter]

variable [LawfulFilter φ]

theorem ne_empty_of_mem_queryPairs {p : Parameters φ} {index : Int64} {q : String × String}
    (h : q ∈ p.queryPairs index) : q.2 ≠ "" := by
  rw [queryPairs_eq] at h
  rcases List.mem_append.mp h with hcommon | hfilter
  · simp only [commonPairs, List.mem_append, List.mem_cons, List.not_mem_nil, or_false] at hcommon
    rcases hcommon with ((rfl | rfl) | h) | h
    · exact toString_int_ne_empty index.toInt
    · exact toString_int_ne_empty p.pageSize.toInt
    · exact ne_empty_of_mem_optionalPair h
    · exact ne_empty_of_mem_optionalPair h
  · exact LawfulFilter.ne_empty_of_mem_queryPairs p.filter q hfilter

theorem plainName_of_mem_queryPairs {p : Parameters φ} {index : Int64} {q : String × String}
    (h : q ∈ p.queryPairs index) : Query.PlainName q.1 := by
  rw [queryPairs_eq] at h
  rcases List.mem_append.mp h with hcommon | hfilter
  · have hall : ∀ name ∈ names, Query.PlainName name := by decide
    exact hall q.1 (mem_names_of_mem_commonPairs hcommon)
  · exact (LawfulFilter.plain_of_mem_names q.1
      (LawfulFilter.mem_names_of_mem_queryPairs p.filter q hfilter)).1

theorem lookup_queryPairs {p : Parameters φ} {index : Int64} {name : String} (h : name ∈ names) :
    (p.queryPairs index).lookup name = (p.commonPairs index).lookup name := by
  have hfilter : (Filter.queryPairs p.filter).lookup name = none := by
    rw [List.lookup_eq_none_iff]
    intro q hq
    have hown := LawfulFilter.mem_names_of_mem_queryPairs p.filter q hq
    have hne : name ≠ q.1 := fun he => (LawfulFilter.plain_of_mem_names q.1 hown).2 (he ▸ h)
    simpa using hne
  rw [queryPairs_eq, List.lookup_append, hfilter, Option.or_none]

/-- **The pairs of a query make the request for the page they are about.** -/
theorem ofQueryPairs?_queryPairs (p : Parameters φ) (index : Int64) :
    ofQueryPairs? (p.queryPairs index) = some (p.atPage index) := by
  -- Each parameter is looked up under its own name, which is none of the filter's.
  have hindex : (p.queryPairs index).lookup "pageIndex" = some (toString index.toInt) := by
    rw [lookup_queryPairs (by decide)]
    rfl
  have hsize : (p.queryPairs index).lookup "pageSize" = some (toString p.pageSize.toInt) := by
    rw [lookup_queryPairs (by decide)]
    rfl
  have horder : (p.queryPairs index).lookup "orderBy" = p.orderBy := by
    rw [lookup_queryPairs (by decide)]
    simp [commonPairs, List.lookup_append, lookup_optionalPair, List.lookup_cons]
  have hfields : (p.queryPairs index).lookup "fields" = p.fields := by
    rw [lookup_queryPairs (by decide)]
    simp [commonPairs, List.lookup_append, lookup_optionalPair, List.lookup_cons]
  have hfilter : (Filter.ofPairs (p.queryPairs index) : φ) = Filter.ofPairs (Filter.queryPairs p.filter) :=
    LawfulFilter.ofPairs_append _ _ fun q hq => mem_names_of_mem_commonPairs hq
  unfold ofQueryPairs?
  rw [hindex, hsize, horder, hfields, hfilter]
  simp only [readInt64?_toString]
  rfl


end Parameters

end HypermediaApi

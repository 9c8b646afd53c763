import HypermediaApi.Blog.Draft
import HypermediaApi.Proofs.Json.Structures

/-!
# HypermediaApi.Proofs.Blog.PatchBody — what a patch body means

A patch body says up to three things about a draft. Each is a text, `null` or nothing. `Merges` says, in terms of the
members of the body, what becomes of a draft, and `body_merges` that the patch read from the body does just that; bodies
in the form of an array are their elements under the keys in order. Reading fails exactly if a known key is repeated or
holds something else (`Refused`). Unknown keys do not matter, whatever they hold and however often they stand, because
only the first three keys are looked up.

The other direction is weaker. A patch is written with all three keys, and what does not change is written `null`. For
the title and the body that reads as no change, but for the remark it reads as its removal: a written patch reads back as
itself only if it sets or clears the remark (`reads_back_iff`).
-/

namespace HypermediaApi

/-! ### Fields that hold a text or nothing -/

namespace Json

/-- A text, or `null`. -/
def Tree.IsTextOrNull (t : Tree) : Prop := t = .null ∨ ∃ s, t.string? = some s

theorem nullable?_eq_none_iff {t : Tree} : t.nullable? (·.string?) = none ↔ ¬ t.IsTextOrNull := by
  cases t <;> simp [Tree.nullable?, Tree.IsTextOrNull, Tree.string?, Option.eq_none_iff_forall_not_mem]

theorem nullable?_eq_some_none_iff {t : Tree} : t.nullable? (·.string?) = some none ↔ t = .null := by
  cases t <;> simp [Tree.nullable?, Tree.string?]

theorem nullable?_eq_some_some_iff {t : Tree} {s : String} :
    t.nullable? (·.string?) = some (some s) ↔ t.string? = some s := by
  cases t <;> simp [Tree.nullable?, Tree.string?]

end Json

namespace Blog

namespace PostPatch

open Json (Fields)

/-- The keys of a patch body. -/
def keys : List String := ["title", "body", "remark"]

/-! ### What a body says -/

/-- What a body says under a key. -/
inductive Said where
  | text (s : String)
  | null
  | nothing

/-- A text becomes the one that is given; `null` and silence keep it. -/
def Said.onText (old : String) : Said → String
  | .text s => s
  | .null => old
  | .nothing => old

/-- A remark becomes the one that is given, `null` clears it, and only silence keeps it. -/
def Said.onRemark (old : Option String) : Said → Option String
  | .text s => some s
  | .null => none
  | .nothing => old

/-- The body says that under the key. -/
inductive Says (fields : Fields) (key : String) : Said → Prop where
  | text {t : Json.Tree} {s : String} (h : (key, t) ∈ fields) (hs : t.string? = some s) : Says fields key (.text s)
  | null (h : (key, .null) ∈ fields) : Says fields key .null
  | nothing (h : key ∉ fields.map Prod.fst) : Says fields key .nothing

/-- The body makes the second draft of the first one. -/
structure Merges (fields : Fields) (d d' : PostDraft) : Prop where
  title : ∃ said, Says fields "title" said ∧ d'.title = said.onText d.title
  body : ∃ said, Says fields "body" said ∧ d'.body = said.onText d.body
  remark : ∃ said, Says fields "remark" said ∧ d'.remark = said.onRemark d.remark

/-- A known key is repeated, or holds something other than a text or `null`. -/
def Refused (fields : Fields) : Prop :=
  ∃ key ∈ keys, 1 < (fields.map Prod.fst).count key ∨ ∃ t, (key, t) ∈ fields ∧ ¬ t.IsTextOrNull

/-! ### Reading a key -/

/-- What is read under a key: nothing, `null` or a text. -/
def readKey? (fields : Fields) (key : String) : Option (Option (Option String)) :=
  fields.withDefault key none fun t => (t.nullable? (·.string?)).map some

/-- Where nothing and `null` mean the same, they are not told apart. -/
theorem optional_eq_map_join (fields : Fields) (key : String) :
    fields.optional key (·.string?) = (readKey? fields key).map Option.join := by
  unfold readKey? Fields.optional Fields.withDefault
  cases fields.lookup key with
  | none => rfl
  | some t =>
    dsimp only
    cases t.nullable? (·.string?) <;> rfl

/-- What was read as something that a body can say. -/
def Said.ofRead : Option (Option String) → Said
  | some (some s) => .text s
  | some none => .null
  | none => .nothing

theorem Said.onText_ofRead (v : Option (Option String)) (old : String) : (ofRead v).onText old = v.join.getD old := by
  cases v with
  | none => rfl
  | some v => cases v <;> rfl

theorem Said.onRemark_ofRead (v : Option (Option String)) (old : Option String) :
    (ofRead v).onRemark old = v.getD old := by
  cases v with
  | none => rfl
  | some v => cases v <;> rfl

variable {fields : Fields} {key : String}

theorem readKey?_of_not_mem (h : key ∉ fields.map Prod.fst) : readKey? fields key = some none := by
  rw [readKey?, Fields.withDefault, OrderedMap.lookup_eq_none_iff.mpr h]

theorem readKey?_of_mem (h : (fields.map Prod.fst).count key ≤ 1) {t : Json.Tree} (ht : (key, t) ∈ fields) :
    readKey? fields key = (t.nullable? (·.string?)).map some := by
  rw [readKey?, Fields.withDefault, (OrderedMap.lookup_eq_some_iff h).mpr ht]

/-- A key that stands at most once is refused exactly if it holds neither a text nor `null`. -/
theorem readKey?_eq_none_iff (h : (fields.map Prod.fst).count key ≤ 1) :
    readKey? fields key = none ↔ ∃ t, (key, t) ∈ fields ∧ ¬ t.IsTextOrNull := by
  simp only [← OrderedMap.lookup_eq_some_iff h, ← Json.nullable?_eq_none_iff]
  unfold readKey? Fields.withDefault
  cases fields.lookup key <;> simp

/-- What the body says under a key is read. -/
theorem Says.exists_readKey? (h : (fields.map Prod.fst).count key ≤ 1) {said : Said} (hsaid : Says fields key said) :
    ∃ v, readKey? fields key = some v ∧ said = .ofRead v := by
  cases hsaid with
  | @text t s ht hs =>
    refine ⟨some (some s), ?_, rfl⟩
    rw [readKey?_of_mem h ht, Json.nullable?_eq_some_some_iff.mpr hs, Option.map_some]
  | null ht => exact ⟨some none, readKey?_of_mem h ht, rfl⟩
  | nothing habsent => exact ⟨none, readKey?_of_not_mem habsent, rfl⟩

/-- What is read under a key, the body says. -/
theorem says_of_readKey? (h : (fields.map Prod.fst).count key ≤ 1) {v : Option (Option String)}
    (hread : readKey? fields key = some v) : Says fields key (.ofRead v) := by
  cases hlookup : fields.lookup key with
  | none =>
    have habsent := OrderedMap.lookup_eq_none_iff.mp hlookup
    obtain rfl : none = v := Option.some.inj ((readKey?_of_not_mem habsent).symm.trans hread)
    exact .nothing habsent
  | some t =>
    have ht := (OrderedMap.lookup_eq_some_iff h).mp hlookup
    rw [readKey?_of_mem h ht] at hread
    obtain ⟨read, hnullable, rfl⟩ := Option.map_eq_some_iff.mp hread
    cases read with
    | none =>
      obtain rfl := Json.nullable?_eq_some_none_iff.mp hnullable
      exact .null ht
    | some s => exact .text ht (Json.nullable?_eq_some_some_iff.mp hnullable)

/-- **What is read under a key is what the body says there**, and nothing else is. -/
theorem says_iff (h : (fields.map Prod.fst).count key ≤ 1) {v : Option (Option String)}
    (hread : readKey? fields key = some v) {said : Said} : Says fields key said ↔ said = .ofRead v := by
  constructor
  · intro hsaid
    obtain ⟨v', hread', rfl⟩ := hsaid.exists_readKey? h
    obtain rfl : v' = v := Option.some.inj (hread'.symm.trans hread)
    rfl
  · rintro rfl
    exact says_of_readKey? h hread

/-! ### Reading a body -/

/-- The patch that the fields of a body hold. -/
def ofFields? (fields : Fields) : Option PostPatch := do
  some {
    title := ← fields.optional "title" (·.string?)
    body := ← fields.optional "body" (·.string?)
    remark := ← readKey? fields "remark" }

theorem ofTree?_eq (t : Json.Tree) : ofTree? t = (t.fields? keys 0).bind ofFields? := rfl

/-- Only the known keys are read. -/
theorem ofFields?_congr {fields fields' : Fields} (h : ∀ key ∈ keys, fields.lookup key = fields'.lookup key) :
    ofFields? fields = ofFields? fields' := by
  unfold ofFields? readKey? Fields.optional Fields.withDefault
  simp only [keys, List.forall_mem_cons] at h
  rw [h.1, h.2.1, h.2.2.1]

theorem ofFields?_eq (fields : Fields) : ofFields? fields =
    (readKey? fields "title").bind fun title => (readKey? fields "body").bind fun body =>
      (readKey? fields "remark").map fun remark => { title := title.join, body := body.join, remark } := by
  unfold ofFields?
  rw [optional_eq_map_join, optional_eq_map_join]
  cases readKey? fields "title" <;> cases readKey? fields "body" <;> cases readKey? fields "remark" <;> rfl

/-- No known key is repeated. -/
def KeysOnce (fields : Fields) : Prop := ∀ key ∈ keys, (fields.map Prod.fst).count key ≤ 1

/-- Fields that repeat no known key are refused exactly if one of them holds neither a text nor `null`. -/
theorem ofFields?_eq_none_iff (h : KeysOnce fields) :
    ofFields? fields = none ↔ ∃ key ∈ keys, ∃ t, (key, t) ∈ fields ∧ ¬ t.IsTextOrNull := by
  have hread : (∃ key ∈ keys, ∃ t, (key, t) ∈ fields ∧ ¬ t.IsTextOrNull) ↔ ∃ key ∈ keys, readKey? fields key = none := by
    refine exists_congr fun key => and_congr_right fun hkey => ?_
    exact (readKey?_eq_none_iff (h key hkey)).symm
  have hkeys : (∃ key ∈ keys, readKey? fields key = none) ↔
      readKey? fields "title" = none ∨ readKey? fields "body" = none ∨ readKey? fields "remark" = none := by
    simp [keys]
  rw [hread, hkeys, ofFields?_eq]
  cases readKey? fields "title" <;> cases readKey? fields "body" <;> cases readKey? fields "remark" <;> simp

/-- **A patch does what the body says that it was read from.** -/
theorem merges_iff (h : KeysOnce fields) {p : PostPatch} (hp : ofFields? fields = some p) {d d' : PostDraft} :
    Merges fields d d' ↔ d' = p.apply d := by
  rw [ofFields?_eq, Option.bind_eq_some_iff] at hp
  obtain ⟨title, htitle, hp⟩ := hp
  obtain ⟨body, hbody, hp⟩ := Option.bind_eq_some_iff.mp hp
  obtain ⟨remark, hremark, rfl⟩ := Option.map_eq_some_iff.mp hp
  have hspoken {key : String} (hkey : key ∈ keys) {v : Option (Option String)} (hread : readKey? fields key = some v)
      {said : Said} : Says fields key said ↔ said = .ofRead v := says_iff (h key hkey) hread
  have hmerges : Merges fields d d' ↔ d'.title = title.join.getD d.title ∧ d'.body = body.join.getD d.body ∧
      d'.remark = remark.getD d.remark := by
    rw [← Said.onText_ofRead, ← Said.onText_ofRead, ← Said.onRemark_ofRead]
    constructor
    · rintro ⟨⟨_, hsaid, ht⟩, ⟨_, hsaid', hb⟩, ⟨_, hsaid'', hr⟩⟩
      obtain rfl := (hspoken (by decide) htitle).mp hsaid
      obtain rfl := (hspoken (by decide) hbody).mp hsaid'
      obtain rfl := (hspoken (by decide) hremark).mp hsaid''
      exact ⟨ht, hb, hr⟩
    · rintro ⟨ht, hb, hr⟩
      exact ⟨⟨_, (hspoken (by decide) htitle).mpr rfl, ht⟩, ⟨_, (hspoken (by decide) hbody).mpr rfl, hb⟩,
        ⟨_, (hspoken (by decide) hremark).mpr rfl, hr⟩⟩
  rw [hmerges]
  obtain ⟨t, b, r⟩ := d'
  simp [PostPatch.apply]

/-! ### The two forms of a body -/

/-- An object is read by all its members, unless a known key is repeated. -/
theorem ofTree?_object {members : List (List Char × Json.Tree)} (hdecoded : Json.decodeKeys? members = some fields) :
    (KeysOnce fields ∧ ofTree? (.object members) = ofFields? fields) ∨
      (¬ KeysOnce fields ∧ ofTree? (.object members) = none) := by
  rw [KeysOnce, ← Json.noneRepeated_iff, ofTree?_eq, Json.Tree.fields?, hdecoded]
  by_cases honce : Json.noneRepeated keys fields = true
  · refine .inl ⟨honce, ?_⟩
    dsimp only [bind, Option.bind]
    rw [if_pos honce]
    exact ofFields?_congr fun key hkey => OrderedMap.lookup_filter (p := keys.contains) (by simpa using hkey) fields
  · refine .inr ⟨honce, ?_⟩
    dsimp only [bind, Option.bind]
    rw [if_neg honce]

/-- Elements stand under the keys in order, so under each key at most once. -/
theorem keysOnce_zip (ts : List Json.Tree) : KeysOnce (keys.zip ts) := by
  have hsublist : ∀ (names : List String) (ts : List Json.Tree), ((names.zip ts).map Prod.fst).Sublist names := by
    intro names
    induction names with
    | nil => exact fun _ => .slnil
    | cons name names ih =>
      intro ts
      cases ts with
      | nil => exact List.nil_sublist _
      | cons t ts => exact (ih ts).cons_cons name
  exact fun key _ => List.nodup_iff_count.mp (List.Nodup.sublist (hsublist keys ts) (by decide)) key

theorem ofTree?_array {ts : List Json.Tree} (h : ts.length ≤ 3) : ofTree? (.array ts) = ofFields? (keys.zip ts) := by
  have hlength : (decide (0 ≤ ts.length) && decide (ts.length ≤ keys.length)) = true := by
    simpa [keys] using h
  rw [ofTree?_eq, Json.Tree.fields?, if_pos hlength, Option.bind_some]

/-- The elements of an array that is not too long are all under keys. -/
theorem exists_mem_zip_iff {ts : List Json.Tree} (h : ts.length ≤ 3) {P : Json.Tree → Prop} :
    (∃ key ∈ keys, ∃ t, (key, t) ∈ keys.zip ts ∧ P t) ↔ ∃ t ∈ ts, P t := by
  constructor
  · rintro ⟨key, -, t, hmem, ht⟩
    exact ⟨t, (List.of_mem_zip hmem).2, ht⟩
  · rintro ⟨t, hmem, ht⟩
    have hsnd : (keys.zip ts).map Prod.snd = ts := List.map_snd_zip h
    rw [← hsnd] at hmem
    obtain ⟨⟨key, u⟩, hzip, rfl⟩ := List.mem_map.mp hmem
    exact ⟨key, (List.of_mem_zip hzip).1, u, hzip, ht⟩

/-- **A patch body is a merge.** A body in the form of an object is refused exactly if a known key is repeated or holds
something other than a text or `null`; otherwise the patch does with a draft what the body says. With elements in the
place of members the same holds of an array, which is refused also if it has more elements than there are keys. A patch
that is applied once more changes nothing. -/
theorem body_merges :
    (∀ (s : String) (members : List (List Char × Json.Tree)) (fields : Fields),
      Json.Tree.read? s = some (.object members) → Json.decodeKeys? members = some fields →
      (Json.decode? ofTree? s = none ↔ Refused fields) ∧
      ∀ p, Json.decode? ofTree? s = some p → ∀ d d', Merges fields d d' ↔ d' = p.apply d) ∧
    (∀ (s : String) (members : List (List Char × Json.Tree)), Json.Tree.read? s = some (.object members) →
      Json.decodeKeys? members = none → Json.decode? ofTree? s = none) ∧
    (∀ (s : String) (ts : List Json.Tree), Json.Tree.read? s = some (.array ts) →
      (Json.decode? ofTree? s = none ↔ 3 < ts.length ∨ ∃ t ∈ ts, ¬ t.IsTextOrNull) ∧
      ∀ p, Json.decode? ofTree? s = some p → ∀ d d', Merges (keys.zip ts) d d' ↔ d' = p.apply d) ∧
    ∀ (p : PostPatch) (d : PostDraft), p.apply (p.apply d) = p.apply d := by
  have hdecode {s : String} {t : Json.Tree} (hs : Json.Tree.read? s = some t) : Json.decode? ofTree? s = ofTree? t := by
    rw [Json.decode?, hs, Option.bind_some]
  refine ⟨fun s members fields hs hkeys => ?_, fun s members hs hkeys => ?_, fun s ts hs => ?_, fun p d => ?_⟩
  · rw [hdecode hs]
    rcases ofTree?_object hkeys with ⟨honce, hread⟩ | ⟨hrepeated, hread⟩
    · rw [hread]
      refine ⟨?_, fun p hp d d' => merges_iff honce hp⟩
      rw [ofFields?_eq_none_iff honce]
      refine exists_congr fun key => and_congr_right fun hkey => ?_
      have hcount := honce key hkey
      exact ⟨.inr, fun h => h.resolve_left (by omega)⟩
    · rw [hread]
      refine ⟨iff_of_true rfl ?_, by simp⟩
      simp only [KeysOnce, not_forall, exists_prop] at hrepeated
      obtain ⟨key, hkey, hcount⟩ := hrepeated
      exact ⟨key, hkey, .inl (by omega)⟩
  · rw [hdecode hs, ofTree?_eq, Json.Tree.fields?, hkeys]
    rfl
  · rw [hdecode hs]
    by_cases hlong : 3 < ts.length
    · have hread : ofTree? (.array ts) = none := by
        rw [ofTree?_eq, Json.Tree.fields?, if_neg (by simpa [keys] using hlong), Option.bind_none]
      rw [hread]
      exact ⟨iff_of_true rfl (.inl hlong), by simp⟩
    · have hshort : ts.length ≤ 3 := by omega
      rw [ofTree?_array hshort]
      refine ⟨?_, fun p hp d d' => merges_iff (keysOnce_zip ts) hp⟩
      rw [ofFields?_eq_none_iff (keysOnce_zip ts), exists_mem_zip_iff hshort]
      exact ⟨.inr, fun h => h.resolve_left hlong⟩
  · obtain ⟨title, body, remark⟩ := p
    cases title <;> cases body <;> cases remark <;> rfl

/-- Unknown keys may be repeated and hold numbers beyond every range; a remark that is `null` is cleared, in an array it is
kept where the array is too short for it, and a key that is half of a surrogate pair is refused. -/
theorem body_merges_with_unknown_keys :
    let body := "\x7b\"x\":1e999,\"remark\":null,\"x\":[],\"title\":\"A\"\x7d"
    let beyond : Json.Tree := .number ⟨false, ['1'], [], some 999⟩
    let fields : Fields := [("x", beyond), ("remark", .null), ("x", .array []), ("title", .text ['A'])]
    let before : PostDraft := { title := "T", body := "B", remark := some "R" }
    ¬ Refused fields ∧
    (∃ p, Json.decode? ofTree? body = some p ∧ Merges fields before (p.apply before) ∧
      p.apply before = { title := "A", body := "B", remark := none }) ∧
    Json.decode? ofTree? "\x7b\"\\ud800\":0\x7d" = none ∧
    (∃ p, Json.decode? ofTree? "[null,\"C\"]" = some p ∧ Merges (keys.zip [.null, .text ['C']]) before (p.apply before) ∧
      p.apply before = { title := "T", body := "C", remark := some "R" }) := by
  intro body beyond fields before
  obtain ⟨hobject, hkeyless, harray, -⟩ := body_merges
  have hbody : Json.Tree.read? body = some (.object [(['x'], beyond), (['r', 'e', 'm', 'a', 'r', 'k'], .null),
      (['x'], .array []), (['t', 'i', 't', 'l', 'e'], .text ['A'])]) := Json.Tree.read?_of_tokens (by decide)
  have hread : Json.decode? ofTree? body = some { title := some "A", remark := some none } := by
    rw [Json.decode?, hbody]
    rfl
  obtain ⟨hrefused, hmerges⟩ := hobject body _ fields hbody rfl
  have helements : Json.Tree.read? "[null,\"C\"]" = some (.array [.null, .text ['C']]) :=
    Json.Tree.read?_of_tokens (by decide)
  have hread' : Json.decode? ofTree? "[null,\"C\"]" = some { body := some "C" } := by
    rw [Json.decode?, helements]
    rfl
  have hkey : Json.Tree.read? "\x7b\"\\ud800\":0\x7d" =
      some (.object [(['\\', 'u', 'd', '8', '0', '0'], .number ⟨false, ['0'], [], none⟩)]) :=
    Json.Tree.read?_of_tokens (by decide)
  refine ⟨fun h => ?_, ⟨_, hread, (hmerges _ hread _ _).mpr rfl, rfl⟩, hkeyless _ _ hkey rfl,
    ⟨_, hread', ((harray _ _ helements).2 _ hread' _ _).mpr rfl, rfl⟩⟩
  have hnone := hrefused.mpr h
  rw [hread] at hnone
  cases hnone

/-! ### A written patch -/

theorem fits_toJson (p : PostPatch) : Json.Fits 1 p.toJson := by
  refine .object ?_
  cases p.title <;> cases p.body <;> cases p.remark.getD none <;>
    simp [Json.optionalString, Json.Fits.string, Json.Fits.null]

/-- A written patch reads back with the remark cleared where it was left alone. -/
theorem ofTree?_tree (p : PostPatch) : ofTree? p.toJson.tree = some { p with remark := some (p.remark.getD none) } := by
  unfold ofTree? toJson
  rw [Json.fields?_tree (by decide) (by simp)]
  simp [Json.Fields.optional, Json.Fields.withDefault, Json.writtenFields, List.lookup_cons]

theorem decode?_text (p : PostPatch) :
    Json.decode? ofTree? p.toJson.render = some { p with remark := some (p.remark.getD none) } :=
  (p.fits_toJson.decode?_render _).trans p.ofTree?_tree

/-- **A written patch reads back as itself exactly if it sets or clears the remark.** One that leaves the remark alone reads
back as one that clears it, which makes the same of a draft only if there is no remark to clear. -/
theorem reads_back_iff (p : PostPatch) (d : PostDraft) :
    ∃ q, Json.decode? ofTree? p.toJson.render = some q ∧ q.title = p.title ∧ q.body = p.body ∧
      q.remark = some (p.remark.getD none) ∧ (q = p ↔ p.remark ≠ none) ∧
      (q.apply d = p.apply d ↔ p.remark ≠ none ∨ d.remark = none) := by
  refine ⟨_, p.decode?_text, rfl, rfl, rfl, ?_, ?_⟩
  · obtain ⟨title, body, remark⟩ := p
    cases remark <;> simp
  · obtain ⟨title, body, remark⟩ := p
    cases remark <;> simp [apply, eq_comm]

/-- The patch that changes nothing reads back as one that removes the remark. -/
theorem unset_remark_reads_back_cleared :
    ∃ q, Json.decode? ofTree? ({} : PostPatch).toJson.render = some q ∧ q ≠ {} ∧
      ({} : PostPatch).apply { title := "A", body := "B", remark := some "old" } =
        { title := "A", body := "B", remark := some "old" } ∧
      q.apply { title := "A", body := "B", remark := some "old" } = { title := "A", body := "B", remark := none } :=
  ⟨_, decode?_text {}, by decide, rfl, rfl⟩

end PostPatch

end Blog

end HypermediaApi

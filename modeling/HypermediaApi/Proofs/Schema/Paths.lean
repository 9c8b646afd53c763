import HypermediaApi.Proofs.Text.Names
import HypermediaApi.Schema

/-!
# HypermediaApi.Proofs.Schema.Paths — canonical paths lead back to a value

Resolving a path and reading a path are two recursions over the same nested fields: the first follows what a
client wrote, padded and in any case, and the second follows the declared names that the first has answered.
They meet because `Field.find?` cannot tell two spellings of one name apart (`find?_congr`), so looking a
field up by its own declared name finds that very field again, also where a later field repeats the name.

The main statement is `exists_readPath_of_resolve`: what resolves can be read, at any depth and off any
resource.
-/

namespace HypermediaApi

variable {α : Type}

namespace Field

/-! ### Looking fields up by name -/

/-- Two spellings of one name find the same field. -/
theorem find?_congr (fields : List (Field α)) {a b : String} (h : Text.sameName a b) :
    find? fields a = find? fields b := by
  have hfold : Text.foldCase a = Text.foldCase b := Text.sameName_iff.mp h
  unfold find? Text.sameName
  rw [hfold]

/-- A field that was found has the name that was looked for. -/
theorem sameName_of_find? {fields : List (Field α)} {name : String} {f : Field α}
    (h : find? fields name = some f) : Text.sameName f.name name :=
  List.find?_some (p := fun f : Field α => Text.sameName f.name name) h

/-- **The declared name of a field that was found finds that field**, whatever other fields repeat it. -/
theorem find?_name_of_find? {fields : List (Field α)} {name : String} {f : Field α}
    (h : find? fields name = some f) : find? fields f.name = some f := by
  rw [find?_congr fields (sameName_of_find? h)]
  exact h

/-! ### Reading what was resolved -/

/-- A one-segment path reads the field of that name: its own value, or the object of its nested fields. -/
theorem exists_readPath_singleton {fields : List (Field α)} {name : String} {f : Field α}
    (h : find? fields name = some f) (x : α) : ∃ v, readPath x fields [name] = some v := by
  rw [readPath, h]
  cases f with
  | scalar n r => exact ⟨r x, by simp⟩
  | nested n shape sub => exact ⟨readWhole x sub, by simp [readPath]⟩

/-- Below a nested field a path reads on in the nested schema. -/
theorem readPath_cons_nested {fields sub : List (Field α)} {name n shape : String} {rest : List String}
    (h : find? fields name = some (.nested n shape sub)) (x : α) :
    readPath x fields (name :: rest) = readPath x sub rest := by
  rw [readPath, h]

/-- **What resolves can be read.** The induction follows the segments as the client wrote them; at each level
the field that resolving has found is the one that reading finds under its declared name. -/
theorem exists_readPath_of_resolve {fields : List (Field α)} {path names : List String}
    (h : resolve fields path = some names) (x : α) : ∃ v, readPath x fields names = some v := by
  induction path generalizing fields names with
  | nil => simp [resolve] at h
  | cons head rest ih =>
    rw [resolve] at h
    cases hf : find? fields (Text.trim head) with
    | none => simp [hf] at h
    | some f =>
      have hname : find? fields f.name = some f := find?_name_of_find? hf
      simp only [hf] at h
      by_cases hrest : rest.isEmpty
      · rw [if_pos hrest] at h
        obtain rfl : [f.name] = names := Option.some.inj h
        exact exists_readPath_singleton hname x
      · rw [if_neg hrest] at h
        cases f with
        | scalar n r => simp at h
        | nested n shape sub =>
          -- Reading looks the field up by its declared name, finds it again and goes on below it.
          obtain ⟨below, hbelow, rfl⟩ := Option.map_eq_some_iff.mp h
          obtain ⟨v, hv⟩ := ih hbelow
          have hstep : readPath x fields (n :: below) = readPath x sub below :=
            readPath_cons_nested hname x
          exact ⟨v, hstep.trans hv⟩

end Field

namespace Schema

/-- A path of the schema that has a canonical form can be read off every resource. -/
theorem exists_readPath_of_canonicalPath {s : Schema α} {path : String} {names : List String}
    (h : s.canonicalPath path = some names) (x : α) : ∃ v, s.readPath x names = some v :=
  Field.exists_readPath_of_resolve h x

/-! ### Flat schemas

Where no field is nested and no name holds a full stop, a dotted path leads nowhere, and a plain one leads to
the field of that name. -/

/-- Every field has a value of its own and a name without a full stop. -/
def Flat (s : Schema α) : Prop :=
  ∀ f ∈ s.fields, (∃ name read, f = .scalar name read) ∧ '.' ∉ f.name.toList

/-- In a flat schema a path of several segments leads nowhere. -/
theorem resolve_of_flat {s : Schema α} (hflat : s.Flat) (head next : String) (rest : List String) :
    Field.resolve s.fields (head :: next :: rest) = none := by
  rw [Field.resolve]
  cases hf : Field.find? s.fields (Text.trim head) with
  | none => rfl
  | some f =>
    obtain ⟨⟨name, read, rfl⟩, -⟩ := hflat f (List.mem_of_find?_eq_some hf)
    rfl

/-- **In a flat schema a trimmed entry has a path exactly if it is one of the names up to case.** -/
theorem hasPath_iff_of_flat {s : Schema α} (hflat : s.Flat) {entry : String} (htrim : Text.trim entry = entry) :
    s.hasPath entry ↔ ∃ name ∈ s.names, Text.sameName name entry := by
  unfold hasPath canonicalPath
  by_cases hdot : '.' ∈ entry.toList
  · obtain ⟨a, b, rest, hpieces⟩ := Text.exists_pieces_eq_cons_cons (p := (· == '.')) rfl hdot
    have hnone : Field.resolve s.fields (Text.split '.' entry) = none := by
      unfold Text.split
      rw [hpieces]
      exact resolve_of_flat hflat ..
    rw [hnone]
    constructor
    · intro h
      cases h
    · rintro ⟨name, hname, hsame⟩
      obtain ⟨f, hf, rfl⟩ := List.mem_map.mp hname
      exact absurd (Text.mem_of_sameName hsame (by decide) rfl hdot) (hflat f hf).2
  · have hresolve : (Field.resolve s.fields (Text.split '.' entry)).isSome =
        (s.fields.find? fun f => Text.sameName f.name entry).isSome := by
      rw [Text.split_eq_singleton hdot, Field.resolve, htrim]
      unfold Field.find?
      cases s.fields.find? fun f => Text.sameName f.name entry <;> rfl
    rw [hresolve, List.find?_isSome]
    constructor
    · rintro ⟨f, hf, hsame⟩
      exact ⟨f.name, List.mem_map_of_mem hf, hsame⟩
    · rintro ⟨name, hname, hsame⟩
      obtain ⟨f, hf, rfl⟩ := List.mem_map.mp hname
      exact ⟨f, hf, hsame⟩

end Schema

end HypermediaApi

import HypermediaApi.Proofs.Json.Numerals
import HypermediaApi.Proofs.Json.Tokens

/-!
# HypermediaApi.Proofs.Json.Documents — a written value reads back

The text of a value writes one document, which follows the value constructor by constructor (`Json.tree`). Numbers are
left to their own texts: of an integer that is its numeral. The values that come back from their documents unchanged are
those without binary64 numbers that do not nest too deep (`Json.Fits`). For them `read?_render` gives the document of the
text, from which every structure of the library is read, and `value_of_render` the value itself.
-/

namespace HypermediaApi.Json

/-! ### Documents of values -/

mutual

/-- The document that the text of a value writes. -/
def tree : Json → Tree
  | .null => .null
  | .bool b => .bool b
  | .number n => ((Numeral.read? (numberText n)).map Tree.number).getD .null
  | .string s => .text (escape s)
  | .array items => .array (itemTrees items)
  | .object members => .object (memberTrees members)

/-- The documents of the items of an array. -/
def itemTrees : List Json → List Tree
  | [] => []
  | v :: r => v.tree :: itemTrees r

/-- The documents of the members of an object, under their written keys. -/
def memberTrees : List (String × Json) → List (List Char × Tree)
  | [] => []
  | (k, v) :: r => (escape k, v.tree) :: memberTrees r

end

theorem tree_int (n : Int) : (int n).tree = .number (.ofInt n) := by
  unfold int tree numberText
  rw [Numeral.read?_intText, Option.map_some, Option.getD_some]

theorem tree_string (s : String) : (string s).tree = .text (escape s) := rfl

/-- A value without binary64 numbers whose integers have 64 bits and whose arrays and objects nest at most so deep. -/
inductive Fits : Nat → Json → Prop where
  | null {room : Nat} : Fits room .null
  | bool {room : Nat} (b : Bool) : Fits room (.bool b)
  | int {room : Nat} {n : Int} (h : IsExactInt n) : Fits room (.int n)
  | string {room : Nat} (s : String) : Fits room (.string s)
  | array {room : Nat} {items : List Json} (h : ∀ v ∈ items, Fits room v) : Fits (room + 1) (.array items)
  | object {room : Nat} {members : List (String × Json)} (h : ∀ m ∈ members, Fits room m.2) :
      Fits (room + 1) (.object members)

/-- More room does no harm. -/
theorem Fits.mono {room room' : Nat} {v : Json} (h : Fits room v) (hle : room ≤ room') : Fits room' v := by
  induction h generalizing room' with
  | null => exact .null
  | bool b => exact .bool b
  | int hexact => exact .int hexact
  | string s => exact .string s
  | array _ ih =>
    obtain ⟨room', rfl⟩ : ∃ n, room' = n + 1 := ⟨room' - 1, by omega⟩
    exact .array fun v hv => ih v hv (by omega)
  | object _ ih =>
    obtain ⟨room', rfl⟩ : ∃ n, room' = n + 1 := ⟨room' - 1, by omega⟩
    exact .object fun m hm => ih m hm (by omega)

/-! ### From the text to the document -/

theorem endsWord_itemsRest (items : List Json) : EndsWord (itemsRest items) := by
  cases items with
  | nil => exact fun _ h => nomatch h
  | cons v r =>
    rintro c ⟨⟩
    rfl

theorem endsWord_membersRest (members : List (String × Json)) : EndsWord (membersRest members) := by
  cases members with
  | nil => exact fun _ h => nomatch h
  | cons m r =>
    rintro c ⟨⟩
    rfl

theorem lexes_stringText (s : String) : Lexes (stringText s) [.text (escape s)] :=
  fun done r _ => tokensFrom?_stringText s done r

theorem lexes_intText (n : Int) : Lexes (intText n) [.number (.ofInt n)] := by
  obtain ⟨c, r, htext, -⟩ := intText_shape n
  have hchars : (c :: r).all isWordChar = true := List.all_eq_true.mpr (htext ▸ fun x hx => isWordChar_of_mem_intText hx)
  have hword : wordToken? (c :: r) = some (.number (.ofInt n)) := htext ▸ wordToken?_intText n
  rw [htext]
  exact Lexes.word hchars hword

theorem lexes_itemsRest {items : List Json} (h : ∀ v ∈ items, Lexes (text v) v.tree.tokens) :
    Lexes (itemsRest items) (itemsTokens (itemTrees items)) := by
  induction items with
  | nil => exact .nil
  | cons v r ih =>
    obtain ⟨hv, hrest⟩ := List.forall_mem_cons.mp h
    exact .punctuation rfl (hv.append (endsWord_itemsRest r) (ih hrest))

/-- A member is read as its key, a colon and its value. -/
theorem lexes_member (k : String) {cs : List Char} {ts : List Token} (h : Lexes cs ts) :
    Lexes (stringText k ++ ':' :: cs) (.text (escape k) :: .colon :: ts) := by
  have hcolon : EndsWord (':' :: cs) := by
    rintro c ⟨⟩
    rfl
  exact (lexes_stringText k).append hcolon (.punctuation rfl h)

theorem lexes_membersRest {members : List (String × Json)} (h : ∀ m ∈ members, Lexes (text m.2) m.2.tree.tokens) :
    Lexes (membersRest members) (membersTokens (memberTrees members)) := by
  induction members with
  | nil => exact .nil
  | cons m r ih =>
    obtain ⟨k, v⟩ := m
    obtain ⟨hv, hrest⟩ := List.forall_mem_cons.mp h
    exact .punctuation rfl (lexes_member k (hv.append (endsWord_membersRest r) (ih hrest)))

/-- **The text of a value is read as the tokens of its document.** -/
theorem Fits.lexes {room : Nat} {v : Json} (h : Fits room v) : Lexes (text v) v.tree.tokens := by
  induction h with
  | null => exact Lexes.word rfl rfl
  | bool b => cases b <;> exact Lexes.word rfl rfl
  | @int _ n hexact =>
    rw [tree_int]
    exact lexes_intText n
  | string s => exact lexes_stringText s
  | @array _ items _ ih =>
    cases items with
    | nil => exact .punctuation rfl (.punctuation rfl .nil)
    | cons v r =>
      obtain ⟨hv, hrest⟩ := List.forall_mem_cons.mp ih
      have hclose : Lexes [']'] [.closeArray] := .punctuation rfl .nil
      have hend : EndsWord [']'] := by
        rintro c ⟨⟩
        rfl
      have hbody := hv.append ((endsWord_itemsRest r).append hend) ((lexes_itemsRest hrest).append hend hclose)
      rw [text, itemsText, List.append_assoc]
      exact .punctuation rfl hbody
  | @object _ members _ ih =>
    cases members with
    | nil => exact .punctuation rfl (.punctuation rfl .nil)
    | cons m r =>
      obtain ⟨k, v⟩ := m
      obtain ⟨hv, hrest⟩ := List.forall_mem_cons.mp ih
      have hclose : Lexes ['\x7d'] [.closeObject] := .punctuation rfl .nil
      have hend : EndsWord ['\x7d'] := by
        rintro c ⟨⟩
        rfl
      have hbody := hv.append ((endsWord_membersRest r).append hend) ((lexes_membersRest hrest).append hend hclose)
      rw [text, membersText, List.append_assoc, List.cons_append, List.append_assoc]
      exact .punctuation rfl (lexes_member k hbody)

/-- **The text of a value writes its document.** -/
theorem Fits.read?_render {room : Nat} {v : Json} (h : Fits room v) : Tree.read? v.render = some v.tree := by
  refine Tree.read?_of_tokens ?_
  have hlexed := h.lexes [] [] (fun _ h => nomatch h)
  rw [List.append_nil, List.append_nil] at hlexed
  rw [render, String.toList_ofList, tokens?, hlexed, tokensFrom?, List.reverse_reverse]

/-! ### From the document to the value -/

theorem itemsToJson?_itemTrees {room : Nat} {items : List Json} (h : ∀ v ∈ items, v.tree.toJson? room = some v) :
    itemsToJson? room (itemTrees items) = some items := by
  induction items with
  | nil => rfl
  | cons v r ih =>
    obtain ⟨hv, hrest⟩ := List.forall_mem_cons.mp h
    rw [itemTrees, itemsToJson?, hv, ih hrest]
    rfl

theorem membersToJson?_memberTrees {room : Nat} {members : List (String × Json)}
    (h : ∀ m ∈ members, m.2.tree.toJson? room = some m.2) : membersToJson? room (memberTrees members) = some members := by
  induction members with
  | nil => rfl
  | cons m r ih =>
    obtain ⟨k, v⟩ := m
    obtain ⟨hv, hrest⟩ := List.forall_mem_cons.mp h
    rw [memberTrees, membersToJson?, unescape?_escape, hv, ih hrest]
    simp

/-- **The document of a value denotes that value.** -/
theorem Fits.toJson?_tree {room : Nat} {v : Json} (h : Fits room v) : v.tree.toJson? room = some v := by
  induction h with
  | null => rfl
  | bool b => rfl
  | int hexact =>
    rw [tree_int, Tree.toJson?, Numeral.toNumber?_ofInt hexact]
    rfl
  | string s =>
    rw [tree_string, Tree.toJson?, unescape?_escape, Option.map_some, String.ofList_toList]
  | array _ ih => rw [tree, Tree.toJson?, itemsToJson?_itemTrees ih, Option.map_some]
  | object _ ih => rw [tree, Tree.toJson?, membersToJson?_memberTrees ih, Option.map_some]

/-- **What was written reads back as itself.** -/
theorem value_of_render {v : Json} (h : Fits nestingLimit v) : read? v.render = some v := by
  rw [read?, h.read?_render, Option.bind_some, Tree.value?, h.toJson?_tree]

end HypermediaApi.Json

import HypermediaApi.Api.Answer
import HypermediaApi.Proofs.Json.Structures

/-!
# HypermediaApi.Proofs.Page.Header — the page header arrives

The figures of a page and the links to its neighbours travel as JSON text in a header. That text always reads back as the
same header (`PageHeader.ofTree?_tree`). Whether it can be sent is another matter, since a header value refuses control
characters and U+007F: the control characters of a link are escaped in the text, and so are its quotes and
backslashes, but U+007F is not. So a link with that character, and nothing else, keeps a page from being answered
(`isHeaderText_text`).
-/

namespace HypermediaApi

/-! ### The characters of a written object -/

namespace Json

theorem all_membersRest {p : Char → Bool} (hcomma : p ',' = true) (hcolon : p ':' = true) (members : List (String × Json)) :
    (membersRest members).all p = members.all fun m => (stringText m.1).all p && (text m.2).all p := by
  induction members with
  | nil => rfl
  | cons m r ih =>
    obtain ⟨k, v⟩ := m
    rw [membersRest, List.all_cons, List.all_append, List.all_cons, List.all_append, ih, hcomma, hcolon, List.all_cons,
      Bool.true_and, Bool.true_and, Bool.and_assoc]

/-- Commas and colons apart, a written object consists of its keys and values. -/
theorem all_membersText {p : Char → Bool} (hcomma : p ',' = true) (hcolon : p ':' = true) (members : List (String × Json)) :
    (membersText members).all p = members.all fun m => (stringText m.1).all p && (text m.2).all p := by
  cases members with
  | nil => rfl
  | cons m r =>
    obtain ⟨k, v⟩ := m
    rw [membersText, List.all_append, List.all_cons, List.all_append, all_membersRest hcomma hcolon, hcolon, List.all_cons,
      Bool.true_and, Bool.and_assoc]

theorem all_isHeaderChar_intText (n : Int) : (intText n).all Http.isHeaderChar = true := by
  have hdigit {c : Char} (hc : c.isDigit = true) : Http.isHeaderChar c = true := by
    obtain ⟨hlow, hhigh⟩ : 0x30 ≤ c.toNat ∧ c.toNat ≤ 0x39 := Char.isDigit_iff_toNat.mp hc
    have hprintable : 0x20 ≤ c.toNat ∧ c.toNat ≠ 0x7F := by omega
    simp [Http.isHeaderChar, hprintable]
  obtain ⟨c, r, htext, hfirst, hrest⟩ := intText_shape n
  rw [htext, List.all_cons, Bool.and_eq_true, List.all_eq_true]
  refine ⟨?_, fun d hd => hdigit (hrest d hd)⟩
  rcases hfirst with hc | rfl
  · exact hdigit hc
  · decide

end Json

namespace PageHeader

/-- The links of a header. -/
def links (h : PageHeader) : List String := h.previous.toList ++ h.next.toList

/-- **The header that was written is read.** -/
theorem ofTree?_tree (h : PageHeader) : ofTree? h.toJson.tree = some h := by
  obtain ⟨size, index, total, pageCount, previous, next⟩ := h
  unfold ofTree? toJson
  rw [Json.fields?_tree (by decide)]
  · cases previous <;> cases next <;>
      simp only [Json.Fields.required, Json.Fields.optional, Json.Fields.withDefault, Json.writtenFields, Json.optionalMember,
        List.lookup_cons, List.lookup_nil, List.map_cons, List.map_nil, List.cons_append, List.nil_append, String.reduceBEq, bind, Option.bind,
        Json.int64?_tree, Json.uint64?_tree, Json.nullable?_tree_string]
  · cases previous <;> cases next <;> simp [Json.optionalMember]

theorem fits_toJson (h : PageHeader) : Json.Fits 1 h.toJson := by
  obtain ⟨size, index, total, pageCount, previous, next⟩ := h
  refine .object ?_
  cases previous <;> cases next <;>
    simp [Json.optionalMember, Json.Fits.string, Json.Fits.int, Json.isExactInt_int64, Json.isExactInt_uint64, Json.nat]

/-- **A header can be sent unless one of its links holds U+007F.** -/
theorem isHeaderText_text (h : PageHeader) :
    Http.isHeaderText h.text = true ↔ ∀ link ∈ h.links, '\x7f' ∉ link.toList := by
  obtain ⟨size, index, total, pageCount, previous, next⟩ := h
  have hopen : Http.isHeaderChar '\x7b' = true := by decide
  have hclose : Http.isHeaderChar '\x7d' = true := by decide
  have hkeys : ∀ name ∈ ["pageSize", "pageIndex", "totalItemsCount", "pageCount", "previousPageLink", "nextPageLink"],
      (Json.stringText name).all Http.isHeaderChar = true := by decide
  have hfigure (n : Int) : (Json.text (.int n)).all Http.isHeaderChar = true := Json.all_isHeaderChar_intText n
  have hlink (name : String) (hname : (Json.stringText name).all Http.isHeaderChar = true) (link : Option String) :
      ((Json.optionalMember name link).all fun m =>
        (Json.stringText m.1).all Http.isHeaderChar && (Json.text m.2).all Http.isHeaderChar) = true ↔
        ∀ text ∈ link.toList, '\x7f' ∉ text.toList := by
    cases link with
    | none => simp [Json.optionalMember]
    | some text => simp [Json.optionalMember, hname, Json.text, ← Json.all_isHeaderChar_stringText]
  simp only [List.forall_mem_cons] at hkeys
  obtain ⟨hsizeKey, hindexKey, htotalKey, hcountKey, hpreviousKey, hnextKey, -⟩ := hkeys
  unfold Http.isHeaderText PageHeader.text Json.render toJson links
  rw [String.toList_ofList, Json.text, List.all_cons, List.all_append, Json.all_membersText (by decide) (by decide),
    List.all_append, List.all_append]
  simp only [List.all_cons, List.all_nil, hopen, hclose, hsizeKey, hindexKey, htotalKey, hcountKey, hfigure, Json.nat,
    Bool.true_and, Bool.and_true, Bool.and_eq_true, hlink _ hpreviousKey, hlink _ hnextKey, List.forall_mem_append]

end PageHeader

/-! ### Answering with it -/

/-- **A page is answered with its header, which reads back, unless a link holds U+007F.** In that case, and in no other,
the answer is an internal error without the header. -/
theorem PageAnswer.header_arrives {β : Type} (toJson : β → Json) (a : PageAnswer β) :
    ((∀ link ∈ a.header.links, '\x7f' ∉ link.toList) ∧
      (∃ text, a.toResponse toJson = {
        status := 200
        headers := [("content-type", "application/json"), ("x-pagination", text)]
        body := (toJson a.body).render } ∧
      Json.decode? PageHeader.ofTree? text = some a.header)) ∨
    ((∃ link ∈ a.header.links, '\x7f' ∈ link.toList) ∧
      a.toResponse toJson = (ApiError.internal "failed to parse header value").toResponse ∧
      (a.toResponse toJson).status = 500 ∧ "x-pagination" ∉ (a.toResponse toJson).headers.map Prod.fst) := by
  have hname : PageHeader.headerName.toLower = "x-pagination" := by decide +kernel
  unfold PageAnswer.toResponse
  by_cases hsent : Http.isHeaderText a.header.text = true
  · refine .inl ⟨a.header.isHeaderText_text.mp hsent, a.header.text, ?_, ?_⟩
    · rw [if_pos hsent, hname]
      rfl
    · exact (a.header.fits_toJson.decode?_render _).trans a.header.ofTree?_tree
  · rw [if_neg hsent]
    refine .inr ⟨?_, rfl, rfl, by decide⟩
    rw [PageHeader.isHeaderText_text] at hsent
    simpa only [not_forall, not_not, exists_prop] using hsent

end HypermediaApi

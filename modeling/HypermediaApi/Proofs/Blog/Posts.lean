import HypermediaApi.Blog.Post
import HypermediaApi.Proofs.Link.Carrying
import HypermediaApi.Proofs.Ordering.Sorting
import HypermediaApi.Proofs.Parameters.Query
import HypermediaApi.Proofs.Schema.Paths

/-!
# HypermediaApi.Proofs.Blog.Posts — posts fit what collections ask of entities

What the general theory assumes of entities and filters, shown for posts: the public fields are flat, every
property in the mapping is one to sort by, each of these comparisons is transitive, the identity tells posts
apart, and the filter by title travels through a query unharmed. So the links of a page carry every request for
posts, as they carry every request without a filter (`page_links_carry_request`).

Sorting by a property is a match on its name, once in the mapping and once in the comparison;
`sorts_postMapping` is where the two lists of names meet.
-/

namespace HypermediaApi.Blog

/-! ### Sorting -/

/-- Every property of the mapping is one that posts are compared by. -/
theorem sorts_postMapping : postMapping.Sorts Post := by
  have hnames : ∀ properties ∈ postMapping.table.entries.map Prod.snd, ∀ q ∈ properties,
      q.name ∈ ["title", "body", "author", "last_modified", "id"] := by
    decide
  intro properties hproperties q hq a b
  have hname := hnames properties hproperties q hq
  simp only [List.mem_cons, List.not_mem_nil, or_false] at hname
  rcases hname with h | h | h | h | h <;> rw [h] <;> rfl

theorem compareOptional_eq (a b : Option String) : compareOptional a b = compare a b := by
  cases a <;> cases b <;> rfl

instance : Std.TransOrd Timestamp :=
  inferInstanceAs (Std.TransCmp (compareLex (compareOn Timestamp.seconds) (compareOn Timestamp.nanos)))

instance : LawfulSortable Post where
  transCmp property := by
    -- Each property is compared by the order of its type; by any other name all posts are equal.
    by_cases hid : property = "id"
    · subst hid
      exact inferInstanceAs (Std.TransCmp (compareOn Post.id))
    by_cases htitle : property = "title"
    · subst htitle
      exact inferInstanceAs (Std.TransCmp (compareOn Post.title))
    by_cases hbody : property = "body"
    · subst hbody
      exact inferInstanceAs (Std.TransCmp (compareOn Post.body))
    by_cases hauthor : property = "author"
    · subst hauthor
      exact inferInstanceAs (Std.TransCmp (compareOn Post.author))
    by_cases htime : property = "last_modified"
    · subst htime
      exact inferInstanceAs (Std.TransCmp (compareOn Post.lastModified))
    by_cases hremark : property = "remark"
    · subst hremark
      have hremarks : (fun a b : Post => orderBy "remark" a b) = compareOn Post.remark := by
        funext a b
        exact compareOptional_eq a.remark b.remark
      rw [hremarks]
      infer_instance
    · have hequal : (fun a b : Post => orderBy property a b) = fun _ _ => .eq := by
        funext a b
        simp [orderBy, Sortable.compareBy]
      rw [hequal]
      exact { eq_swap := rfl, isLE_trans := fun _ _ => rfl }

theorem orderBy_id (a b : Post) : orderBy "id" a b = compare a.id b.id := rfl

/-! ### Public fields -/

/-- No public field of a post is nested. -/
theorem flat_schema : PostResource.schema.Flat := by
  intro f hf
  simp only [PostResource.schema, List.mem_cons, List.not_mem_nil, or_false] at hf
  rcases hf with rfl | rfl | rfl | rfl | rfl | rfl <;> exact ⟨⟨_, _, rfl⟩, by decide⟩

/-! ### The filter -/

theorem ne_empty_of_wanted {f : PostFilter} {title : String} (h : f.wanted = some title) : title ≠ "" := by
  obtain ⟨-, hne⟩ := Option.filter_eq_some_iff.mp h
  rintro rfl
  exact absurd hne (by decide)

theorem wanted_of_wanted (f : PostFilter) : ({ title := f.wanted } : PostFilter).wanted = f.wanted := by
  unfold PostFilter.wanted
  simp [Option.filter_filter]

/-- The filter that comes back from a query looks for the wanted title. -/
theorem ofPairs_queryPairs (f : PostFilter) :
    (Filter.ofPairs (Filter.queryPairs f) : PostFilter) = { title := f.wanted } := by
  show PostFilter.mk ((Parameters.optionalPair "title" f.wanted).lookup "title") = PostFilter.mk f.wanted
  rw [Parameters.lookup_optionalPair, if_pos rfl]

instance : LawfulFilter PostFilter where
  plain_of_mem_names := by decide
  mem_names_of_mem_queryPairs f q hq := by
    rw [Parameters.eq_name_of_mem_optionalPair hq]
    decide
  ne_empty_of_mem_queryPairs f q hq := by
    cases hwanted : f.wanted with
    | none =>
      simp [Filter.queryPairs, hwanted, Parameters.optionalPair] at hq
    | some title =>
      obtain rfl : q = ("title", title) := by
        simpa [Filter.queryPairs, hwanted, Parameters.optionalPair] using hq
      exact ne_empty_of_wanted hwanted
  ofPairs_append others own hothers := by
    have hnone : others.lookup "title" = none := by
      rw [List.lookup_eq_none_iff]
      intro q hq
      have hne : "title" ≠ q.1 := fun h => absurd (h ▸ hothers q hq) (by decide)
      simpa using hne
    show PostFilter.mk _ = PostFilter.mk _
    rw [List.lookup_append, hnone, Option.none_or]
  queryPairs_ofPairs f := by
    rw [ofPairs_queryPairs]
    show Parameters.optionalPair "title" (PostFilter.wanted { title := f.wanted }) = _
    rw [wanted_of_wanted]
    rfl

/-- A filter that came back through a query lets the same posts pass. -/
theorem passes_ofPairs (f : PostFilter) :
    (Filter.ofPairs (Filter.queryPairs f) : PostFilter).passes = f.passes := by
  funext post
  unfold PostFilter.passes
  rw [ofPairs_queryPairs, wanted_of_wanted]

/-! ### Links of pages -/

/-- **The links of a page carry everything that was asked for.** A page of a collection at a path without an opening
brace links to itself, to the page before and to the page after, as far as they exist, below the base URL and without
closing slashes in either. Whatever texts a request is made of, the query of each link decodes to the pairs of the
request for that page, and these make a request with the same page size, sort expression and field list that lets the
same entities pass. -/
theorem page_links_carry_request {b : LinkBuilder} {url path : String}
    (hurl : b.table.baseUrl = Text.dropEnd '/' url)
    (hroute : b.table.routes.get? b.routes.collection = some (Text.dropEnd '/' path))
    (hpath : '\x7b' ∉ path.toList) (hasPrevious hasNext : Bool) :
    (∀ p : Parameters NoFilter, p.HasNeighbours hasPrevious hasNext →
      ∃ links, b.forCollection p hasPrevious hasNext = .ok links ∧
        List.Forall₂ (Link.IsToPage Eq url path p) (linkedPages p.pageIndex.toInt hasPrevious hasNext) links) ∧
    ∀ p : Parameters PostFilter, p.HasNeighbours hasPrevious hasNext →
      ∃ links, b.forCollection p hasPrevious hasNext = .ok links ∧
        List.Forall₂ (Link.IsToPage (fun f g => f.passes = g.passes) url path p)
          (linkedPages p.pageIndex.toInt hasPrevious hasNext) links :=
  ⟨fun _ hp => LinkBuilder.forCollection_isToPage (fun _ => rfl) hurl hroute hpath hp,
    fun _ hp => LinkBuilder.forCollection_isToPage passes_ofPairs hurl hroute hpath hp⟩

/-- Texts of reserved characters, a blank field list, and slashes that close the base URL and the path. -/
theorem page_links_carry_request_reserved :
    let b := LinkBuilder.ofMount (.ofBaseUrl "http://localhost:5000//") "post" "/api/posts/"
    let p : Parameters PostFilter := {
      pageIndex := 1
      givenOrderBy := some "title desc, a&b=%+"
      givenFields := some " "
      filter := { title := some "ä?" } }
    b.table.baseUrl = Text.dropEnd '/' "http://localhost:5000//" ∧
    b.table.routes.get? b.routes.collection = some (Text.dropEnd '/' "/api/posts/") ∧
    '\x7b' ∉ "/api/posts/".toList ∧ p.HasNeighbours true true ∧
    ∃ links, b.forCollection p true true = .ok links ∧
      List.Forall₂ (Link.IsToPage (fun f g => f.passes = g.passes) "http://localhost:5000//" "/api/posts/" p)
        [("self", 1), ("previous_page", 0), ("next_page", 2)] links := by
  intro b p
  have hroute := RouteTable.get?_mount_collection (.ofBaseUrl "http://localhost:5000//") "post" "/api/posts/"
  have hpath : '\x7b' ∉ "/api/posts/".toList := by decide
  have hp : p.HasNeighbours true true := ⟨fun _ => by decide, fun _ => by decide⟩
  exact ⟨rfl, hroute, hpath, hp, (page_links_carry_request rfl hroute hpath true true).2 p hp⟩

end HypermediaApi.Blog

import HypermediaApi.Proofs.Link.Cutting
import HypermediaApi.Proofs.Parameters.Query

/-!
# HypermediaApi.Proofs.Link.Leftover — the query of a URI holds what the path does not

Parameters that no placeholder names follow the path of a URI as a query. Names go into it as they stand, so what is
said here is said of names made of characters that stand for themselves; values may be any text.

A client that cuts the query at its separators and decodes names and values finds the parameters again, in order and
with repetitions (`Query.decodedPairs?_queryText`). A parameter is left out of the query only if a placeholder names
it or its value is empty (`RouteTable.leftover_eq_filter`), and without parameters there is no query at all. For a
template that is cut at its braces, `RouteTable.render_carries_leftover` puts both together.
-/

namespace HypermediaApi

/-- The text is made of characters that stand for themselves in every URI component. -/
def Text.IsUnreserved (s : String) : Prop := ∀ c ∈ s.toList, Text.Percent.isUnreserved c = true

instance (s : String) : Decidable (Text.IsUnreserved s) :=
  List.decidableBAll (fun c => Text.Percent.isUnreserved c = true) s.toList

/-! ### Reading a query -/

namespace Query

/-- The pairs of a query string as clients read them: cut at `&`, then at the first `=`, names and values
percent-decoded. -/
def decodedPairs? (query : String) : Option (List (String × String)) :=
  (Text.pieces (· == '&') query.toList).mapM fun part => do
    let (name, value) := cutPart part
    some (← Text.Percent.decode? (.ofList name), ← Text.Percent.decode? (.ofList value))

/-- A text of characters that stand for themselves holds no separator and no number sign. -/
theorem plainName_of_isUnreserved {name : String} (h : Text.IsUnreserved name) : PlainName name := by
  have hnot : ∀ c, Text.Percent.isUnreserved c = false → c ∉ name.toList := by
    intro c hc hmem
    rw [h c hmem] at hc
    cases hc
  exact ⟨hnot '&' rfl, hnot '=' rfl, hnot '#' rfl⟩

/-- A text of characters that stand for themselves decodes to itself. -/
theorem decode?_of_isUnreserved {s : String} (h : Text.IsUnreserved s) : Text.Percent.decode? s = some s := by
  have hdecode := Text.Percent.decode?_encode s
  rwa [Text.Percent.encode_of_unreserved h] at hdecode

/-- **What a query was made of is found in it again**, in order and with repetitions, whatever the values are. -/
theorem decodedPairs?_queryText {ps : List (String × String)} (hne : ps ≠ [])
    (hnames : ∀ p ∈ ps, Text.IsUnreserved p.1) : decodedPairs? (RouteTable.queryText ps) = some ps := by
  obtain ⟨p, rest, rfl⟩ := List.exists_cons_of_ne_nil hne
  unfold decodedPairs?
  rw [pieces_queryText fun q hq => plainName_of_isUnreserved (hnames q hq)]
  refine mapM_map_eq_some fun q hq => ?_
  have hname := hnames q hq
  unfold part
  rw [cutPart_append (plainName_of_isUnreserved hname).2.1]
  simp only [String.ofList_toList, decode?_of_isUnreserved hname, Text.Percent.decode?_encode]
  rfl

end Query

/-! ### What is left over -/

namespace RouteTable

/-- A parameter goes into the query unless a placeholder names it or it is empty. -/
theorem leftover_eq_filter (used : List String) (params : List (String × String)) :
    leftover used params = params.filter fun p => p.1 ∉ used ∧ p.2 ≠ "" := by
  unfold leftover
  congr 1
  funext p
  have hempty : p.2.isEmpty = decide (p.2 = "") := by
    rw [Bool.eq_iff_iff, String.isEmpty_iff, decide_eq_true_iff]
  simp [hempty]

/-- What follows a path holds the parameters: nothing if there are none, and otherwise a question mark and a query
that they are read from. -/
theorem querySuffix_cases {ps : List (String × String)} (hnames : ∀ p ∈ ps, Text.IsUnreserved p.1) :
    ps = [] ∧ querySuffix ps = "" ∨
      ps ≠ [] ∧ ∃ query, querySuffix ps = "?" ++ query ∧ Query.decodedPairs? query = some ps := by
  by_cases hne : ps = []
  · subst hne
    exact .inl ⟨rfl, rfl⟩
  · have hquery : querySuffix ps = "?" ++ queryText ps := if_neg (by simpa using hne)
    exact .inr ⟨hne, queryText ps, hquery, Query.decodedPairs?_queryText hne hnames⟩

/-- **No parameter is lost, repeated or changed when a URI is built.** If a template renders, the URI is the base URL,
the path in which each placeholder is replaced by the first parameter of its name, and what follows it. Nothing does
if no parameter is left over. Otherwise a question mark does and a query, in which clients find exactly the parameters
that no placeholder names and that are not empty, in order and with repetitions. -/
theorem render_carries_leftover {t : RouteTable} {route template uri : String} {params : List (String × String)}
    (hroute : t.routes.get? route = some template) (hnames : ∀ p ∈ params, Text.IsUnreserved p.1)
    (huri : t.render route params = .ok uri) :
    ∃ parts rest values suffix, CutsInto template parts rest ∧ '\x7b' ∉ rest.toList ∧
      Supplies params parts values ∧ uri = t.baseUrl ++ (substituted parts values ++ rest) ++ suffix ∧
      let left := params.filter fun p => p.1 ∉ parts.map Prod.snd ∧ p.2 ≠ ""
      left = [] ∧ suffix = "" ∨
        left ≠ [] ∧ ∃ query, suffix = "?" ++ query ∧ Query.decodedPairs? query = some left := by
  obtain ⟨parts, rest, hcut⟩ := exists_cutsInto template
  rcases render_cases hroute hcut params with ⟨hrest, values, hvalues, hok⟩ | ⟨fault, -, herror⟩
  · refine ⟨parts, rest, values, _, hcut, hrest, hvalues, Except.ok.inj (huri.symm.trans hok), ?_⟩
    intro left
    rw [leftover_eq_filter]
    exact querySuffix_cases fun p hp => hnames p (List.mem_of_mem_filter hp)
  · rw [herror] at huri
    cases huri

/-- Reserved characters in values, a name given twice, an empty value, and a second value for a placeholder. -/
theorem render_carries_leftover_reserved :
    let t := (RouteTable.ofBaseUrl "http://h").add "r" "/a/\x7bx\x7d"
    let params := [("k", "ä&b=c"), ("x", "1"), ("k", ""), ("x", "2"), ("k", "?")]
    t.routes.get? "r" = some "/a/\x7bx\x7d" ∧ (∀ p ∈ params, Text.IsUnreserved p.1) ∧
    t.render "r" params = .ok "http://h/a/1?k=%C3%A4%26b%3Dc&k=%3F" ∧
    ∃ query, "http://h/a/1?k=%C3%A4%26b%3Dc&k=%3F" = "http://h" ++ "/a/1" ++ ("?" ++ query) ∧
      Query.decodedPairs? query = some [("k", "ä&b=c"), ("k", "?")] := by
  intro t params
  have hroute : t.routes.get? "r" = some "/a/\x7bx\x7d" := by decide +kernel
  have hnames : ∀ p ∈ params, Text.IsUnreserved p.1 := by decide
  have huri : t.render "r" params = .ok "http://h/a/1?k=%C3%A4%26b%3Dc&k=%3F" := by decide +kernel
  refine ⟨hroute, hnames, huri, ?_⟩
  have hcut : CutsInto "/a/\x7bx\x7d" [("/a/", "x")] "" := by
    rw [show "/a/\x7bx\x7d" = "/a/" ++ "\x7b" ++ ("x" ++ "\x7d" ++ "") from by decide +kernel]
    exact .placeholder (by decide) (by decide) (.closed (by decide))
  obtain ⟨parts, rest, values, suffix, hcut', -, hvalues, heq, hleft⟩ :=
    render_carries_leftover hroute hnames huri
  obtain ⟨rfl, rfl⟩ := hcut.unique hcut'
  rcases hvalues with _ | ⟨hx, _ | _⟩
  obtain rfl := Option.some.inj hx
  rcases hleft with ⟨hnone, -⟩ | ⟨-, query, rfl, hquery⟩
  · exact absurd hnone (by decide)
  · exact ⟨query, heq, hquery⟩

end RouteTable

end HypermediaApi

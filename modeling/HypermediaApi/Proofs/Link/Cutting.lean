import HypermediaApi.Link.Basic
import HypermediaApi.Proofs.Link.Template
import HypermediaApi.Proofs.Text.Percent
import Mathlib.Data.List.Forall2

/-!
# HypermediaApi.Proofs.Link.Cutting — templates cut at their braces

What a template asks for is said without its scan. Cut from left to right, at each opening brace and at the first
closing brace after it, a template falls apart into parts, each a text and the name of a placeholder, and what is left
behind the last of them (`CutsInto`). There is always such a cut (`exists_cutsInto`), by induction on the length of the
template, and only one (`CutsInto.unique`), because a text that holds a character has one first place where it does.

The scan follows the cut (`TemplatePiece.ofTemplate_of_cutsInto`), so rendering goes through the parts and ends at the
first placeholder without a parameter, or at the brace that is left open. Either the template renders or it has a
leftmost fault (`RouteTable.render_cases`), and in both cases the outcome is known; `LinkBuilder.uri_of_template` puts
this together with what is known of encoded values.
-/

namespace HypermediaApi

/-! ### Cutting templates -/

/-- The template falls apart into the parts, each a text and the name of the placeholder behind it, and a rest. The
rest has no opening brace, or one that never closes. -/
inductive CutsInto : String → List (String × String) → String → Prop where
  | closed {rest : String} (hrest : '\x7b' ∉ rest.toList) : CutsInto rest [] rest
  | unterminated {text tail : String} (htext : '\x7b' ∉ text.toList) (htail : '\x7d' ∉ tail.toList) :
      CutsInto (text ++ "\x7b" ++ tail) [] (text ++ "\x7b" ++ tail)
  | placeholder {text name remainder rest : String} {parts : List (String × String)}
      (htext : '\x7b' ∉ text.toList) (hname : '\x7d' ∉ name.toList) (h : CutsInto remainder parts rest) :
      CutsInto (text ++ "\x7b" ++ (name ++ "\x7d" ++ remainder)) ((text, name) :: parts) rest

/-- A text that holds a character falls apart at the first place where it does. -/
theorem exists_cut_of_mem {c : Char} {s : String} (h : c ∈ s.toList) :
    ∃ before after, s = before ++ String.singleton c ++ after ∧ c ∉ before.toList := by
  obtain ⟨before, after, hsplit, hbefore⟩ := List.eq_append_cons_of_mem h
  refine ⟨.ofList before, .ofList after, ?_, by simpa using hbefore⟩
  rw [← String.toList_inj, hsplit]
  simp

/-- There is only one first place where a text holds a character. -/
theorem cut_inj {c : Char} {a b a' b' : String} (h : c ∉ a.toList) (h' : c ∉ a'.toList)
    (heq : a ++ String.singleton c ++ b = a' ++ String.singleton c ++ b') : a = a' ∧ b = b' := by
  have hfront : ∀ (s r : String), c ∉ s.toList →
      (s ++ String.singleton c ++ r).toList.takeWhile (· ≠ c) = s.toList := by
    intro s r hs
    rw [String.append_assoc, String.toList_append, List.takeWhile_append_of_pos (Text.forall_ne_of_not_mem hs)]
    simp
  obtain rfl : a = a' := by
    rw [← String.toList_inj, ← hfront a b h, heq, hfront a' b' h']
  exact ⟨rfl, by simpa using heq⟩

/-- **Every template falls apart.** What is behind a placeholder is shorter than the template. -/
theorem exists_cutsInto (template : String) : ∃ parts rest, CutsInto template parts rest := by
  induction hlength : template.toList.length using Nat.strongRecOn generalizing template with
  | ind length ih =>
    by_cases hopen : '\x7b' ∈ template.toList
    · obtain ⟨text, tail, rfl, htext⟩ := exists_cut_of_mem hopen
      by_cases hclose : '\x7d' ∈ tail.toList
      · obtain ⟨name, remainder, rfl, hname⟩ := exists_cut_of_mem hclose
        have hshorter : remainder.toList.length < length := by
          rw [← hlength]
          simp only [String.toList_append, List.length_append, String.toList_singleton, List.length_singleton]
          omega
        obtain ⟨parts, rest, h⟩ := ih _ hshorter remainder rfl
        exact ⟨(text, name) :: parts, rest, .placeholder htext hname h⟩
      · exact ⟨[], _, .unterminated htext hclose⟩
    · exact ⟨[], template, .closed hopen⟩

theorem mem_openingBrace (text tail : String) : '\x7b' ∈ (text ++ "\x7b" ++ tail).toList := by simp

/-- **A template falls apart in one way only.** -/
theorem CutsInto.unique {template : String} {parts parts' : List (String × String)} {rest rest' : String}
    (h : CutsInto template parts rest) (h' : CutsInto template parts' rest') : parts' = parts ∧ rest' = rest := by
  induction h generalizing parts' rest' with
  | closed hrest =>
    cases h' with
    | closed => exact ⟨rfl, rfl⟩
    | unterminated => exact absurd (mem_openingBrace _ _) hrest
    | placeholder => exact absurd (mem_openingBrace _ _) hrest
  | @unterminated text tail htext htail =>
    generalize htemplate : text ++ "\x7b" ++ tail = template at h'
    cases h' with
    | closed hrest => exact absurd (htemplate ▸ mem_openingBrace text tail) hrest
    | unterminated => exact ⟨rfl, rfl⟩
    | placeholder htext' hname' =>
      obtain ⟨-, rfl⟩ := cut_inj (c := '\x7b') htext htext' htemplate
      exact absurd (by simp) htail
  | @placeholder text name remainder rest parts htext hname _ ih =>
    generalize htemplate : text ++ "\x7b" ++ (name ++ "\x7d" ++ remainder) = template at h'
    cases h' with
    | closed hrest => exact absurd (htemplate ▸ mem_openingBrace text _) hrest
    | unterminated htext' htail' =>
      obtain ⟨-, rfl⟩ := cut_inj (c := '\x7b') htext htext' htemplate
      exact absurd (by simp) htail'
    | placeholder htext' hname' h' =>
      obtain ⟨rfl, htail⟩ := cut_inj (c := '\x7b') htext htext' htemplate
      obtain ⟨rfl, rfl⟩ := cut_inj (c := '\x7d') hname hname' htail
      obtain ⟨rfl, rfl⟩ := ih h'
      exact ⟨rfl, rfl⟩

namespace TemplatePiece

variable {template rest : String} {parts : List (String × String)}

/-! ### The pieces of the parts -/

/-- The pieces of a text and of the placeholder behind it. -/
def ofPart (part : String × String) : List TemplatePiece := part.1.toList.map .literal ++ [.placeholder part.2]

/-- The scan of a template goes through its parts, one after the other. -/
theorem ofTemplate_of_cutsInto (h : CutsInto template parts rest) :
    ofTemplate template = parts.flatMap ofPart ++ ofTemplate rest := by
  induction h with
  | closed | unterminated => rfl
  | placeholder htext hname _ ih =>
    rw [ofTemplate_append_placeholder htext hname, ih, List.flatMap_cons, List.append_assoc]
    simp [ofPart]

/-- What is left holds no placeholder. -/
theorem names_rest (h : CutsInto template parts rest) : names (ofTemplate rest) = [] := by
  induction h with
  | @closed rest hrest =>
    rw [ofTemplate_of_literal hrest, ← List.append_nil (rest.toList.map _), names_literals]
    rfl
  | unterminated htext htail =>
    rw [ofTemplate_of_unterminated htext htail, names_literals]
    rfl
  | placeholder _ _ _ ih => exact ih

theorem names_parts (parts : List (String × String)) (ps : List TemplatePiece) :
    names (parts.flatMap ofPart ++ ps) = parts.map Prod.snd ++ names ps := by
  induction parts with
  | nil => rfl
  | cons part rest ih =>
    obtain ⟨text, name⟩ := part
    simp only [List.flatMap_cons, ofPart, List.append_assoc, names_literals, List.cons_append, List.nil_append, names,
      ih, List.map_cons]

end TemplatePiece

namespace RouteTable

open TemplatePiece

variable {template rest route : String} {parts : List (String × String)} {params : List (String × String)}

/-! ### Rendering the parts -/

/-- The path that texts make with the encoded values of the placeholders behind them. -/
def substituted (parts : List (String × String)) (values : List String) : String :=
  String.join (List.zipWith (fun part value => part.1 ++ Text.Percent.encode value) parts values)

/-- The values are the first ones of the parameters that the placeholders name, one by one. -/
def Supplies (params parts : List (String × String)) (values : List String) : Prop :=
  List.Forall₂ (fun part value => params.lookup part.2 = some value) parts values

theorem mem_keys_iff {name : String} : name ∈ params.map Prod.fst ↔ ∃ value, params.lookup name = some value := by
  rw [← Option.ne_none_iff_exists', ne_eq, OrderedMap.lookup_eq_none_iff, not_not]

/-- There are values for all placeholders exactly if all are names of parameters. -/
theorem exists_supplies_iff :
    (∃ values, Supplies params parts values) ↔ ∀ part ∈ parts, part.2 ∈ params.map Prod.fst := by
  induction parts with
  | nil => exact ⟨fun _ => by simp, fun _ => ⟨[], .nil⟩⟩
  | cons part parts ih =>
    rw [List.forall_mem_cons, ← ih, mem_keys_iff]
    constructor
    · rintro ⟨_, _ | ⟨hvalue, hvalues⟩⟩
      exact ⟨⟨_, hvalue⟩, _, hvalues⟩
    · rintro ⟨⟨value, hvalue⟩, values, hvalues⟩
      exact ⟨value :: values, .cons hvalue hvalues⟩

/-- Parts whose placeholders are supplied are rendered to the texts with the encoded values between them. -/
theorem renderPieces_parts {values : List String} (h : Supplies params parts values) (ps : List TemplatePiece) :
    renderPieces route template params (parts.flatMap ofPart ++ ps) =
      (renderPieces route template params ps).map ((substituted parts values).toList ++ ·) := by
  induction h with
  | nil =>
    cases h : renderPieces route template params ps <;> simp [h, Except.map, substituted]
  | @cons part value parts values hvalue _ ih =>
    obtain ⟨text, name⟩ := part
    rw [List.flatMap_cons, List.append_assoc, ofPart, List.append_assoc, renderPieces_literals, List.singleton_append,
      renderPieces, hvalue, ih]
    cases renderPieces route template params ps with
    | error => rfl
    | ok path => simp [Except.map, substituted, Text.Percent.encode]

/-- What is left is text, unless a brace in it never closes. -/
theorem renderPieces_rest (h : CutsInto template parts rest) (whole : String) :
    renderPieces route whole params (ofTemplate rest) =
      if '\x7b' ∈ rest.toList then .error (.unterminated whole) else .ok rest.toList := by
  induction h with
  | @closed rest hrest =>
    rw [ofTemplate_of_literal hrest, ← List.append_nil (rest.toList.map _), renderPieces_literals, if_neg hrest]
    simp [renderPieces, Except.map]
  | @unterminated text tail htext htail =>
    rw [ofTemplate_of_unterminated htext htail, renderPieces_literals, if_pos (mem_openingBrace text tail)]
    rfl
  | placeholder _ _ _ ih => exact ih

section Render

variable {t : RouteTable} (hroute : t.routes.get? route = some template) (h : CutsInto template parts rest)

include hroute h

/-- **A template whose placeholders are all closed and supplied renders** to its texts with the encoded values between
them, and the parameters that are left over as the query. -/
theorem render_of_supplies (hrest : '\x7b' ∉ rest.toList) {values : List String}
    (hvalues : Supplies params parts values) :
    t.render route params = .ok (t.baseUrl ++ (substituted parts values ++ rest) ++
      querySuffix (leftover (parts.map Prod.snd) params)) := by
  have hnames : names (parts.flatMap ofPart ++ ofTemplate rest) = parts.map Prod.snd := by
    rw [names_parts, names_rest h, List.append_nil]
  have hpath : renderPieces route template params (parts.flatMap ofPart ++ ofTemplate rest) =
      .ok (substituted parts values ++ rest).toList := by
    rw [renderPieces_parts hvalues, renderPieces_rest h, if_neg hrest, String.toList_append]
    rfl
  unfold render
  rw [hroute]
  simp only [ofTemplate_of_cutsInto h, hpath, hnames]
  simp [Except.map, querySuffix]

/-- A template with a brace that never closes is refused if nothing before it is. -/
theorem render_of_unterminated (hrest : '\x7b' ∈ rest.toList) {values : List String}
    (hvalues : Supplies params parts values) : t.render route params = .error (.unterminated template) := by
  have hpath : renderPieces route template params (parts.flatMap ofPart ++ ofTemplate rest) =
      .error (.unterminated template) := by
    rw [renderPieces_parts hvalues, renderPieces_rest h, if_pos hrest]
    rfl
  unfold render
  rw [hroute]
  simp only [ofTemplate_of_cutsInto h, hpath]
  rfl

/-- A template is refused for its first placeholder that is not supplied, whatever follows. -/
theorem render_of_missing {before after : List (String × String)} {text name : String}
    (hsplit : parts = before ++ (text, name) :: after) {values : List String}
    (hvalues : Supplies params before values) (hname : params.lookup name = none) :
    t.render route params = .error (.missingValue name route) := by
  have hpath : renderPieces route template params (parts.flatMap ofPart ++ ofTemplate rest) =
      .error (.missingValue name route) := by
    rw [hsplit, List.flatMap_append, List.flatMap_cons, List.append_assoc, renderPieces_parts hvalues, ofPart,
      List.append_assoc, List.append_assoc, renderPieces_literals, List.singleton_append, renderPieces, hname]
    rfl
  unfold render
  rw [hroute]
  simp only [ofTemplate_of_cutsInto h, hpath]
  rfl

end Render

/-! ### The leftmost fault -/

/-- The leftmost fault of a template that is cut into the parts: a placeholder that is not supplied, with all before it
supplied, or a brace that never closes, with all placeholders supplied. -/
inductive LeftmostFault (route template : String) (params parts : List (String × String)) (rest : String) :
    RouteFault → Prop where
  | missing {before after : List (String × String)} {text name : String}
      (hsplit : parts = before ++ (text, name) :: after) (hbefore : ∀ part ∈ before, part.2 ∈ params.map Prod.fst)
      (hname : name ∉ params.map Prod.fst) :
      LeftmostFault route template params parts rest (.missingValue name route)
  | unterminated (hparts : ∀ part ∈ parts, part.2 ∈ params.map Prod.fst) (hrest : '\x7b' ∈ rest.toList) :
      LeftmostFault route template params parts rest (.unterminated template)

/-- All placeholders are supplied, or there is a first one that is not. -/
theorem supplied_or_exists_missing (params parts : List (String × String)) :
    (∀ part ∈ parts, part.2 ∈ params.map Prod.fst) ∨
      ∃ before text name after, parts = before ++ (text, name) :: after ∧
        (∀ part ∈ before, part.2 ∈ params.map Prod.fst) ∧ name ∉ params.map Prod.fst := by
  induction parts with
  | nil => exact .inl (by simp)
  | cons part parts ih =>
    obtain ⟨text, name⟩ := part
    by_cases hname : name ∈ params.map Prod.fst
    · rcases ih with hparts | ⟨before, text', name', after, rfl, hbefore, hname'⟩
      · exact .inl (List.forall_mem_cons.mpr ⟨hname, hparts⟩)
      · have hbefore' : ∀ part ∈ (text, name) :: before, part.2 ∈ params.map Prod.fst :=
          List.forall_mem_cons.mpr ⟨hname, hbefore⟩
        exact .inr ⟨(text, name) :: before, text', name', after, rfl, hbefore', hname'⟩
    · exact .inr ⟨[], text, name, parts, rfl, by simp, hname⟩

section Outcome

variable {t : RouteTable} (hroute : t.routes.get? route = some template) (h : CutsInto template parts rest)

include hroute h

/-- **A template with a fault is refused for its leftmost one.** -/
theorem render_of_leftmostFault {fault : RouteFault} (hfault : LeftmostFault route template params parts rest fault) :
    t.render route params = .error fault := by
  cases hfault with
  | missing hsplit hbefore hname =>
    obtain ⟨values, hvalues⟩ := exists_supplies_iff.mpr hbefore
    exact render_of_missing hroute h hsplit hvalues (OrderedMap.lookup_eq_none_iff.mpr hname)
  | unterminated hparts hrest =>
    obtain ⟨values, hvalues⟩ := exists_supplies_iff.mpr hparts
    exact render_of_unterminated hroute h hrest hvalues

/-- A template renders, or has a leftmost fault. -/
theorem render_cases (params : List (String × String)) :
    ('\x7b' ∉ rest.toList ∧ ∃ values, Supplies params parts values ∧
      t.render route params = .ok (t.baseUrl ++ (substituted parts values ++ rest) ++
        querySuffix (leftover (parts.map Prod.snd) params))) ∨
    ∃ fault, LeftmostFault route template params parts rest fault ∧ t.render route params = .error fault := by
  rcases supplied_or_exists_missing params parts with hparts | ⟨before, text, name, after, hsplit, hbefore, hname⟩
  · by_cases hrest : '\x7b' ∈ rest.toList
    · have hfault : LeftmostFault route template params parts rest _ := .unterminated hparts hrest
      exact .inr ⟨_, hfault, render_of_leftmostFault hroute h hfault⟩
    · obtain ⟨values, hvalues⟩ := exists_supplies_iff.mpr hparts
      exact .inl ⟨hrest, values, hvalues, render_of_supplies hroute h hrest hvalues⟩
  · have hfault : LeftmostFault route template params parts rest _ := .missing hsplit hbefore hname
    exact .inr ⟨_, hfault, render_of_leftmostFault hroute h hfault⟩

end Outcome

end RouteTable

namespace LinkBuilder

open RouteTable

variable {b : LinkBuilder} {route : String} {params : List (String × String)}

theorem uri_eq_ok_iff {uri : String} : b.uri route params = .ok uri ↔ b.table.render route params = .ok uri := by
  unfold LinkBuilder.uri
  cases b.table.render route params <;> simp [Except.mapError]

theorem uri_eq_error_iff {failure : Failure} :
    b.uri route params = .error failure ↔
      ∃ fault, b.table.render route params = .error fault ∧ failure = .route fault.message := by
  unfold LinkBuilder.uri
  cases b.table.render route params <;> simp [Except.mapError, eq_comm]

section Template

variable {template rest : String} {parts : List (String × String)}
  (hroute : b.table.routes.get? route = some template) (h : CutsInto template parts rest)

include hroute h

/-- A template renders exactly if no brace is left open and all placeholders are supplied. -/
theorem exists_uri_iff :
    (∃ uri, b.uri route params = .ok uri) ↔ '\x7b' ∉ rest.toList ∧ ∀ part ∈ parts, part.2 ∈ params.map Prod.fst := by
  simp only [uri_eq_ok_iff]
  constructor
  · rintro ⟨uri, huri⟩
    rcases render_cases hroute h params with ⟨hrest, values, hvalues, -⟩ | ⟨fault, -, herror⟩
    · exact ⟨hrest, exists_supplies_iff.mp ⟨values, hvalues⟩⟩
    · rw [herror] at huri
      cases huri
  · rintro ⟨hrest, hparts⟩
    obtain ⟨values, hvalues⟩ := exists_supplies_iff.mpr hparts
    exact ⟨_, render_of_supplies hroute h hrest hvalues⟩

/-- A template that is refused is refused for its leftmost fault. -/
theorem uri_eq_error_iff_leftmostFault {failure : Failure} :
    b.uri route params = .error failure ↔
      ∃ fault, LeftmostFault route template params parts rest fault ∧ failure = .route fault.message := by
  rw [uri_eq_error_iff]
  constructor
  · rintro ⟨fault, herror, rfl⟩
    rcases render_cases hroute h params with ⟨-, values, -, hok⟩ | ⟨fault', hfault, herror'⟩
    · rw [hok] at herror
      cases herror
    · obtain rfl : fault' = fault := Except.error.inj (herror'.symm.trans herror)
      exact ⟨fault', hfault, rfl⟩
  · rintro ⟨fault, hfault, rfl⟩
    exact ⟨fault, render_of_leftmostFault hroute h hfault, rfl⟩

/-- The URI of a template that renders has the encoded values in the places of the placeholders. -/
theorem exists_supplies_of_uri {uri : String} (huri : b.uri route params = .ok uri) :
    ∃ values, Supplies params parts values ∧
      uri = b.table.baseUrl ++ (substituted parts values ++ rest) ++
        querySuffix (leftover (parts.map Prod.snd) params) := by
  rw [uri_eq_ok_iff] at huri
  rcases render_cases hroute h params with ⟨-, values, hvalues, hok⟩ | ⟨fault, -, herror⟩
  · exact ⟨values, hvalues, Except.ok.inj (huri.symm.trans hok)⟩
  · rw [herror] at huri
    cases huri

end Template

/-- No character that separates parts of a URI or opens a placeholder stands in an encoded value. -/
theorem not_mem_encode_of_separator {c : Char} (hc : c ∈ ['/', '?', '#', '&', '\x7b']) (value : String) :
    c ∉ (Text.Percent.encode value).toList := by
  have hreserved : Text.Percent.isUnreserved c = false ∧ c ≠ '%' := by
    simp only [List.mem_cons, List.not_mem_nil, or_false] at hc
    rcases hc with rfl | rfl | rfl | rfl | rfl <;> exact ⟨rfl, by decide⟩
  exact Text.Percent.not_mem_encode hreserved.1 hreserved.2 value

/-- **Rendering replaces each placeholder once and nothing else.** A template falls apart in one way only: cut from
left to right, at each opening brace and the first closing brace after it. It renders exactly if no brace is left open
and all placeholders are names of parameters, and is refused for its leftmost fault otherwise. The path consists of
the texts as they stand, with the first parameter of the name in the place of each placeholder, encoded. Such a value
consists of characters that stand for themselves and of triplets, denotes the parameter, and holds no character that
separates parts of a URI or opens a placeholder. -/
theorem uri_of_template (b : LinkBuilder) {route template : String}
    (hroute : b.table.routes.get? route = some template) (params : List (String × String)) :
    ∃ parts rest, CutsInto template parts rest ∧
      (∀ parts' rest', CutsInto template parts' rest' → parts' = parts ∧ rest' = rest) ∧
      ((∃ uri, b.uri route params = .ok uri) ↔
        '\x7b' ∉ rest.toList ∧ ∀ part ∈ parts, part.2 ∈ params.map Prod.fst) ∧
      (∀ failure, b.uri route params = .error failure ↔
        ∃ fault, LeftmostFault route template params parts rest fault ∧ failure = .route fault.message) ∧
      (∀ uri, b.uri route params = .ok uri → ∃ values, Supplies params parts values ∧
        uri = b.table.baseUrl ++ (substituted parts values ++ rest) ++
          querySuffix (leftover (parts.map Prod.snd) params)) ∧
      ∀ value, Text.Percent.IsEncoded (Text.Percent.encode value).toList ∧
        Text.Percent.decode? (Text.Percent.encode value) = some value ∧
        ∀ c ∈ ['/', '?', '#', '&', '\x7b'], c ∉ (Text.Percent.encode value).toList := by
  obtain ⟨parts, rest, h⟩ := exists_cutsInto template
  refine ⟨parts, rest, h, fun _ _ h' => h.unique h', exists_uri_iff hroute h, ?_, ?_, ?_⟩
  · intro failure
    exact uri_eq_error_iff_leftmostFault hroute h
  · intro uri huri
    exact exists_supplies_of_uri hroute h huri
  · intro value
    exact ⟨Text.Percent.isEncoded_encode value, Text.Percent.decode?_encode value,
      fun c hc => not_mem_encode_of_separator hc value⟩

/-- A name used twice, an empty value, a stray closing brace, a value with braces, and a parameter given twice. -/
theorem uri_of_template_repeated :
    let b : LinkBuilder := {
      table := (RouteTable.ofBaseUrl "http://h/").add "r" "/a/\x7bx\x7d\x7d/\x7by\x7d\x7bx\x7d"
      routes := .ofResource "post" }
    let params := [("x", "a/\x7bb\x7d"), ("y", ""), ("x", "2"), ("z", "1")]
    b.table.routes.get? "r" = some "/a/\x7bx\x7d\x7d/\x7by\x7d\x7bx\x7d" ∧
    CutsInto "/a/\x7bx\x7d\x7d/\x7by\x7d\x7bx\x7d" [("/a/", "x"), ("\x7d/", "y"), ("", "x")] "" ∧
    b.uri "r" params = .ok "http://h/a/a%2F%7Bb%7D\x7d/a%2F%7Bb%7D?z=1" := by
  intro b params
  have hroute : b.table.routes.get? "r" = some "/a/\x7bx\x7d\x7d/\x7by\x7d\x7bx\x7d" := by decide +kernel
  have hsplit : "/a/\x7bx\x7d\x7d/\x7by\x7d\x7bx\x7d" = "/a/" ++ "\x7b" ++ ("x" ++ "\x7d" ++
      ("\x7d/" ++ "\x7b" ++ ("y" ++ "\x7d" ++ ("" ++ "\x7b" ++ ("x" ++ "\x7d" ++ ""))))) := by decide +kernel
  have hcut : CutsInto "/a/\x7bx\x7d\x7d/\x7by\x7d\x7bx\x7d" [("/a/", "x"), ("\x7d/", "y"), ("", "x")] "" := by
    rw [hsplit]
    exact .placeholder (by decide) (by decide) (.placeholder (by decide) (by decide)
      (.placeholder (by decide) (by decide) (.closed (by decide))))
  obtain ⟨parts, rest, -, hunique, hsome, -, hpath, -⟩ := uri_of_template b hroute params
  obtain ⟨rfl, rfl⟩ := hunique _ _ hcut
  obtain ⟨uri, huri⟩ := hsome.mpr ⟨by decide, by decide⟩
  obtain ⟨values, hvalues, heq⟩ := hpath uri huri
  refine ⟨hroute, hcut, ?_⟩
  rw [huri, heq]
  rcases hvalues with _ | ⟨hx, _ | ⟨hy, _ | ⟨hx', _ | _⟩⟩⟩
  obtain rfl := Option.some.inj hx
  obtain rfl := Option.some.inj hy
  obtain rfl := Option.some.inj hx'
  decide +kernel

end LinkBuilder

end HypermediaApi

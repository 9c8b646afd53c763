import HypermediaApi.Link.Route

/-!
# HypermediaApi.Proofs.Link.Template — what templates render to

A template is cut into pieces in one scan, and the pieces are rendered from left to right. Both go through
text without an opening brace unchanged (`scan_append`, `renderPieces_literals`), and a closed placeholder
becomes one encoded value. From these two steps follow the two kinds of template that resources have: a path
without placeholders (`render_of_literal`) and a path with one placeholder at its end
(`render_of_placeholder`).
-/

namespace HypermediaApi

namespace TemplatePiece

/-! ### Scanning -/

/-- Text without an opening brace stands for itself. -/
theorem scan_append {cs : List Char} (h : '\x7b' ∉ cs) (r : List Char) :
    scan none (cs ++ r) = cs.map .literal ++ scan none r := by
  induction cs with
  | nil => rfl
  | cons c cs ih =>
    have hc : ¬ c = '\x7b' := fun he => h (he ▸ List.mem_cons_self ..)
    have hcs : '\x7b' ∉ cs := fun hm => h (List.mem_cons_of_mem _ hm)
    rw [List.cons_append, scan, if_neg hc, ih hcs]
    rfl

/-- Inside a placeholder everything up to the closing brace belongs to the name. -/
theorem scan_some_append {cs : List Char} (h : '\x7d' ∉ cs) (name r : List Char) :
    scan (some name) (cs ++ '\x7d' :: r) =
      .placeholder (.ofList (name.reverse ++ cs)) :: scan none r := by
  induction cs generalizing name with
  | nil => simp [scan]
  | cons c cs ih =>
    have hc : ¬ c = '\x7d' := fun he => h (he ▸ List.mem_cons_self ..)
    have hcs : '\x7d' ∉ cs := fun hm => h (List.mem_cons_of_mem _ hm)
    rw [List.cons_append, scan, if_neg hc, ih hcs]
    simp

/-- Without a closing brace a placeholder never ends. -/
theorem scan_some_of_not_mem {cs : List Char} (h : '\x7d' ∉ cs) (name : List Char) :
    scan (some name) cs = [.unterminated] := by
  induction cs generalizing name with
  | nil => rfl
  | cons c cs ih =>
    have hc : ¬ c = '\x7d' := fun he => h (he ▸ List.mem_cons_self ..)
    have hcs : '\x7d' ∉ cs := fun hm => h (List.mem_cons_of_mem _ hm)
    rw [scan, if_neg hc, ih hcs]

/-- A template without an opening brace has only literal pieces. -/
theorem ofTemplate_of_literal {template : String} (h : '\x7b' ∉ template.toList) :
    ofTemplate template = template.toList.map .literal := by
  have hscan := scan_append h []
  rw [List.append_nil] at hscan
  simpa [ofTemplate, scan] using hscan

/-- A template starts with the pieces of a text and of the placeholder behind it. -/
theorem ofTemplate_append_placeholder {text name : String} (htext : '\x7b' ∉ text.toList)
    (hname : '\x7d' ∉ name.toList) (remainder : String) :
    ofTemplate (text ++ "\x7b" ++ (name ++ "\x7d" ++ remainder)) =
      text.toList.map .literal ++ .placeholder name :: ofTemplate remainder := by
  have hsplit : (text ++ "\x7b" ++ (name ++ "\x7d" ++ remainder)).toList =
      text.toList ++ '\x7b' :: (name.toList ++ '\x7d' :: remainder.toList) := by
    simp [String.toList_append]
  have hopen : scan none ('\x7b' :: (name.toList ++ '\x7d' :: remainder.toList)) =
      .placeholder name :: ofTemplate remainder := by
    rw [scan, if_pos rfl, scan_some_append hname]
    simp [ofTemplate]
  rw [ofTemplate, hsplit, scan_append htext, hopen]

/-- A placeholder at the end of a template is its last piece. -/
theorem ofTemplate_of_placeholder {path name : String} (hpath : '\x7b' ∉ path.toList)
    (hname : '\x7d' ∉ name.toList) :
    ofTemplate (path ++ "\x7b" ++ name ++ "\x7d") = path.toList.map .literal ++ [.placeholder name] := by
  have hpieces := ofTemplate_append_placeholder hpath hname ""
  rw [String.append_empty, ← String.append_assoc] at hpieces
  exact hpieces

/-- A placeholder that never closes takes the rest of the template. -/
theorem ofTemplate_of_unterminated {text tail : String} (htext : '\x7b' ∉ text.toList)
    (htail : '\x7d' ∉ tail.toList) :
    ofTemplate (text ++ "\x7b" ++ tail) = text.toList.map .literal ++ [.unterminated] := by
  have hsplit : (text ++ "\x7b" ++ tail).toList = text.toList ++ '\x7b' :: tail.toList := by
    simp [String.toList_append]
  rw [ofTemplate, hsplit, scan_append htext, scan, if_pos rfl, scan_some_of_not_mem htail]

@[simp] theorem names_literals (cs : List Char) (ps : List TemplatePiece) :
    names (cs.map .literal ++ ps) = names ps := by
  induction cs with
  | nil => rfl
  | cons c cs ih => exact ih

end TemplatePiece

namespace RouteTable

open TemplatePiece

/-! ### Rendering -/

/-- Literal pieces are rendered as they stand. -/
theorem renderPieces_literals (route template : String) (params : List (String × String)) (cs : List Char)
    (ps : List TemplatePiece) :
    renderPieces route template params (cs.map .literal ++ ps) =
      (renderPieces route template params ps).map (cs ++ ·) := by
  induction cs with
  | nil => cases h : renderPieces route template params ps <;> simp [h, Except.map]
  | cons c cs ih =>
    have hcons : (c :: cs).map TemplatePiece.literal ++ ps = .literal c :: (cs.map .literal ++ ps) := rfl
    rw [hcons, renderPieces, ih]
    cases renderPieces route template params ps <;> rfl

/-- What follows the path of a URI: nothing, or a question mark and the query. -/
def querySuffix (params : List (String × String)) : String :=
  if params.isEmpty then "" else "?" ++ queryText params

/-- **A template without placeholders renders to itself**, all parameters that are not empty going into the
query. -/
theorem render_of_literal {t : RouteTable} {route template : String}
    (hroute : t.routes.get? route = some template) (hbrace : '\x7b' ∉ template.toList)
    (params : List (String × String)) :
    t.render route params = .ok (t.baseUrl ++ template ++ querySuffix (leftover [] params)) := by
  have hpieces := renderPieces_literals route template params template.toList []
  have hnames : names (template.toList.map TemplatePiece.literal) = [] := by
    simpa [names] using names_literals template.toList []
  rw [List.append_nil] at hpieces
  unfold render
  rw [hroute]
  simp only [ofTemplate_of_literal hbrace, hpieces, hnames]
  simp [renderPieces, Except.map, querySuffix]

/-- **A placeholder at the end of a template is replaced by the encoded value**, the other parameters that are
not empty going into the query. -/
theorem render_of_placeholder {t : RouteTable} {route path name value : String}
    {params : List (String × String)}
    (hroute : t.routes.get? route = some (path ++ "\x7b" ++ name ++ "\x7d"))
    (hpath : '\x7b' ∉ path.toList) (hname : '\x7d' ∉ name.toList) (hvalue : params.lookup name = some value) :
    t.render route params =
      .ok (t.baseUrl ++ path ++ Text.Percent.encode value ++ querySuffix (leftover [name] params)) := by
  have hnames : names (path.toList.map .literal ++ [.placeholder name]) = [name] := by
    rw [names_literals]
    rfl
  unfold render
  rw [hroute]
  simp only [ofTemplate_of_placeholder hpath hname, renderPieces_literals, hnames]
  simp [renderPieces, hvalue, Except.map, querySuffix, Text.Percent.encode, String.append_assoc]

end RouteTable

end HypermediaApi

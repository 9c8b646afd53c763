import HypermediaApi.Proofs.Settings.Reading

/-!
# HypermediaApi.Proofs.Settings.Precedence — the uppermost source decides, setting by setting

The defaults are a layer that gives every setting its value, so whatever well-typed layers are laid over them, the
result reads as settings, and each setting has the value of the uppermost layer that gives it one
(`Settings.ofLayers_reads`). What remains is the order of the layers: the files from the most remote one to the nearest
one, and the variables last (`Settings.sources_take_precedence`).
-/

namespace HypermediaApi

/-! ### Defaults -/

namespace Settings

/-- Settings as entries give every setting a value that it can hold. -/
theorem entries_give (s : Settings) (k : SettingKey) :
    ∃ inner v, s.entries.lookup k.sectionText = some (.dict inner) ∧ inner.lookup k.text = some v ∧
      k.kind.plain? v = some (s.get k) := by
  cases k with
  | service k => cases k <;> exact ⟨_, _, rfl, rfl, rfl⟩
  | paging k => cases k <;> exact ⟨_, _, rfl, rfl, SettingKind.plain?_int64 _⟩
  | seed k =>
    cases k with
    | maxRetries => exact ⟨_, _, rfl, rfl, SettingKind.plain?_uint32 _⟩
    | retryDelayMs => exact ⟨_, _, rfl, rfl, SettingKind.plain?_uint64 _⟩

theorem valueIn?_entries (s : Settings) (k : SettingKey) : k.valueIn? s.entries = some (s.get k) := by
  obtain ⟨inner, v, hinner, hv, hplain⟩ := s.entries_give k
  simp [SettingKey.valueIn?, SettingKey.given?, hinner, hv, hplain]

theorem isLayer_entries (s : Settings) : IsLayer s.entries := by
  constructor
  · have hservice : OrderedEntries SettingValue.InOrder s.service.entries :=
      ⟨(by decide : ["base_url", "environment", "log_level", "name"].Pairwise (· < ·)), by simp [ServiceSettings.entries]⟩
    have hpaging : OrderedEntries SettingValue.InOrder s.paging.entries :=
      ⟨(by decide : ["default_page_size", "max_page_size"].Pairwise (· < ·)), by simp [PagingSettings.entries]⟩
    have hseed : OrderedEntries SettingValue.InOrder s.seed.entries :=
      ⟨(by decide : ["max_retries", "retry_delay_ms"].Pairwise (· < ·)), by simp [SeedSettings.entries]⟩
    exact ⟨(by decide : ["paging", "seed", "service"].Pairwise (· < ·)), by simp [entries, hservice, hpaging, hseed]⟩
  · intro k
    obtain ⟨inner, v, hinner, hv, hplain⟩ := s.entries_give k
    simp [SettingKey.fits, hinner, hv, hplain]

/-! ### Layers over defaults -/

/-- **Well-typed layers over defaults read as settings**, each with the value of the uppermost layer that gives it one,
or its default. -/
theorem ofLayers_reads (defaults : Settings) {layers : List SettingEntries} (h : ∀ es ∈ layers, IsLayer es) :
    ∃ s, ofLayers defaults layers = .ok s ∧
      ∀ k : SettingKey, s.get k = (layers.reverse.findSome? k.valueIn?).getD (defaults.get k) := by
  obtain ⟨hlayer, hvalue⟩ := IsLayer.foldl defaults.isLayer_entries h
  simp only [valueIn?_entries] at hvalue
  obtain ⟨s, hread, hget⟩ := ofEntries_of_isLayer hlayer fun k => by simp [hvalue]
  refine ⟨s, hread, fun k => ?_⟩
  have hk : some (s.get k) = (layers.reverse.findSome? k.valueIn?).or (some (defaults.get k)) :=
    (hget k).symm.trans (hvalue k)
  cases hfound : layers.reverse.findSome? k.valueIn? <;> simpa [hfound] using hk

end Settings

/-! ### Sources -/

private theorem findSome?_filterMap {α β γ : Type} (f : α → Option β) (g : β → Option γ) (l : List α) :
    (l.filterMap f).findSome? g = l.findSome? fun a => (f a).bind g := by
  rw [← List.head?_filterMap, List.filterMap_filterMap, List.head?_filterMap]

/-- What a file says of a setting. -/
def SettingKey.inFile? (k : SettingKey) (text : String) : Option PlainSetting :=
  (Settings.File.read? text).bind k.valueIn?

/-- The text is a file of settings, and the settings can hold what it says of them. -/
def WellTypedFile (text : String) : Prop := ∃ es, Settings.File.read? text = some es ∧ WellTyped es

instance (text : String) : Decidable (WellTypedFile text) :=
  decidable_of_iff ((Settings.File.read? text).any fun es => decide (WellTyped es))
    (by simp [WellTypedFile, Option.any_eq_true])

/-- The variable whose name lists the keys of the setting. -/
def SettingKey.variableName (k : SettingKey) : String :=
  variableMark ++ .ofList ((k.sectionText ++ "__" ++ k.text).toList.map Char.toUpper)

/-- A variable with this name gives the setting, and nothing else, the value that its text writes. -/
theorem variableEntries_variableName (k : SettingKey) (text : String) :
    variableEntries k.variableName text = [(k.sectionText, .dict [(k.text, Settings.Variable.value text)])] := by
  have hkeys : ∀ k ∈ SettingKey.all, variableKeys? k.variableName = some [k.sectionText, k.text] := by
    simp only [variableKeys?, SettingKey.variableName, String.toList_append, String.toList_ofList]
    decide +kernel
  simp [variableEntries, hkeys k k.mem_all, entriesBelow]

namespace Settings

theorem mapM_fileLayer {texts : List String} (h : ∀ text ∈ texts, WellTypedFile text) :
    texts.mapM fileLayer = .ok (texts.filterMap File.read?) := by
  induction texts with
  | nil => rfl
  | cons text rest ih =>
    obtain ⟨⟨es, hes, -⟩, hrest⟩ := List.forall_mem_cons.mp h
    have hlayer : fileLayer text = .ok es := by rw [fileLayer, hes]
    rw [List.mapM_cons, hlayer, ih hrest, List.filterMap_cons_some hes]
    rfl

/-- **Files and variables over defaults read as settings**: each setting has the value that the variables give it, or
that the last file that gives it one does, or its default. -/
theorem ofSources_reads (defaults : Settings) {texts : List String} {env : Environment}
    (htexts : ∀ text ∈ texts, WellTypedFile text) (henv : WellTyped env.layer) :
    ∃ s, (do ofLayers defaults ((← texts.mapM fileLayer) ++ [env.layer])) = .ok s ∧
      ∀ k : SettingKey, s.get k =
        ((k.valueIn? env.layer).or (texts.reverse.findSome? k.inFile?)).getD (defaults.get k) := by
  have hlayers : ∀ es ∈ texts.filterMap File.read? ++ [env.layer], IsLayer es := by
    intro es hes
    rcases List.mem_append.mp hes with hes | hes
    · obtain ⟨text, htext, hread⟩ := List.mem_filterMap.mp hes
      obtain ⟨es', hes', htyped⟩ := htexts text htext
      obtain rfl : es = es' := Option.some.inj (hread.symm.trans hes')
      exact ⟨File.read?_inOrder hread, htyped⟩
    · obtain rfl := List.mem_singleton.mp hes
      exact ⟨env.layer_inOrder, henv⟩
  obtain ⟨s, hread, hget⟩ := ofLayers_reads defaults hlayers
  refine ⟨s, by rw [mapM_fileLayer htexts]; exact hread, ?_⟩
  intro k
  have hfiles : (texts.filterMap File.read?).reverse.findSome? k.valueIn? = texts.reverse.findSome? k.inFile? := by
    rw [← List.filterMap_reverse, findSome?_filterMap]
    rfl
  rw [hget, List.reverse_append, List.findSome?_append, hfiles]
  simp

/-- **Every setting has the value of the uppermost source that gives it one**, and its default where none does.

Whatever the sources give to whichever settings, as long as the settings can hold it, and whatever they give to keys that
name no setting: loading succeeds, and each setting by itself is looked for in the variables first, then in the file of
the working directory, in the user's and in the system's. The name of the service is the name it is loaded for by default.
With one file given, this stands between the variables and the defaults alone.

Of the variables, the last one that gives the setting a value decides; the one that is named after the setting gives it
the value that its text writes, and nothing to any other setting. Layers that stem from no file and no variable count
in the same way, the last one first. -/
theorem sources_take_precedence (name : String) (files : SettingFiles) (file : Option String) (env : Environment)
    (hfiles : ∀ text ∈ files.byPrecedence, WellTypedFile text) (hfile : ∀ text ∈ file, WellTypedFile text)
    (henv : WellTyped env.layer) :
    (∃ s, loadForService name files env = .ok s ∧ ∀ k : SettingKey, s.get k =
      ((k.valueIn? env.layer).or <| (files.workingDirectory.bind k.inFile?).or <|
        (files.userDirectory.bind k.inFile?).or <| files.systemDirectory.bind k.inFile?).getD ((named name).get k)) ∧
    (∃ s, loadFrom file env = .ok s ∧ ∀ k : SettingKey, s.get k =
      ((k.valueIn? env.layer).or (file.bind k.inFile?)).getD (default.get k)) ∧
    ((∀ e ∈ env.entries, WellTyped (variableEntries e.1 e.2)) → WellTyped env.layer ∧
      ∀ k : SettingKey, k.valueIn? env.layer =
        env.entries.reverse.findSome? fun e => k.valueIn? (variableEntries e.1 e.2)) ∧
    (∀ (k : SettingKey) (text : String),
      variableEntries k.variableName text = [(k.sectionText, .dict [(k.text, Variable.value text)])]) ∧
    ∀ (defaults : Settings) (layers : List SettingEntries), (∀ es ∈ layers, IsLayer es) →
      ∃ s, ofLayers defaults layers = .ok s ∧
        ∀ k : SettingKey, s.get k = (layers.reverse.findSome? k.valueIn?).getD (defaults.get k) := by
  refine ⟨?_, ?_, ?_, variableEntries_variableName, fun defaults _ => ofLayers_reads defaults⟩
  · have htexts : ∀ text ∈ files.byPrecedence.reverse, WellTypedFile text := by simpa using hfiles
    obtain ⟨s, hread, hget⟩ := ofSources_reads (named name) htexts henv
    refine ⟨s, hread, fun k => ?_⟩
    have hfound : files.byPrecedence.findSome? k.inFile? = (files.workingDirectory.bind k.inFile?).or
        ((files.userDirectory.bind k.inFile?).or (files.systemDirectory.bind k.inFile?)) := by
      rw [SettingFiles.byPrecedence, findSome?_filterMap]
      simp only [List.findSome?_cons, id_eq, List.findSome?_nil]
      cases files.workingDirectory.bind k.inFile? <;> cases files.userDirectory.bind k.inFile? <;>
        cases files.systemDirectory.bind k.inFile? <;> rfl
    rw [hget, List.reverse_reverse, hfound]
  · have htexts : ∀ text ∈ file.toList, WellTypedFile text := by simpa using hfile
    obtain ⟨s, hread, hget⟩ := ofSources_reads default htexts henv
    refine ⟨s, hread, fun k => ?_⟩
    rw [hget]
    cases file <;> simp
  · intro hvariables
    obtain ⟨hlayer, hvalue⟩ := Environment.isLayer_layer hvariables
    exact ⟨hlayer.wellTyped, hvalue⟩

/-- Four sources, three of which give one setting and two another, and a key that names no setting. -/
theorem sources_take_precedence_four_sources :
    let files : SettingFiles := {
      workingDirectory := some "paging.max_page_size = 25\nage = 1"
      userDirectory := some "[paging]\nmax_page_size = 50\ndefault_page_size = 5"
      systemDirectory := some "seed.max_retries = 3\npaging.default_page_size = 7" }
    let env : Environment := .ofList [("SHAPING_PAGING__DEFAULT_PAGE_SIZE", "9")]
    let expected : Settings := {
      service := { name := "blog" }
      paging := { defaultPageSize := 9, maxPageSize := 25 }
      seed := { maxRetries := 3 } }
    (∀ text ∈ files.byPrecedence, WellTypedFile text) ∧ WellTyped env.layer ∧
    ∃ s, loadForService "blog" files env = .ok s ∧ ∀ k, s.get k = expected.get k := by
  intro files env expected
  have hfiles : ∀ text ∈ files.byPrecedence, WellTypedFile text := by decide +kernel
  have henv : WellTyped env.layer := by decide +kernel
  obtain ⟨⟨s, hload, hget⟩, -⟩ := sources_take_precedence "blog" files none env hfiles (by simp) henv
  have hvalues : ∀ k ∈ SettingKey.all,
      ((k.valueIn? env.layer).or <| (files.workingDirectory.bind k.inFile?).or <|
        (files.userDirectory.bind k.inFile?).or <| files.systemDirectory.bind k.inFile?).getD ((named "blog").get k) =
          expected.get k := by decide +kernel
  exact ⟨hfiles, henv, s, hload, fun k => (hget k).trans (hvalues k k.mem_all)⟩

end Settings

end HypermediaApi

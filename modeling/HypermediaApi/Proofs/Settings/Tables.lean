import HypermediaApi.Proofs.Settings.InOrder

/-!
# HypermediaApi.Proofs.Settings.Tables — no key of a file stands twice

The tables of a file are built by setting keys and opening tables, by themselves or as items of arrays, below paths of
keys. Each of these puts the table that it changes back in its place, so the keys of every table ascend at any time
(`Settings.File.Node.InOrder`), and finishing the tables keeps their keys.
-/

namespace HypermediaApi.Settings.File

open SettingValue (InOrder)

/-! ### Tables under construction -/

/-- The keys of the table ascend if the node is one, and so on in its nodes; a value is in order. -/
inductive Node.InOrder : Node → Prop
  | value {v : SettingValue} (h : v.InOrder) : InOrder (.value v)
  | table {origin : Origin} {ns : Nodes} (keys : (ns.map Prod.fst).Pairwise (· < ·))
    (nodes : ∀ e ∈ ns, InOrder e.2) : InOrder (.table origin ns)

@[simp] theorem Node.inOrder_table {origin : Origin} {ns : Nodes} :
    Node.InOrder (.table origin ns) ↔ OrderedEntries Node.InOrder ns := by
  constructor
  · intro h
    cases h with
    | table keys nodes => exact ⟨keys, nodes⟩
  · intro h
    exact .table h.keys h.values

variable {ns ns' : Nodes}

/-- The nodes below a key that holds a table. -/
theorem inOrder_of_lookup_table {key : String} {origin : Origin} {inner : Nodes}
    (h : OrderedEntries Node.InOrder ns) (hlookup : ns.lookup key = some (.table origin inner)) :
    OrderedEntries Node.InOrder inner :=
  Node.inOrder_table.mp (h.of_lookup hlookup)

/-- Putting back the table that a step has changed, as all three ways of building tables do. -/
theorem inOrder_putTable {key : String} {origin : Origin} {changed : Option Nodes} (hns : OrderedEntries Node.InOrder ns)
    (h : (changed.map fun inner => putSorted key (.table origin inner) ns) = some ns')
    (hchanged : ∀ {inner}, changed = some inner → OrderedEntries Node.InOrder inner) :
    OrderedEntries Node.InOrder ns' := by
  obtain ⟨inner, hinner, rfl⟩ := Option.map_eq_some_iff.mp h
  exact hns.putSorted (Node.inOrder_table.mpr (hchanged hinner))

theorem assign_inOrder {v : SettingValue} {path : List String} (hv : v.InOrder) (hns : OrderedEntries Node.InOrder ns)
    (h : assign v path ns = some ns') : OrderedEntries Node.InOrder ns' := by
  fun_induction assign v path ns generalizing ns' with
  | case1 => simp at h
  | case2 => simp at h
  | case3 ns key hfree =>
    obtain rfl := by simpa [hfree] using h
    exact hns.putSorted (.value hv)
  | case4 ns key next path hfree ih =>
    exact inOrder_putTable hns h fun hinner => ih .nil hinner
  | case5 => simp at h
  | case6 ns key next path origin inner hlookup _ ih =>
    exact inOrder_putTable hns h fun hinner => ih (inOrder_of_lookup_table hns hlookup) hinner
  | case7 => simp at h

/-- A header of a table keeps the nodes of the table that it opens, if there are any. -/
theorem Node.openTable?_inOrder {before : Option Node} {n : Node} (hbefore : ∀ n ∈ before, n.InOrder)
    (h : Node.openTable? before = some n) : n.InOrder := by
  fun_cases Node.openTable? before with
  | case1 =>
    obtain rfl := by simpa [Node.openTable?] using h
    exact Node.inOrder_table.mpr .nil
  | case2 inner =>
    obtain rfl := by simpa [Node.openTable?] using h
    exact Node.inOrder_table.mpr (Node.inOrder_table.mp (hbefore _ rfl))
  | case3 => simp [Node.openTable?] at h

/-- A header of an item of an array starts with an empty table. -/
theorem Node.openItem?_inOrder {before : Option Node} {n : Node} (h : Node.openItem? before = some n) :
    n.InOrder := by
  fun_cases Node.openItem? before with
  | case1 | case2 =>
    obtain rfl := by simpa [Node.openItem?] using h
    exact Node.inOrder_table.mpr .nil
  | case3 => simp [Node.openItem?] at h

theorem openAt_inOrder {openNode? : Option Node → Option Node} {path : List String}
    (hopen : ∀ {before n}, openNode? before = some n → (∀ n ∈ before, n.InOrder) → n.InOrder)
    (hns : OrderedEntries Node.InOrder ns) (h : openAt openNode? path ns = some ns') :
    OrderedEntries Node.InOrder ns' := by
  fun_induction openAt openNode? path ns generalizing ns' with
  | case1 => simp at h
  | case2 ns key =>
    obtain ⟨n, hn, rfl⟩ := Option.map_eq_some_iff.mp h
    exact hns.putSorted (hopen hn fun _ hlookup => hns.of_lookup hlookup)
  | case3 ns key next path hfree ih =>
    exact inOrder_putTable hns h fun hinner => ih .nil hinner
  | case4 ns key next path origin inner hlookup ih =>
    exact inOrder_putTable hns h fun hinner => ih (inOrder_of_lookup_table hns hlookup) hinner
  | case5 => simp at h

theorem changeTable_inOrder {change : Nodes → Option Nodes} {path : List String}
    (hchange : ∀ {ns ns'}, change ns = some ns' → OrderedEntries Node.InOrder ns → OrderedEntries Node.InOrder ns')
    (hns : OrderedEntries Node.InOrder ns) (h : changeTable change path ns = some ns') :
    OrderedEntries Node.InOrder ns' := by
  fun_induction changeTable change path ns generalizing ns' with
  | case1 ns => exact hchange h hns
  | case2 ns key path origin inner hlookup ih =>
    exact inOrder_putTable hns h fun hinner => ih (inOrder_of_lookup_table hns hlookup) hinner
  | case3 => simp at h

/-- The value that the statement sets, if it sets one, is in order. -/
def Statement.InOrder : Statement → Prop
  | .header _ | .itemHeader _ => True
  | .assign _ v => v.InOrder

theorem Draft.step_inOrder {d d' : Draft} {statement : Statement} (hstatement : statement.InOrder)
    (hd : OrderedEntries Node.InOrder d.root) (h : d.step statement = some d') :
    OrderedEntries Node.InOrder d'.root := by
  cases statement with
  | header path =>
    obtain ⟨root, hroot, rfl⟩ := Option.map_eq_some_iff.mp h
    exact openAt_inOrder (fun hn hbefore => Node.openTable?_inOrder hbefore hn) hd hroot
  | itemHeader path =>
    obtain ⟨root, hroot, rfl⟩ := Option.map_eq_some_iff.mp h
    exact openAt_inOrder (fun hn _ => Node.openItem?_inOrder hn) hd hroot
  | assign path v =>
    obtain ⟨root, hroot, rfl⟩ := Option.map_eq_some_iff.mp h
    exact changeTable_inOrder (fun hns' hns => assign_inOrder hstatement hns hns') hd hroot

theorem Draft.run_inOrder {d d' : Draft} {statements : List Statement} (hstatements : ∀ x ∈ statements, x.InOrder)
    (hd : OrderedEntries Node.InOrder d.root) (h : statements.foldlM Draft.step d = some d') :
    OrderedEntries Node.InOrder d'.root := by
  induction statements generalizing d with
  | nil =>
    obtain rfl := by simpa using h
    exact hd
  | cons statement rest ih =>
    obtain ⟨hstatement, hrest⟩ := List.forall_mem_cons.mp hstatements
    rw [List.foldlM_cons] at h
    obtain ⟨d₁, hstep, h⟩ := Option.bind_eq_some_iff.mp h
    exact ih hrest (Draft.step_inOrder hstatement hd hstep) h

/-! ### Finished tables -/

theorem keys_finishAll (ns : Nodes) : (finishAll ns).map Prod.fst = ns.map Prod.fst := by
  induction ns with
  | nil => rfl
  | cons e r ih => simp [finishAll, ih]

theorem values_finishAll {p : SettingValue → Prop} (h : ∀ e ∈ ns, p e.2.finish) : ∀ e ∈ finishAll ns, p e.2 := by
  induction ns with
  | nil => simp [finishAll]
  | cons e r ih =>
    obtain ⟨he, hr⟩ := List.forall_mem_cons.mp h
    rw [finishAll]
    exact List.forall_mem_cons.mpr ⟨he, ih hr⟩

theorem Node.InOrder.finish {n : Node} (h : n.InOrder) : n.finish.InOrder := by
  induction h with
  | value h => simpa [Node.finish] using h
  | @table origin ns keys _ ih =>
    have htable : (SettingValue.dict (finishAll ns)).InOrder :=
      .dict (keys_finishAll ns ▸ keys) (values_finishAll ih)
    cases origin with
    | item before => simp [Node.finish]
    | header | outerHeader | dottedKey => simpa [Node.finish] using htable

theorem finishAll_inOrder (h : OrderedEntries Node.InOrder ns) : OrderedEntries InOrder (finishAll ns) :=
  ⟨keys_finishAll ns ▸ h.keys, values_finishAll fun e he => (h.values e he).finish⟩

/-! ### Texts -/

theorem wordValue?_inOrder {w : List Char} {v : SettingValue} (h : wordValue? w = some v) : v.InOrder := by
  rw [wordValue?] at h
  repeat' split at h
  case h_2 =>
    obtain ⟨x, -, rfl⟩ := Option.map_eq_some_iff.mp h
    simp
  case h_1.isFalse => simp at h
  all_goals
    obtain rfl := by simpa using h
    simp

theorem readDateTime?_inOrder {cs r : List Char} {v : SettingValue} (h : readDateTime? cs = some (v, r)) :
    v.InOrder := by
  obtain ⟨x, -, heq⟩ := Option.map_eq_some_iff.mp h
  obtain ⟨rfl, -⟩ := by simpa using heq
  simpa using OrderedEntries.singleton SettingValue.inOrder_text

/-- Values are read in order, and members are read into nodes that stay in order, by induction on the fuel for both
together. -/
private theorem read_inOrder (fuel : Nat) :
    (∀ {room cs v r}, readValue? room fuel cs = some (v, r) → v.InOrder) ∧
    ∀ {room ns cs ns' r}, readMembers? room fuel ns cs = some (ns', r) → OrderedEntries Node.InOrder ns →
      OrderedEntries Node.InOrder ns' := by
  induction fuel with
  | zero => constructor <;> simp [readValue?, readMembers?]
  | succ fuel ih =>
    obtain ⟨ihValue, ihMembers⟩ := ih
    constructor
    · intro room cs v r h
      unfold readValue? at h
      split at h
      case h_1 | h_2 | h_3 =>
        obtain ⟨x, -, heq⟩ := Option.map_eq_some_iff.mp h
        obtain ⟨rfl, -⟩ := by simpa using heq
        simp
      case h_4 =>
        split at h
        · obtain ⟨rfl, -⟩ := by simpa using h
          simpa using OrderedEntries.nil
        · obtain ⟨⟨ns, _⟩, hns, heq⟩ := Option.map_eq_some_iff.mp h
          obtain ⟨rfl, -⟩ := by simpa using heq
          exact SettingValue.inOrder_dict.mpr (finishAll_inOrder (ihMembers hns .nil))
      case h_5 =>
        rcases Option.or_eq_some_iff.mp h with hdate | ⟨-, hword⟩
        · exact readDateTime?_inOrder hdate
        · obtain ⟨v', hv', heq⟩ := Option.map_eq_some_iff.mp hword
          obtain ⟨rfl, -⟩ := by simpa using heq
          exact wordValue?_inOrder hv'
    · intro room ns cs ns' r h hns
      simp only [readMembers?, Option.bind_eq_bind, Option.bind_eq_some_iff] at h
      obtain ⟨⟨path, _⟩, -, h⟩ := h
      split at h
      · obtain ⟨⟨v, _⟩, hv, h⟩ := Option.bind_eq_some_iff.mp h
        obtain ⟨inner, hinner, h⟩ := Option.bind_eq_some_iff.mp h
        have hinOrder := assign_inOrder (ihValue hv) hns hinner
        split at h
        · exact ihMembers h hinOrder
        · obtain ⟨rfl, -⟩ := by simpa using h
          exact hinOrder
        · simp at h
      · simp at h

theorem readStatement?_inOrder {cs r : List Char} {statement : Statement}
    (h : readStatement? cs = some (statement, r)) : statement.InOrder := by
  rw [readStatement?.eq_def] at h
  split at h
  case h_1 | h_2 =>
    obtain ⟨_, -, h⟩ := Option.bind_eq_some_iff.mp h
    split at h
    · obtain ⟨rfl, -⟩ := by simpa using h
      trivial
    · simp at h
  · obtain ⟨_, -, h⟩ := Option.bind_eq_some_iff.mp h
    split at h
    · obtain ⟨⟨v, _⟩, hv, heq⟩ := Option.map_eq_some_iff.mp h
      obtain ⟨rfl, -⟩ := by simpa using heq
      exact (read_inOrder _).1 hv
    · simp at h

theorem statements?_inOrder {fuel : Nat} {cs : List Char} {statements : List Statement}
    (h : statements? fuel cs = some statements) : ∀ x ∈ statements, x.InOrder := by
  fun_induction statements? fuel cs generalizing statements with
  | case1 => simp_all
  | case2 => simp at h
  | case3 cs fuel _ ih =>
    obtain ⟨⟨statement, r⟩, hstatement, h⟩ := Option.bind_eq_some_iff.mp h
    dsimp only at h
    split at h
    · obtain ⟨rest, hrest, rfl⟩ := Option.map_eq_some_iff.mp h
      exact List.forall_mem_cons.mpr ⟨readStatement?_inOrder hstatement, ih r hrest⟩
    · simp at h

/-- **The entries of a file are in order.** -/
theorem read?_inOrder {s : String} {es : SettingEntries} (h : read? s = some es) : OrderedEntries InOrder es := by
  simp only [read?, Option.bind_eq_bind, Option.bind_eq_some_iff, Option.some.injEq] at h
  obtain ⟨statements, hstatements, d, hd, rfl⟩ := h
  exact finishAll_inOrder (Draft.run_inOrder (statements?_inOrder hstatements) .nil hd)

end HypermediaApi.Settings.File

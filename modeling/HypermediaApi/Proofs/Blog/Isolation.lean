import HypermediaApi.Proofs.Blog.Session

/-!
# HypermediaApi.Proofs.Blog.Isolation — units of work do not get in each other's way

Two steps are independent if they are taken by different units, do not both take an identity and do not both
concern commits. Independent steps that follow each other may change places: both get the answers they would
have got (answers to reads apart, which show the posts of the moment), and the session after them is the same as
far as anyone can tell (`SameOutcome.swap`).

Schedules are compared by what they keep: the order of each unit's steps, that of all additions, and that of
all commits and armings. If two schedules agree in these (`Reordered`), the first step of one stands in the other
behind steps that are all independent of it (`Reordered.exists_split`). So it can be moved to the front, and the
rest follows by induction.
-/

namespace HypermediaApi.Blog

namespace StoreStep

variable {a b x : StoreStep} {xs ys before after : List StoreStep}

/-- The steps may change places when one follows the other. -/
structure Independent (a b : StoreStep) : Prop where
  unit : ∀ u, a.unit? = some u → b.unit? ≠ some u
  add : a.isAdd = true → b.isAdd = false
  commit : a.isCommitOrArm = true → b.isCommitOrArm = false

theorem Independent.symm (h : Independent a b) : Independent b a where
  unit u hb ha := h.unit u ha hb
  add hb := by
    rw [← Bool.not_eq_true]
    exact fun ha => absurd hb (by simp [h.add ha])
  commit hb := by
    rw [← Bool.not_eq_true]
    exact fun ha => absurd hb (by simp [h.commit ha])

theorem isRead_of_isAdd (h : a.isAdd = true) : a.isRead = false := by
  cases a <;> first | rfl | cases h

theorem isRead_of_isCommitOrArm (h : a.isCommitOrArm = true) : a.isRead = false := by
  cases a <;> first | rfl | cases h

/-- Two schedules with the same steps, those of each unit in the same order, and also all additions, and all
commits and armings. -/
structure Reordered (xs ys : List StoreStep) : Prop where
  units : ∀ u, xs.filter (fun x => x.unit? = some u) = ys.filter (fun x => x.unit? = some u)
  adds : xs.filter (·.isAdd) = ys.filter (·.isAdd)
  commits : xs.filter (·.isCommitOrArm) = ys.filter (·.isCommitOrArm)

theorem Reordered.symm (h : Reordered xs ys) : Reordered ys xs :=
  ⟨fun u => (h.units u).symm, h.adds.symm, h.commits.symm⟩

/-- What is in front of a step `x` in a schedule, if `x` comes first in the other one, holds no step of a kind
that `x` has. -/
theorem filter_eq_nil_of_first {kind : StoreStep → Bool} (hx : kind x = true)
    (hmem : x ∉ before) (h : (x :: xs).filter kind = (before ++ x :: after).filter kind) :
    before.filter kind = [] := by
  rw [List.filter_cons_of_pos hx, List.filter_append] at h
  cases hfilter : before.filter kind with
  | nil => rfl
  | cons b rest =>
    rw [hfilter, List.cons_append] at h
    have hb : b ∈ before.filter kind := hfilter ▸ List.mem_cons_self
    exact absurd ((List.cons.inj h).1 ▸ (List.mem_filter.mp hb).1) hmem

/-- **The first step of a schedule stands in the other one behind steps that are independent of it.** -/
theorem Reordered.exists_split (h : Reordered (x :: xs) ys) :
    ∃ before after, ys = before ++ x :: after ∧ ∀ b ∈ before, Independent x b := by
  -- Some kind of steps that `x` belongs to leads to its first occurrence.
  obtain ⟨before, after, rfl, hmem, hunit⟩ :
      ∃ before after, ys = before ++ x :: after ∧ x ∉ before ∧
        ∀ u, x.unit? = some u → ∀ b ∈ before, b.unit? ≠ some u := by
    cases hx : x.unit? with
    | some u =>
      have hfilter := h.units u
      rw [List.filter_cons_of_pos (by simpa using hx)] at hfilter
      obtain ⟨before, after, rfl, hbefore, -, -⟩ := List.filter_eq_cons_iff.mp hfilter.symm
      refine ⟨before, after, rfl, fun hmem => hbefore x hmem (by simpa using hx), ?_⟩
      rintro v hv b hb
      obtain rfl := Option.some.inj hv
      simpa using hbefore b hb
    | none =>
      have harm : x.isCommitOrArm = true := by
        cases x <;> first | rfl | cases hx
      have hfilter := h.commits
      rw [List.filter_cons_of_pos harm] at hfilter
      obtain ⟨before, after, rfl, hbefore, -, -⟩ := List.filter_eq_cons_iff.mp hfilter.symm
      exact ⟨before, after, rfl, fun hmem => hbefore x hmem harm, nofun⟩
  refine ⟨before, after, rfl, fun b hb => ⟨fun u hu => hunit u hu b hb, fun hadd => ?_, fun hcommit => ?_⟩⟩
  · have hnil : before.filter (·.isAdd) = [] := filter_eq_nil_of_first hadd hmem h.adds
    exact Bool.eq_false_iff.mpr (List.filter_eq_nil_iff.mp hnil b hb)
  · have hnil : before.filter (·.isCommitOrArm) = [] := filter_eq_nil_of_first hcommit hmem h.commits
    exact Bool.eq_false_iff.mpr (List.filter_eq_nil_iff.mp hnil b hb)

theorem filter_tail {kind : StoreStep → Bool} (hbefore : kind x = true → before.filter kind = [])
    (h : (x :: xs).filter kind = (before ++ x :: after).filter kind) :
    xs.filter kind = (before ++ after).filter kind := by
  rw [List.filter_append, List.filter_cons, List.filter_cons] at h
  rw [List.filter_append]
  cases hx : kind x with
  | true =>
    rw [hbefore hx, if_pos hx, if_pos hx] at h
    rw [hbefore hx]
    exact (List.cons.inj h).2
  | false =>
    rw [if_neg (by simp [hx]), if_neg (by simp [hx])] at h
    exact h

/-- Without that step the two schedules still keep the same orders. -/
theorem Reordered.tail (h : Reordered (x :: xs) (before ++ x :: after)) (hindep : ∀ b ∈ before, Independent x b) :
    Reordered xs (before ++ after) where
  units u := by
    refine filter_tail (fun hx => List.filter_eq_nil_iff.mpr fun b hb => ?_) (h.units u)
    simpa using (hindep b hb).unit u (by simpa using hx)
  adds := by
    refine filter_tail (fun hx => List.filter_eq_nil_iff.mpr fun b hb => ?_) h.adds
    exact Bool.eq_false_iff.mp ((hindep b hb).add hx)
  commits := by
    refine filter_tail (fun hx => List.filter_eq_nil_iff.mpr fun b hb => ?_) h.commits
    exact Bool.eq_false_iff.mp ((hindep b hb).commit hx)

end StoreStep

namespace StoreSession

open StoreStep

variable {s t r : StoreSession} {a b x : StoreStep}

/-! ### What a step looks at -/

/-- The two sessions are the same in what a step that is not a read looks at. -/
structure AlikeFor (x : StoreStep) (s t : StoreSession) : Prop where
  nextId : x.isAdd = true → s.store.nextId = t.store.nextId
  base : x.isCommitOrArm = true → s.base = t.base
  unit : ∀ u, x = .commit u → s.unit u = t.unit u

/-- What a step looks at is not touched by an independent one. -/
theorem alikeFor_of_independent (h : Independent a b) (s : StoreSession) : AlikeFor a s (s.step b).2 where
  nextId ha := by
    rw [nextId_step, h.add ha]
    rfl
  base ha := (base_step s (h.commit ha)).symm
  unit u ha := (unit_step_of_ne s (h.unit u (ha ▸ rfl))).symm

/-- A step that is not a read gets the same answer. -/
theorem AlikeFor.answer (h : AlikeFor x s t) (hx : x.isRead = false) : (s.step x).1 = (t.step x).1 := by
  cases x with
  | add u p => exact congrArg (fun id => StoreAnswer.staged { p with id }) (h.nextId rfl)
  | commit u =>
    obtain ⟨hcommitted, harmed⟩ := Prod.mk.inj (h.base rfl)
    rw [step_commit, step_commit, h.unit u rfl, (PostStore.commit_congr hcommitted harmed (t.unit u)).1]
  | count u filter => cases hx
  | fetchPage u filter steps window => cases hx
  | fetchById u id => cases hx
  | _ => rfl

/-- The committed posts and the armed failures after a step come from those before it, and from the staged
changes of the unit that it commits. -/
theorem base_step_congr (hbase : s.base = t.base) (hunit : ∀ u, x = .commit u → s.unit u = t.unit u) :
    (s.step x).2.base = (t.step x).2.base := by
  obtain ⟨hcommitted, harmed⟩ := Prod.mk.inj hbase
  cases x with
  | commit u =>
    obtain ⟨-, hcommitted', harmed'⟩ := PostStore.commit_congr hcommitted harmed (t.unit u)
    rw [step_commit, step_commit, hunit u rfl]
    exact Prod.ext hcommitted' harmed'
  | failNextCommits count => exact Prod.ext hcommitted rfl
  | _ => rw [base_step s rfl, base_step t rfl, hbase]

/-! ### Sessions that nobody can tell apart -/

/-- The same store, and the same staged changes in every unit. -/
structure Agree (s t : StoreSession) : Prop where
  store : s.store = t.store
  unit : ∀ u, s.unit u = t.unit u

theorem Agree.refl (s : StoreSession) : Agree s s := ⟨rfl, fun _ => rfl⟩

theorem Agree.symm (h : Agree s t) : Agree t s := ⟨h.store.symm, fun u => (h.unit u).symm⟩

theorem Agree.trans (h : Agree s t) (h' : Agree t r) : Agree s r :=
  ⟨h.store.trans h'.store, fun u => (h.unit u).trans (h'.unit u)⟩

theorem Agree.base (h : Agree s t) : s.base = t.base :=
  congrArg (fun store : PostStore => (store.committed, store.armedFailures)) h.store

theorem agree_of_parts (hbase : s.base = t.base) (hnextId : s.store.nextId = t.store.nextId)
    (hunit : ∀ u, s.unit u = t.unit u) : Agree s t where
  store := by
    obtain ⟨⟨committed, nextId, armed⟩, units⟩ := s
    obtain ⟨⟨committed', nextId', armed'⟩, units'⟩ := t
    obtain ⟨rfl, rfl⟩ := Prod.mk.inj hbase
    exact congrArg (PostStore.mk committed · armed) hnextId
  unit := hunit

theorem Agree.answer (h : Agree s t) (hx : x.isRead = false) : (s.step x).1 = (t.step x).1 :=
  AlikeFor.answer ⟨fun _ => congrArg PostStore.nextId h.store, fun _ => h.base, fun u _ => h.unit u⟩ hx

theorem Agree.step (h : Agree s t) (x : StoreStep) : Agree (s.step x).2 (t.step x).2 := by
  cases hread : x.isRead with
  | true =>
    rw [step_of_isRead s hread, step_of_isRead t hread]
    exact h
  | false =>
    refine agree_of_parts (base_step_congr h.base fun u _ => h.unit u) ?_ fun u => ?_
    · rw [nextId_step, nextId_step, h.store]
    · rw [unit_step, unit_step, h.unit u, h.answer hread]

/-- **Independent steps lead to the same session in either order.** -/
theorem agree_swap (h : Independent a b) (s : StoreSession) :
    Agree ((s.step a).2.step b).2 ((s.step b).2.step a).2 := by
  by_cases ha : a.isRead = true
  · rw [step_of_isRead s ha, step_of_isRead _ ha]
    exact .refl _
  by_cases hb : b.isRead = true
  · rw [step_of_isRead s hb, step_of_isRead _ hb]
    exact .refl _
  rw [Bool.not_eq_true] at ha hb
  refine agree_of_parts ?_ ?_ fun u => ?_
  · -- One of the two leaves the base alone; so the other finds it as it was.
    cases hcommit : a.isCommitOrArm with
    | true =>
      have hbase := base_step s (h.commit hcommit)
      rw [base_step _ (h.commit hcommit)]
      exact base_step_congr hbase.symm fun u hu => (unit_step_of_ne s (h.unit u (hu ▸ rfl))).symm
    | false =>
      have hbase := base_step s hcommit
      rw [base_step (s.step b).2 hcommit]
      exact base_step_congr hbase fun u hu => unit_step_of_ne s (h.symm.unit u (hu ▸ rfl))
  · rw [nextId_step, nextId_step, nextId_step, nextId_step]
    cases a.isAdd <;> cases b.isAdd <;> rfl
  · -- A unit is touched by one of the two at most.
    by_cases hu : a.unit? = some u
    · have hbu := h.unit u hu
      rw [unit_step_of_ne _ hbu, unit_step s a, unit_step (s.step b).2 a, unit_step_of_ne s hbu,
        (alikeFor_of_independent h s).answer ha]
    · rw [unit_step_of_ne (s.step b).2 hu, unit_step (s.step a).2 b, unit_step s b, unit_step_of_ne s hu,
        (alikeFor_of_independent h.symm s).answer hb]

/-! ### Schedules -/

/-- From the given session, the two schedules assign the same identities, commit with the same results, and
lead to the same session. -/
structure SameOutcome (s : StoreSession) (xs ys : List StoreStep) : Prop where
  adds : (s.transcript xs).filter (·.1.isAdd) = (s.transcript ys).filter (·.1.isAdd)
  commits : (s.transcript xs).filter (·.1.isCommitOrArm) = (s.transcript ys).filter (·.1.isCommitOrArm)
  session : Agree (s.after xs) (s.after ys)

theorem SameOutcome.refl (s : StoreSession) (xs : List StoreStep) : SameOutcome s xs xs :=
  ⟨rfl, rfl, .refl _⟩

theorem SameOutcome.trans {xs ys zs : List StoreStep} (h : SameOutcome s xs ys) (h' : SameOutcome s ys zs) :
    SameOutcome s xs zs :=
  ⟨h.adds.trans h'.adds, h.commits.trans h'.commits, h.session.trans h'.session⟩

theorem SameOutcome.symm {xs ys : List StoreStep} (h : SameOutcome s xs ys) : SameOutcome s ys xs :=
  ⟨h.adds.symm, h.commits.symm, h.session.symm⟩

theorem SameOutcome.cons {xs ys : List StoreStep} (h : SameOutcome (s.step x).2 xs ys) :
    SameOutcome s (x :: xs) (x :: ys) where
  adds := by
    rw [transcript_cons, transcript_cons, List.filter_cons, List.filter_cons, h.adds]
  commits := by
    rw [transcript_cons, transcript_cons, List.filter_cons, List.filter_cons, h.commits]
  session := h.session

/-- From sessions that agree, a schedule gets the same answers to its steps of any kind but reads. -/
theorem Agree.filter_transcript (h : Agree s t) {kind : StoreStep → Bool}
    (hkind : ∀ x, kind x = true → x.isRead = false) (xs : List StoreStep) :
    (s.transcript xs).filter (kind ·.1) = (t.transcript xs).filter (kind ·.1) := by
  induction xs generalizing s t with
  | nil => rfl
  | cons x rest ih =>
    rw [transcript_cons, transcript_cons, List.filter_cons, List.filter_cons, ih (h.step x)]
    split
    · next hx => rw [h.answer (hkind x hx)]
    · rfl

theorem Agree.after (h : Agree s t) (xs : List StoreStep) : Agree (s.after xs) (t.after xs) := by
  induction xs generalizing s t with
  | nil => exact h
  | cons x rest ih => exact ih (h.step x)

/-- When two independent steps change places, a kind that not both of them have does not show it. -/
theorem filter_transcript_swap (h : Independent a b) {kind : StoreStep → Bool}
    (hkind : ∀ x, kind x = true → x.isRead = false) (hab : kind a = true → kind b = false)
    (s : StoreSession) (rest : List StoreStep) :
    (s.transcript (a :: b :: rest)).filter (kind ·.1) = (s.transcript (b :: a :: rest)).filter (kind ·.1) := by
  have hrest := (agree_swap h s).filter_transcript hkind rest
  simp only [transcript_cons, List.filter_cons, hrest]
  cases ha : kind a with
  | true =>
    rw [hab ha, (alikeFor_of_independent h s).answer (hkind a ha)]
    rfl
  | false =>
    cases hb : kind b with
    | true =>
      rw [(alikeFor_of_independent h.symm s).answer (hkind b hb)]
      rfl
    | false => rfl

/-- **Independent steps that follow each other may change places.** -/
theorem SameOutcome.swap (h : Independent a b) (s : StoreSession) (rest : List StoreStep) :
    SameOutcome s (a :: b :: rest) (b :: a :: rest) where
  adds := filter_transcript_swap h (fun _ => isRead_of_isAdd) h.add s rest
  commits := filter_transcript_swap h (fun _ => isRead_of_isCommitOrArm) h.commit s rest
  session := (agree_swap h s).after rest

/-- A step may be moved to the front, past steps that are all independent of it. -/
theorem SameOutcome.move_front {before : List StoreStep} (h : ∀ b ∈ before, Independent x b)
    (s : StoreSession) (after : List StoreStep) :
    SameOutcome s (before ++ x :: after) (x :: (before ++ after)) := by
  induction before generalizing s with
  | nil => exact .refl s _
  | cons b rest ih =>
    obtain ⟨hb, hrest⟩ := List.forall_mem_cons.mp h
    exact (SameOutcome.cons (ih hrest (s.step b).2)).trans (.swap hb.symm s (rest ++ after))

/-- **Schedules that keep the same orders have the same outcome.** -/
theorem SameOutcome.of_reordered {xs ys : List StoreStep} (h : Reordered xs ys) (s : StoreSession) :
    SameOutcome s xs ys := by
  -- The first step of the one is moved to the front of the other, where both take it.
  induction xs generalizing s ys with
  | nil =>
    cases ys with
    | nil => exact .refl s []
    | cons y rest =>
      obtain ⟨before, after, hsplit, -⟩ := h.symm.exists_split
      exact absurd hsplit.symm (by simp)
  | cons x rest ih =>
    obtain ⟨before, after, rfl, hindep⟩ := h.exists_split
    have hrest := ih (h.tail hindep) (s.step x).2
    exact hrest.cons.trans (SameOutcome.move_front hindep s after).symm

/-! ### Reads -/

theorem source_congr {p q : PostStore} (h : p.committed = q.committed) : p.source = q.source := by
  unfold PostStore.source PostStore.posts
  rw [h]

/-- What a read shows is decided by the committed posts, whichever unit reads. -/
theorem answer_read_congr (h : s.store.committed = t.store.committed) (u v : String) (filter : PostFilter)
    (steps : List SortStep) (window : Window) (id : Int32) :
    (s.step (.count u filter)).1 = (t.step (.count v filter)).1 ∧
      (s.step (.fetchPage u filter steps window)).1 = (t.step (.fetchPage v filter steps window)).1 ∧
      (s.step (.fetchById u id)).1 = (t.step (.fetchById v id)).1 := by
  simp only [step, source_congr h]
  refine ⟨?_, ?_, ?_⟩
  · cases t.store.source.count filter <;> rfl
  · cases t.store.source.fetch filter steps window <;> rfl
  · exact congrArg (fun posts : Posts => StoreAnswer.found posts[id]?) h

/-! ### Isolation -/

/-- **Units of work are isolated.** The committed posts change only by a commit that goes through. What a unit
reads is decided by the committed posts, whatever is staged and by whom. A commit is one of exactly the changes
that its own unit has staged since its last commit, in the order of staging. Therefore schedules that keep the
order of each unit's steps, the order of all additions, and the order of all commits and armings give out the same
identities, answer the commits in the same way, and leave the same store and the same staged changes. -/
theorem units_isolated :
    (∀ (s : StoreSession) (x : StoreStep), (s.step x).2.store.committed ≠ s.store.committed →
      ∃ u, x = .commit u ∧ (s.step x).1 = .committed true) ∧
    (∀ s t : StoreSession, s.store.committed = t.store.committed →
      ∀ (u v : String) (filter : PostFilter) (steps : List SortStep) (window : Window) (id : Int32),
        (s.step (.count u filter)).1 = (t.step (.count v filter)).1 ∧
        (s.step (.fetchPage u filter steps window)).1 = (t.step (.fetchPage v filter steps window)).1 ∧
        (s.step (.fetchById u id)).1 = (t.step (.fetchById v id)).1) ∧
    (∀ (store : PostStore) (steps : List StoreStep) (u : String),
      let s := ({ store } : StoreSession).after steps
      let changes := stagedSinceCommit u (({ store } : StoreSession).transcript steps)
      (s.step (.commit u)).1 = .ofCommit (s.store.commit changes).1 ∧
      (s.step (.commit u)).2.store = (s.store.commit changes).2 ∧
      ((s.step (.commit u)).1 = .committed true →
        (s.step (.commit u)).2.store.committed = changes.foldl Change.apply s.store.committed)) ∧
    (∀ (s : StoreSession) (xs ys : List StoreStep), Reordered xs ys →
      (s.transcript xs).filter (·.1.isAdd) = (s.transcript ys).filter (·.1.isAdd) ∧
      (s.transcript xs).filter (·.1.isCommitOrArm) = (s.transcript ys).filter (·.1.isCommitOrArm) ∧
      (s.after xs).store = (s.after ys).store ∧ ∀ u, (s.after xs).unit u = (s.after ys).unit u) := by
  refine ⟨fun s x hchanged => ?_, fun s t => answer_read_congr, fun store steps u => ?_, fun s xs ys h => ?_⟩
  · rcases committed_step_cases s x with ⟨u, hx, hanswer, -⟩ | ⟨-, hsame⟩
    · exact ⟨u, hx, hanswer⟩
    · exact absurd hsame hchanged
  · intro s changes
    have hchanges : s.unit u = changes := unit_after (unit_new store u) steps
    refine ⟨?_, ?_, fun hanswer => ?_⟩
    · rw [step_commit, hchanges]
    · rw [step_commit, hchanges]
      rfl
    · rcases committed_step_cases s (.commit u) with ⟨v, hv, -, -, hposts⟩ | ⟨hrefused, -⟩
      · obtain rfl := StoreStep.commit.inj hv
        rw [hposts, hchanges]
      · exact absurd hanswer (hrefused u rfl)
  · have hsame := SameOutcome.of_reordered h s
    exact ⟨hsame.adds, hsame.commits, hsame.session.store, hsame.session.unit⟩

/-- Two units that take turns, one of whose commits meets an armed failure, and the same two units one after the
other. -/
theorem units_isolated_taking_turns :
    let update : Post := { (default : Post) with id := 1 }
    let turns : List StoreStep := [.add "a" default, .add "b" default, .markUpdated "b" update, .commit "a",
      .failNextCommits 1, .remove "a" 1, .commit "b", .commit "a", .add "b" default, .commit "b"]
    let blocks : List StoreStep := [.add "a" default, .commit "a", .remove "a" 1, .add "b" default,
      .markUpdated "b" update, .failNextCommits 1, .commit "b", .add "b" default, .commit "a", .commit "b"]
    Reordered turns blocks ∧
      (({} : StoreSession).after turns).store = (({} : StoreSession).after blocks).store ∧
      (({} : StoreSession).after turns).store.committed.keys = [3] := by
  intro update turns blocks
  have h : Reordered turns blocks := by
    refine ⟨fun u => ?_, by decide, by decide⟩
    by_cases ha : "a" = u
    · subst ha
      decide
    by_cases hb : "b" = u
    · subst hb
      decide
    · simp [turns, blocks, StoreStep.unit?, ha, hb]
  exact ⟨h, (units_isolated.2.2.2 {} turns blocks h).2.2.1, by decide⟩

end StoreSession

end HypermediaApi.Blog

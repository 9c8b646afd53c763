import HypermediaApi.Proofs.Blog.Identities

/-!
# HypermediaApi.Proofs.Blog.Deletion — a deleted post never comes back

Applying an update sets a post, whether it is there or not; only the check before it stands between a stale
update and a post that comes back. That this is enough for all runs rests on where an identity can be. Once it is
settled (`Settled`: given out, and staged in no unit any more) no later addition can bring it in, since additions
take identities that are not given out yet. A settled identity that is not committed is gone for good (`Gone`), and
that is what both a removal and a commit that did not go through leave behind.

The other direction is a matter of history: what is staged in a unit was staged by one of its steps since its last
commit (`exists_added_of_staged`, `staged_of_added`).
-/

namespace HypermediaApi.Blog

open Change (addedIds)

namespace StoreSession

variable {s : StoreSession} {u : String} {x : StoreStep} {id : Int32} {steps : List StoreStep} {i j k : Nat}

/-! ### Settled identities -/

/-- The identity has been given out, and no unit has it staged. -/
structure Settled (id : Int32) (s : StoreSession) : Prop where
  lt_next : id < s.store.nextId
  not_staged : ∀ u, id ∉ addedIds (s.unit u)

/-- The identity is settled, and there is no such post. -/
structure Gone (id : Int32) (s : StoreSession) : Prop extends Settled id s where
  not_committed : id ∉ s.store.committed

theorem FreshIds.settled (h : FreshIds s) (hid : id ∈ s.store.committed) : Settled id s where
  lt_next := (h.committed_lt id hid).2
  not_staged u hu := h.not_committed u id hu hid

theorem Settled.step (h : Settled id s) (hroom : x.isAdd = true → s.store.nextId.toInt + 1 < 2 ^ 31) :
    Settled id (s.step x).2 where
  lt_next := by
    rw [nextId_step]
    split
    · next hx =>
      have hlt := Int32.lt_iff_toInt_lt.mp h.lt_next
      refine Int32.lt_iff_toInt_lt.mpr ?_
      rw [toInt_add_one (hroom hx)]
      omega
    · exact h.lt_next
  not_staged u hu := by
    rcases (mem_addedIds_step hu).2 with hold | ⟨-, -, rfl⟩
    · exact h.not_staged u hold
    · exact Int32.lt_irrefl h.lt_next

/-- **What is gone stays gone.** -/
theorem Gone.step (h : Gone id s) (hroom : x.isAdd = true → s.store.nextId.toInt + 1 < 2 ^ 31) :
    Gone id (s.step x).2 where
  toSettled := h.toSettled.step hroom
  not_committed hid := by
    rcases mem_committed_step hid with hold | ⟨u, -, -, hstaged⟩
    · exact h.not_committed hold
    · exact h.not_staged u hstaged

/-- An identity is gone once the commit that was to bring it in has not gone through. -/
theorem FreshIds.gone_of_refused (h : FreshIds s) (hstaged : id ∈ addedIds (s.unit u))
    (hanswer : (s.step (.commit u)).1 ≠ .committed true) : Gone id (s.step (.commit u)).2 where
  lt_next := by
    rw [nextId_step]
    exact h.staged_lt u id hstaged
  not_staged v hv := by
    obtain ⟨hne, hold | ⟨hadd, -⟩⟩ := mem_addedIds_step hv
    · exact hne (congrArg StoreStep.commit (h.unit_unique u v id hstaged hold))
    · cases hadd
  not_committed hmem := by
    rcases mem_committed_step hmem with hold | ⟨v, -, htrue, -⟩
    · exact h.not_committed u id hstaged hold
    · exact hanswer htrue

/-- A unit that updates or removes a post that is not there commits nothing. -/
theorem commit_of_stale (habsent : id ∉ s.store.committed)
    (hstale : .remove id ∈ s.unit u ∨ ∃ p, .update p ∈ s.unit u ∧ p.id = id) :
    (s.step (.commit u)).1 ≠ .committed true ∧
      (s.step (.commit u)).2.store.committed = s.store.committed := by
  rcases committed_step_cases s (.commit u) with ⟨v, hv, -, hallowed, -⟩ | ⟨hanswer, hposts⟩
  · obtain rfl := StoreStep.commit.inj hv
    rcases hstale with hmem | ⟨p, hmem, rfl⟩
    · cases hallowed _ hmem with
      | remove hthere => exact absurd hthere habsent
    · cases hallowed _ hmem with
      | update _ hthere => exact absurd hthere habsent
  · exact ⟨hanswer u rfl, hposts⟩

/-! ### Later points of a run -/

section Runs

variable (hadds : steps.countP (·.isAdd) < 2 ^ 31 - 1)

include hadds

theorem settled_later (hij : i ≤ j) (h : Settled id (sessionAt steps i)) : Settled id (sessionAt steps j) :=
  sessionAt_induction (fun _ _ hx hn => hn.step (room_of_getElem? hadds hx)) hij h

theorem gone_later (hij : i ≤ j) (h : Gone id (sessionAt steps i)) : Gone id (sessionAt steps j) :=
  sessionAt_induction (fun _ _ hx hn => hn.step (room_of_getElem? hadds hx)) hij h

theorem gone_of_removed (hij : i ≤ j) (hi : id ∈ (sessionAt steps i).store.committed)
    (hj : id ∉ (sessionAt steps j).store.committed) : Gone id (sessionAt steps j) where
  toSettled := settled_later hadds hij ((freshIds_sessionAt hadds i).settled hi)
  not_committed := hj

end Runs

/-! ### Where staged identities come from -/

/-- Step `j` of the run stages an addition of the unit under the identity. -/
def AddedAt (steps : List StoreStep) (u : String) (id : Int32) (j : Nat) : Prop :=
  ∃ p q, (({} : StoreSession).transcript steps)[j]? = some (.add u p, .staged q) ∧ q.id = id

/-- The unit is not committed between the two steps. -/
def Uncommitted (steps : List StoreStep) (u : String) (j i : Nat) : Prop :=
  ∀ m, j < m → m < i → steps[m]? ≠ some (.commit u)

theorem Uncommitted.succ (h : Uncommitted steps u j i) (hi : steps[i]? ≠ some (.commit u)) :
    Uncommitted steps u j (i + 1) := by
  intro m hjm hmi
  rcases Nat.lt_succ_iff_lt_or_eq.mp hmi with hlt | rfl
  · exact h m hjm hlt
  · exact hi

/-- **A staged identity was staged by a step of its unit since the unit's last commit.** -/
theorem exists_added_of_staged (h : id ∈ addedIds ((sessionAt steps i).unit u)) :
    ∃ j, j < i ∧ AddedAt steps u id j ∧ Uncommitted steps u j i := by
  induction i with
  | zero => cases h
  | succ i ih =>
    cases hx : steps[i]? with
    | none =>
      rw [sessionAt_succ_of_none hx] at h
      obtain ⟨j, hj, hadded, huncommitted⟩ := ih h
      exact ⟨j, Nat.lt_succ_of_lt hj, hadded, huncommitted.succ (by simp [hx])⟩
    | some x =>
      rw [sessionAt_succ hx] at h
      obtain ⟨hcommit, hold | ⟨hadd, hunit, rfl⟩⟩ := mem_addedIds_step h
      · obtain ⟨j, hj, hadded, huncommitted⟩ := ih hold
        exact ⟨j, Nat.lt_succ_of_lt hj, hadded, huncommitted.succ (by simp [hx, hcommit])⟩
      · cases x with
        | add v p =>
          obtain rfl := Option.some.inj hunit
          refine ⟨i, Nat.lt_succ_self i, ⟨p, _, getElem?_transcript_new hx, rfl⟩, fun m him hmi => ?_⟩
          omega
        | _ => cases hadd

/-- **An identity is staged from the addition to the next commit of its unit.** -/
theorem staged_of_added (hadded : AddedAt steps u id j) (hji : j < i) (h : Uncommitted steps u j i) :
    id ∈ addedIds ((sessionAt steps i).unit u) := by
  obtain ⟨p, q, hentry, rfl⟩ := hadded
  induction hji with
  | refl =>
    rw [getElem?_transcript, Option.map_eq_some_iff] at hentry
    obtain ⟨x, hx, heq⟩ := hentry
    obtain ⟨rfl, hanswer⟩ := Prod.mk.inj heq
    obtain rfl := StoreAnswer.staged.inj hanswer
    rw [sessionAt_succ hx, addedIds_step, if_neg nofun, if_pos ⟨rfl, rfl⟩]
    exact List.mem_append_right _ (List.mem_singleton_self _)
  | @step i hji ih =>
    have hold := ih fun m hjm hmi => h m hjm (Nat.lt_succ_of_lt hmi)
    cases hx : steps[i]? with
    | none =>
      rw [sessionAt_succ_of_none hx]
      exact hold
    | some x =>
      have hcommit : x ≠ .commit u := fun heq => h i hji (Nat.lt_succ_self i) (heq ▸ hx)
      rw [sessionAt_succ hx, addedIds_step, if_neg hcommit]
      exact List.mem_append_left _ hold

/-! ### Deletion is final -/

/-- The identity is not among the posts before step `i` of the run, and it is after it. -/
def EntersAt (steps : List StoreStep) (id : Int32) (i : Nat) : Prop :=
  id ∉ (sessionAt steps i).store.committed ∧ id ∈ (sessionAt steps (i + 1)).store.committed

/-- An identity enters by a commit that goes through, of a unit that has it staged. -/
theorem EntersAt.commit (h : EntersAt steps id i) :
    ∃ u, (({} : StoreSession).transcript steps)[i]? = some (.commit u, .committed true) ∧
      id ∈ addedIds ((sessionAt steps i).unit u) := by
  obtain ⟨hbefore, hafter⟩ := h
  cases hx : steps[i]? with
  | none =>
    rw [sessionAt_succ_of_none hx] at hafter
    exact absurd hafter hbefore
  | some x =>
    rw [sessionAt_succ hx] at hafter
    rcases mem_committed_step hafter with hold | ⟨u, rfl, hanswer, hstaged⟩
    · exact absurd hold hbefore
    · exact ⟨u, by rw [getElem?_transcript_new hx, hanswer], hstaged⟩

/-- **A deleted post never comes back.** In a run from a new store with fewer than `2 ^ 31 - 1` additions, an
identity enters the posts by one commit at most: the one that goes through next after an addition was given the
identity, of that addition's unit. Once it has been among the posts and is not any more, it is not at any later
point; and a unit that still updates or removes it commits nothing. If the commit that was to bring it in does not
go through, it is never among the posts. -/
theorem deleted_stays_deleted (hadds : steps.countP (·.isAdd) < 2 ^ 31 - 1) (id : Int32) :
    (∀ i, EntersAt steps id i →
      ∃ u j, j < i ∧ AddedAt steps u id j ∧ Uncommitted steps u j i ∧
        (({} : StoreSession).transcript steps)[i]? = some (.commit u, .committed true)) ∧
    (∀ i i', EntersAt steps id i → EntersAt steps id i' → i = i') ∧
    (∀ i j, i ≤ j → id ∈ (sessionAt steps i).store.committed → id ∉ (sessionAt steps j).store.committed →
      ∀ k, j ≤ k → id ∉ (sessionAt steps k).store.committed ∧
        ∀ u, (.remove id ∈ (sessionAt steps k).unit u ∨
            ∃ p, .update p ∈ (sessionAt steps k).unit u ∧ p.id = id) →
          ((sessionAt steps k).step (.commit u)).1 ≠ .committed true ∧
          ((sessionAt steps k).step (.commit u)).2.store.committed = (sessionAt steps k).store.committed) ∧
    (∀ u j i answer, j < i → AddedAt steps u id j → Uncommitted steps u j i →
      (({} : StoreSession).transcript steps)[i]? = some (.commit u, answer) → answer ≠ .committed true →
        ∀ k, id ∉ (sessionAt steps k).store.committed) := by
  have habsent : ∀ i j k, i ≤ j → j ≤ k → id ∈ (sessionAt steps i).store.committed →
      id ∉ (sessionAt steps j).store.committed → id ∉ (sessionAt steps k).store.committed :=
    fun i j k hij hjk hi hj => (gone_later hadds hjk (gone_of_removed hadds hij hi hj)).not_committed
  refine ⟨fun i hi => ?_, fun i i' hi hi' => ?_, fun i j hij hi hj k hjk => ?_,
    fun u j i answer hji hadded huncommitted hentry hanswer k hk => ?_⟩
  · obtain ⟨u, hcommit, hstaged⟩ := hi.commit
    obtain ⟨j, hj, hadded, huncommitted⟩ := exists_added_of_staged hstaged
    exact ⟨u, j, hj, hadded, huncommitted, hcommit⟩
  · -- To enter twice, it would have to be absent again in between.
    rcases Nat.lt_trichotomy i i' with hlt | heq | hlt
    · exact absurd hi'.2 (habsent (i + 1) i' (i' + 1) hlt (Nat.le_succ i') hi.2 hi'.1)
    · exact heq
    · exact absurd hi.2 (habsent (i' + 1) i (i + 1) hlt (Nat.le_succ i) hi'.2 hi.1)
  · have hk := habsent i j k hij hjk hi hj
    exact ⟨hk, fun u hstale => commit_of_stale hk hstale⟩
  · have hstaged := staged_of_added hadded hji huncommitted
    have hfresh := freshIds_sessionAt hadds i
    rcases Nat.le_total k i with hki | hik
    · -- Had it been there before, it would be settled, and not staged.
      have hsettled := settled_later hadds hki ((freshIds_sessionAt hadds k).settled hk)
      exact hsettled.not_staged u hstaged
    · have hgone : Gone id (sessionAt steps (i + 1)) := by
        rw [getElem?_transcript, Option.map_eq_some_iff] at hentry
        obtain ⟨x, hx, heq⟩ := hentry
        obtain ⟨rfl, rfl⟩ := Prod.mk.inj heq
        rw [sessionAt_succ hx]
        exact hfresh.gone_of_refused hstaged hanswer
      rcases Nat.eq_or_lt_of_le hik with rfl | hlt
      · exact hfresh.not_committed u id hstaged hk
      · exact (gone_later hadds hlt hgone).not_committed hk

/-- A post is added, committed and removed, while another unit still has an update of it staged: it has entered
once, and it is absent from the removal on, however the run goes on. -/
theorem deleted_stays_deleted_after_stale_update :
    let steps : List StoreStep := [.add "a" default, .commit "a", .markUpdated "b" { (default : Post) with id := 1 },
      .remove "a" 1, .commit "a", .commit "b"]
    steps.countP (·.isAdd) < 2 ^ 31 - 1 ∧ EntersAt steps 1 1 ∧ (∀ i, EntersAt steps 1 i → i = 1) ∧
      1 ∉ (sessionAt steps 5).store.committed ∧ ∀ k, 5 ≤ k → 1 ∉ (sessionAt steps k).store.committed := by
  intro steps
  have hadds : steps.countP (·.isAdd) < 2 ^ 31 - 1 := by decide
  have henters : EntersAt steps 1 1 := ⟨by decide, by decide⟩
  have hremoved : 1 ∉ (sessionAt steps 5).store.committed := by decide
  obtain ⟨-, honce, hgone, -⟩ := deleted_stays_deleted hadds 1
  exact ⟨hadds, henters, fun i hi => honce i 1 hi henters, hremoved,
    fun k hk => (hgone 2 5 (by decide) henters.2 hremoved k hk).1⟩

end StoreSession

end HypermediaApi.Blog

import HypermediaApi.Proofs.Blog.Reachable
import HypermediaApi.Proofs.Blog.Session
import Mathlib.Algebra.Group.Int.Defs
import Mathlib.Algebra.Group.Nat.Defs

/-!
# HypermediaApi.Proofs.Blog.Identities — every post gets an identity of its own

Identities are given out when posts are staged, long before a commit, which may fail. `FreshIds` says of all
units at once that an identity which is staged or committed has been given out, that it is not both, and that it is
staged only once. Every step keeps this as long as the counter does not run over (`FreshIds.step`), hence every run
that adds fewer than `2 ^ 31 - 1` posts does (`freshIds_sessionAt`).

A commit sets added and updated posts in the same way, so this is what keeps an addition from replacing a post.
-/

namespace HypermediaApi.Blog

open Change (addedIds)

theorem addedIds_append (staged staged' : UnitOfWork) :
    addedIds (staged ++ staged') = addedIds staged ++ addedIds staged' :=
  List.filterMap_append

/-- The successor of an identity, as long as there is one. -/
theorem toInt_add_one {n : Int32} (h : n.toInt + 1 < 2 ^ 31) : (n + 1).toInt = n.toInt + 1 := by
  have hlow := Int32.le_toInt n
  rw [Int32.toInt_add, show (1 : Int32).toInt = 1 from rfl]
  exact Int.bmod_eq_of_le (by omega) (by omega)

namespace StoreSession

variable {s : StoreSession} {u v : String} {x : StoreStep} {id : Int32} {steps : List StoreStep}

/-! ### Where identities go -/

/-- Adding a post to a unit stages the next identity there, a commit empties the unit, and no other step
concerns the identities staged in it. -/
theorem addedIds_step (s : StoreSession) (x : StoreStep) (u : String) :
    addedIds ((s.step x).2.unit u) =
      if x = .commit u then []
      else addedIds (s.unit u) ++ if x.isAdd ∧ x.unit? = some u then [s.store.nextId] else [] := by
  rw [unit_step]
  split
  · rfl
  rw [addedIds_append]
  congr 1
  cases x with
  | add v p =>
    by_cases h : v = u
    · subst h
      simp [stagedBy, step, PostStore.stageAdd, addedIds, StoreStep.isAdd, StoreStep.unit?]
    · simp [stagedBy, step, PostStore.stageAdd, addedIds, StoreStep.isAdd, StoreStep.unit?, h]
  | markUpdated v p => by_cases h : v = u <;> simp [stagedBy, addedIds, StoreStep.isAdd, h]
  | remove v id => by_cases h : v = u <;> simp [stagedBy, addedIds, StoreStep.isAdd, h]
  | _ => rfl

theorem mem_addedIds_step (h : id ∈ addedIds ((s.step x).2.unit u)) :
    x ≠ .commit u ∧
      (id ∈ addedIds (s.unit u) ∨ x.isAdd = true ∧ x.unit? = some u ∧ id = s.store.nextId) := by
  rw [addedIds_step] at h
  split at h
  · cases h
  next hcommit =>
  refine ⟨hcommit, (List.mem_append.mp h).imp_right fun hnew => ?_⟩
  split at hnew
  · next hadd => exact ⟨hadd.1, hadd.2, List.mem_singleton.mp hnew⟩
  · cases hnew

/-- **An identity enters the committed posts by a commit of the unit that has it staged.** -/
theorem mem_committed_step (h : id ∈ (s.step x).2.store.committed) :
    id ∈ s.store.committed ∨
      ∃ u, x = .commit u ∧ (s.step x).1 = .committed true ∧ id ∈ addedIds (s.unit u) := by
  rcases committed_step_cases s x with ⟨u, hx, hanswer, hallowed, hposts⟩ | ⟨-, hposts⟩
  · rw [hposts] at h
    exact (Change.mem_of_mem_foldl_apply hallowed h).imp_right fun hadded => ⟨u, hx, hanswer, hadded⟩
  · rw [hposts] at h
    exact .inl h

/-! ### The invariant -/

/-- Identities that are committed or staged have been given out, and each of them is in one place. -/
structure FreshIds (s : StoreSession) : Prop where
  next_pos : 1 ≤ s.store.nextId
  committed_lt : ∀ id ∈ s.store.committed, 1 ≤ id ∧ id < s.store.nextId
  staged_lt : ∀ u, ∀ id ∈ addedIds (s.unit u), id < s.store.nextId
  staged_pos : ∀ u, ∀ id ∈ addedIds (s.unit u), 1 ≤ id
  not_committed : ∀ u, ∀ id ∈ addedIds (s.unit u), id ∉ s.store.committed
  nodup : ∀ u, (addedIds (s.unit u)).Nodup
  unit_unique : ∀ u v, ∀ id ∈ addedIds (s.unit u), id ∈ addedIds (s.unit v) → u = v

theorem freshIds_new : FreshIds {} where
  next_pos := by decide
  committed_lt id h := absurd h Std.TreeMap.not_mem_emptyc
  staged_lt u id h := by cases h
  staged_pos u id h := by cases h
  not_committed u id h := by cases h
  nodup u := .nil
  unit_unique u v id h := by cases h

/-- Adding a post keeps identities fresh: it takes the next one, which is nowhere yet. -/
theorem FreshIds.step_add (h : FreshIds s) (hx : x.isAdd = true) (hroom : s.store.nextId < s.store.nextId + 1) :
    FreshIds (s.step x).2 := by
  have hnext : (s.step x).2.store.nextId = s.store.nextId + 1 := by rw [nextId_step, if_pos hx]
  have hposts : (s.step x).2.store.committed = s.store.committed :=
    committed_step s (by cases x <;> first | rfl | cases hx)
  have hnot_staged (u : String) : s.store.nextId ∉ addedIds (s.unit u) := fun hmem =>
    Int32.lt_irrefl (h.staged_lt u _ hmem)
  have hnot_committed : s.store.nextId ∉ s.store.committed := fun hmem =>
    Int32.lt_irrefl (h.committed_lt _ hmem).2
  constructor
  case next_pos =>
    rw [hnext]
    exact Int32.le_of_lt (Int32.lt_of_le_of_lt h.next_pos hroom)
  case committed_lt =>
    intro id hid
    rw [hposts] at hid
    rw [hnext]
    exact ⟨(h.committed_lt id hid).1, Int32.lt_trans (h.committed_lt id hid).2 hroom⟩
  case staged_lt =>
    intro u id hid
    rw [hnext]
    rcases (mem_addedIds_step hid).2 with hold | ⟨-, -, rfl⟩
    · exact Int32.lt_trans (h.staged_lt u id hold) hroom
    · exact hroom
  case staged_pos =>
    intro u id hid
    rcases (mem_addedIds_step hid).2 with hold | ⟨-, -, rfl⟩
    · exact h.staged_pos u id hold
    · exact h.next_pos
  case not_committed =>
    intro u id hid
    rw [hposts]
    rcases (mem_addedIds_step hid).2 with hold | ⟨-, -, rfl⟩
    · exact h.not_committed u id hold
    · exact hnot_committed
  case nodup =>
    intro u
    rw [addedIds_step]
    split
    · exact .nil
    split
    · exact (h.nodup u).append (List.nodup_singleton _) (by simpa using hnot_staged u)
    · rw [List.append_nil]
      exact h.nodup u
  case unit_unique =>
    intro u v id hu hv
    rcases (mem_addedIds_step hu).2 with hold | ⟨-, hunit, rfl⟩
    · rcases (mem_addedIds_step hv).2 with hold' | ⟨-, -, rfl⟩
      · exact h.unit_unique u v id hold hold'
      · exact absurd hold (hnot_staged u)
    · rcases (mem_addedIds_step hv).2 with hold' | ⟨-, hunit', -⟩
      · exact absurd hold' (hnot_staged v)
      · exact Option.some.inj (hunit.symm.trans hunit')

/-- Steps that add nothing keep identities fresh: a commit only moves them from its unit to the posts. -/
theorem FreshIds.step_of_not_add (h : FreshIds s) (hx : x.isAdd = false) : FreshIds (s.step x).2 := by
  have hnext : (s.step x).2.store.nextId = s.store.nextId := by
    rw [nextId_step, hx]
    rfl
  have hstaged {u : String} {id : Int32} (hid : id ∈ addedIds ((s.step x).2.unit u)) :
      x ≠ .commit u ∧ id ∈ addedIds (s.unit u) := by
    obtain ⟨hcommit, hid | ⟨hadd, -⟩⟩ := mem_addedIds_step hid
    · exact ⟨hcommit, hid⟩
    · exact absurd hadd (by simp [hx])
  constructor
  case next_pos =>
    rw [hnext]
    exact h.next_pos
  case committed_lt =>
    intro id hid
    rw [hnext]
    rcases mem_committed_step hid with hid | ⟨u, -, -, hid⟩
    · exact h.committed_lt id hid
    · exact ⟨h.staged_pos u id hid, h.staged_lt u id hid⟩
  case staged_lt =>
    intro u id hid
    rw [hnext]
    exact h.staged_lt u id (hstaged hid).2
  case staged_pos => exact fun u id hid => h.staged_pos u id (hstaged hid).2
  case not_committed =>
    intro u id hid hposts
    obtain ⟨hcommit, hold⟩ := hstaged hid
    rcases mem_committed_step hposts with hmem | ⟨v, rfl, -, hv⟩
    · exact h.not_committed u id hold hmem
    · exact hcommit (congrArg StoreStep.commit (h.unit_unique v u id hv hold))
  case nodup =>
    intro u
    rw [addedIds_step]
    split
    · exact .nil
    · rw [if_neg (by simp [hx]), List.append_nil]
      exact h.nodup u
  case unit_unique => exact fun u v id hu hv => h.unit_unique u v id (hstaged hu).2 (hstaged hv).2

/-- **Every step keeps identities fresh, as long as the counter does not run over.** -/
theorem FreshIds.step (h : FreshIds s) (x : StoreStep)
    (hroom : x.isAdd = true → s.store.nextId.toInt + 1 < 2 ^ 31) : FreshIds (s.step x).2 := by
  cases hx : x.isAdd with
  | true =>
    refine h.step_add hx (Int32.lt_iff_toInt_lt.mpr ?_)
    rw [toInt_add_one (hroom hx)]
    exact Int.lt_succ _
  | false => exact h.step_of_not_add hx

/-- **An allowed addition replaces no post**, not even one that a change before it in its unit brings in. -/
theorem FreshIds.not_mem_before_add (h : FreshIds s) {before after : UnitOfWork} {p : Post}
    (hallowed : ∀ c ∈ s.unit u, c.Allowed s.store.committed) (hunit : s.unit u = before ++ .add p :: after) :
    p.id ∉ before.foldl Change.apply s.store.committed := by
  have hadded : addedIds (s.unit u) = addedIds before ++ p.id :: addedIds after := by
    rw [hunit, addedIds_append]
    rfl
  intro hmem
  have hbefore : ∀ c ∈ before, c.Allowed s.store.committed := fun c hc =>
    hallowed c (hunit ▸ List.mem_append_left _ hc)
  rcases Change.mem_of_mem_foldl_apply hbefore hmem with hposts | hstaged
  · refine h.not_committed u p.id ?_ hposts
    rw [hadded]
    exact List.mem_append_right _ List.mem_cons_self
  · have hnodup := h.nodup u
    rw [hadded] at hnodup
    exact (List.nodup_append.mp hnodup).2.2 _ hstaged _ List.mem_cons_self rfl

/-! ### Room for additions -/

/-- The counter has moved on by the number of additions, if that many identities were left. -/
theorem toInt_nextId_after (hroom : s.store.nextId.toInt + steps.countP (·.isAdd) < 2 ^ 31) :
    (s.after steps).store.nextId.toInt = s.store.nextId.toInt + steps.countP (·.isAdd) := by
  induction steps generalizing s with
  | nil => simp
  | cons x rest ih =>
    rw [List.countP_cons] at hroom ⊢
    rw [after_cons]
    cases hx : x.isAdd with
    | true =>
      rw [hx, if_pos rfl] at hroom
      have hnext : (s.step x).2.store.nextId.toInt = s.store.nextId.toInt + 1 := by
        rw [nextId_step, if_pos hx, toInt_add_one (by omega)]
      rw [ih (by omega), hnext, if_pos rfl]
      omega
    | false =>
      rw [hx, if_neg (by simp)] at hroom
      have hnext : (s.step x).2.store.nextId = s.store.nextId := by rw [nextId_step, if_neg (by simp [hx])]
      rw [ih (by rw [hnext]; omega), hnext, if_neg (by simp)]
      omega

section Runs

variable (hadds : steps.countP (·.isAdd) < 2 ^ 31 - 1)

include hadds

/-- In a run with few enough additions there is an identity for each of them. -/
theorem room_of_getElem? {i : Nat} (h : steps[i]? = some x) :
    x.isAdd = true → (sessionAt steps i).store.nextId.toInt + 1 < 2 ^ 31 := by
  intro hx
  have hsucc : (steps.take (i + 1)).countP (·.isAdd) = (steps.take i).countP (·.isAdd) + 1 := by
    rw [List.take_add_one, h, List.countP_append]
    simp [hx]
  have hle : (steps.take (i + 1)).countP (·.isAdd) ≤ steps.countP (·.isAdd) :=
    (List.take_sublist (i + 1) steps).countP_le
  have hnew : (({} : StoreSession).store.nextId).toInt = 1 := rfl
  unfold sessionAt
  rw [toInt_nextId_after (by omega)]
  omega

/-- **In a run with few enough additions identities are fresh at every point.** -/
theorem freshIds_sessionAt (n : Nat) : FreshIds (sessionAt steps n) :=
  sessionAt_induction (fun _ x hx hn => hn.step x (room_of_getElem? hadds hx)) (Nat.zero_le n) freshIds_new

/-- **The identity that is next has never been used**, neither for a post nor for one that is yet to be committed. -/
theorem nextId_not_used_before (n : Nat) :
    (({} : StoreSession).after steps).store.nextId ∉ (sessionAt steps n).store.committed ∧
      ∀ u, (({} : StoreSession).after steps).store.nextId ∉ addedIds ((sessionAt steps n).unit u) := by
  have hle : (sessionAt steps n).store.nextId ≤ (({} : StoreSession).after steps).store.nextId := by
    have hcount : (steps.take n).countP (·.isAdd) ≤ steps.countP (·.isAdd) :=
      (List.take_sublist n steps).countP_le
    have hnew : (({} : StoreSession).store.nextId).toInt = 1 := rfl
    unfold sessionAt
    rw [Int32.le_iff_toInt_le, toInt_nextId_after (by omega), toInt_nextId_after (by omega)]
    omega
  have hfresh : FreshIds (sessionAt steps n) := freshIds_sessionAt hadds n
  have hnot_lt := Int32.not_lt.mpr hle
  exact ⟨fun h => hnot_lt (hfresh.committed_lt _ h).2, fun u h => hnot_lt (hfresh.staged_lt u _ h)⟩

end Runs

/-! ### The answers to additions -/

theorem length_filter_transcript (s : StoreSession) (steps : List StoreStep) :
    ((s.transcript steps).filter (·.1.isAdd)).length = steps.countP (·.isAdd) := by
  induction steps generalizing s with
  | nil => rfl
  | cons x rest ih =>
    rw [transcript_cons, List.filter_cons, List.countP_cons]
    split
    · rw [List.length_cons, ih]
    · rw [ih, Nat.add_zero]

/-- **Additions take the identities in turn**, wrapping around like the counter. -/
theorem answer_of_getElem?_adds {k : Nat} {p : Post} {answer : StoreAnswer}
    (h : ((s.transcript steps).filter (·.1.isAdd))[k]? = some (.add u p, answer)) :
    answer = .staged { p with id := s.store.nextId + .ofNat k } := by
  induction steps generalizing s k with
  | nil => cases h
  | cons x rest ih =>
    rw [transcript_cons, List.filter_cons] at h
    cases hx : x.isAdd with
    | false =>
      rw [if_neg (by simp [hx])] at h
      have hanswer := ih h
      rw [nextId_step, if_neg (by simp [hx])] at hanswer
      exact hanswer
    | true =>
      rw [if_pos hx] at h
      cases k with
      | zero =>
        obtain ⟨rfl, rfl⟩ := Prod.mk.inj (Option.some.inj h)
        rw [show Int32.ofNat 0 = 0 from rfl, Int32.add_zero]
        rfl
      | succ k =>
        have hanswer := ih h
        rw [nextId_step, if_pos hx, Int32.add_assoc, Int32.add_comm 1] at hanswer
        rw [Int32.ofNat_add]
        exact hanswer

/-! ### Fresh identities over whole runs -/

/-- **Every post gets an identity of its own.** In a run from a new store that adds at most `2 ^ 31 - 2` posts,
the additions get the identities 1, 2, 3 and so on, whatever identity the caller writes into the post and whatever
becomes of the commits. Whenever one looks, a committed post is stored under its own identity, which has been
given out, and its remark keeps to the limit. An identity that is staged has been given out, is staged only once
in all units together, and is not committed. So a commit that goes through replaces no post by an addition. -/
theorem identities_fresh (hadds : steps.countP (·.isAdd) ≤ 2 ^ 31 - 2) :
    let s := ({} : StoreSession).after steps
    (∀ k u p answer, ((({} : StoreSession).transcript steps).filter (·.1.isAdd))[k]? = some (.add u p, answer) →
      answer = .staged { p with id := .ofNat (k + 1) } ∧ (Int32.ofNat (k + 1)).toInt = k + 1) ∧
    (∀ (id : Int32) (post : Post), s.store.committed[id]? = some post →
      post.id = id ∧ 1 ≤ id ∧ id < s.store.nextId ∧ post.RemarkFits) ∧
    (∀ u, ∀ id ∈ addedIds (s.unit u),
      id < s.store.nextId ∧ id ∉ s.store.committed ∧ (addedIds (s.unit u)).count id = 1 ∧
        ∀ v, v ≠ u → id ∉ addedIds (s.unit v)) ∧
    (∀ u before p after, s.unit u = before ++ .add p :: after → (s.step (.commit u)).1 = .committed true →
      p.id ∉ before.foldl Change.apply s.store.committed) := by
  intro s
  have hfresh : FreshIds s := by
    rw [show s = sessionAt steps steps.length from (sessionAt_length steps).symm]
    exact freshIds_sessionAt (by omega) steps.length
  refine ⟨fun k u p answer hk => ?_, fun id post hget => ?_, fun u id hid => ?_,
    fun u before p after hunit hanswer => ?_⟩
  · have hlt : k < steps.countP (·.isAdd) := by
      rw [← length_filter_transcript {} steps]
      exact (List.getElem?_eq_some_iff.mp hk).1
    refine ⟨?_, Int32.toInt_ofNat_of_lt (by omega)⟩
    rw [answer_of_getElem?_adds hk, Nat.add_comm k, Int32.ofNat_add]
    rfl
  · have hreachable : s.store.Reachable := reachable_run .empty steps
    have hrange := hfresh.committed_lt id (Std.TreeMap.mem_iff_isSome_getElem?.mpr (by rw [hget]; rfl))
    exact ⟨hreachable.keyed id post hget, hrange.1, hrange.2, hreachable.remarksFit id post hget⟩
  · refine ⟨hfresh.staged_lt u id hid, hfresh.not_committed u id hid,
      List.count_eq_one_of_mem (hfresh.nodup u) hid, fun v hv hidv => ?_⟩
    exact hv (hfresh.unit_unique v u id hidv hid)
  · obtain ⟨hallowed, -⟩ | ⟨hrefused, -⟩ := s.store.commit_cases (s.unit u)
    · exact hfresh.not_mem_before_add hallowed hunit
    · exact absurd (answer_commit_eq_true_iff.mp hanswer) hrefused

/-- The third addition gets the identity 3 although the post says 7 and the commit of the first one has failed; it
is staged in its unit and nowhere else. -/
theorem identities_fresh_after_failure :
    let steps : List StoreStep := [.add "a" default, .failNextCommits 1, .commit "a", .add "b" default,
      .commit "b", .add "a" { (default : Post) with id := 7 }]
    let s := ({} : StoreSession).after steps
    steps.countP (·.isAdd) ≤ 2 ^ 31 - 2 ∧ addedIds (s.unit "a") = [3] ∧ 2 ∈ s.store.committed ∧
      3 ∉ s.store.committed ∧ ∀ v, v ≠ "a" → 3 ∉ addedIds (s.unit v) := by
  intro steps s
  have hadds : steps.countP (·.isAdd) ≤ 2 ^ 31 - 2 := by decide
  have hstaged : addedIds (s.unit "a") = [3] := by decide
  obtain ⟨-, hnot, -, hothers⟩ := (identities_fresh hadds).2.2.1 "a" 3 (hstaged ▸ List.mem_singleton_self 3)
  exact ⟨hadds, hstaged, by decide, hnot, hothers⟩

end StoreSession

end HypermediaApi.Blog

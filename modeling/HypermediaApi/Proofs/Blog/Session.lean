import HypermediaApi.Proofs.Blog.Commit
import Mathlib.Data.List.DropRight

/-!
# HypermediaApi.Proofs.Blog.Session — what one step of a session does, and what steps add up to

A session has three parts: the committed posts together with the armed failures (`base`), the identity that is
given out next, and the staged changes of each unit. A step reads and writes few of them. Adding a post takes an
identity (`nextId_step`); committing and arming failures concern the base (`base_step`); and the changes of a unit
are touched by its own steps only (`unit_step`). The lemmas say this once, part by part, so that the theory of
whole runs never opens `step`. For a commit they add up to `commit_all_or_nothing`.

A transcript pairs the steps of a run with their answers. What a unit has staged can be read off it, as the
changes of its steps since its last commit (`unit_after`). The points of a run are the sessions between its steps;
what each step keeps is carried from one to the next by `sessionAt_induction`.
-/

namespace HypermediaApi.Blog

namespace StoreStep

/-- The unit of work that takes the step; arming failures is done to the store itself. -/
def unit? : StoreStep → Option String
  | add unit _ => some unit
  | markUpdated unit _ => some unit
  | remove unit _ => some unit
  | commit unit => some unit
  | count unit _ => some unit
  | fetchPage unit _ _ _ => some unit
  | fetchById unit _ => some unit
  | failNextCommits _ => none

/-- The step stages a new post. -/
def isAdd : StoreStep → Bool
  | add _ _ => true
  | _ => false

/-- The step commits a unit, or decides how the next commits end. -/
def isCommitOrArm : StoreStep → Bool
  | commit _ => true
  | failNextCommits _ => true
  | _ => false

/-- The step only reads. -/
def isRead : StoreStep → Bool
  | count _ _ => true
  | fetchPage _ _ _ _ => true
  | fetchById _ _ => true
  | _ => false

end StoreStep

/-- The answer to a commit with the given outcome. -/
def StoreAnswer.ofCommit : Except StorageError Bool → StoreAnswer
  | .ok saved => .committed saved
  | .error error => .failed error

/-- The change that a step with its answer stages in the given unit. -/
def stagedBy (unit : String) : StoreStep × StoreAnswer → Option Change
  | (.add u _, .staged post) => if u = unit then some (.add post) else none
  | (.markUpdated u post, _) => if u = unit then some (.update post) else none
  | (.remove u id, _) => if u = unit then some (.remove id) else none
  | _ => none

/-- The changes that a transcript stages in the given unit since its last commit. -/
def stagedSinceCommit (unit : String) (transcript : List (StoreStep × StoreAnswer)) : List Change :=
  (transcript.rtakeWhile fun e => e.1 ≠ .commit unit).filterMap (stagedBy unit)

namespace StoreSession

variable {s : StoreSession} {u v : String} {x : StoreStep}

/-! ### The staged changes of units -/

theorem unit_setUnit (s : StoreSession) (u v : String) (staged : UnitOfWork) :
    (s.setUnit u staged).unit v = if u = v then staged else s.unit v := by
  unfold unit setUnit
  rw [OrderedMap.get?_insert]
  by_cases h : v = u
  · rw [if_pos h, if_pos h.symm]
    rfl
  · rw [if_neg h, if_neg (Ne.symm h)]

/-- The units of a new session have nothing staged. -/
@[simp] theorem unit_new (store : PostStore) (u : String) : ({ store } : StoreSession).unit u = [] := rfl

/-! ### One step -/

/-- A commit asks the store to take the staged changes of the unit, which has none afterwards. -/
theorem step_commit (s : StoreSession) (u : String) :
    s.step (.commit u) = (.ofCommit (s.store.commit (s.unit u)).1,
      { s with store := (s.store.commit (s.unit u)).2 }.setUnit u []) := by
  simp only [step]
  cases (s.store.commit (s.unit u)).1 <;> rfl

/-- A commit is answered with `true` exactly if the store lets it through. -/
theorem answer_commit_eq_true_iff :
    (s.step (.commit u)).1 = .committed true ↔ (s.store.commit (s.unit u)).1 = .ok true := by
  rw [step_commit]
  cases (s.store.commit (s.unit u)).1 <;> simp [StoreAnswer.ofCommit]

/-- Reading leaves the session as it is. -/
theorem step_of_isRead (s : StoreSession) (h : x.isRead = true) : (s.step x).2 = s := by
  cases x with
  | count unit filter => rfl
  | fetchPage unit filter steps window =>
    simp only [step]
    split <;> rfl
  | fetchById unit id => rfl
  | _ => cases h

/-- **Adding a post takes an identity, and no other step does.** -/
theorem nextId_step (s : StoreSession) (x : StoreStep) :
    (s.step x).2.store.nextId = if x.isAdd then s.store.nextId + 1 else s.store.nextId := by
  cases x with
  | commit u =>
    rw [step_commit]
    exact PostStore.nextId_commit s.store (s.unit u)
  | fetchPage unit filter steps window =>
    rw [step_of_isRead s rfl]
    rfl
  | _ => rfl

/-- The committed posts and the armed failures. -/
def base (s : StoreSession) : Posts × UInt32 := (s.store.committed, s.store.armedFailures)

/-- **Only commits and the arming of failures concern the committed posts and the armed failures.** -/
theorem base_step (s : StoreSession) (h : x.isCommitOrArm = false) : (s.step x).2.base = s.base := by
  cases x with
  | fetchPage unit filter steps window => rw [step_of_isRead s rfl]
  | commit u => cases h
  | failNextCommits count => cases h
  | _ => rfl

theorem committed_step (s : StoreSession) (h : x.isCommitOrArm = false) :
    (s.step x).2.store.committed = s.store.committed :=
  congrArg Prod.fst (base_step s h)

/-- **A unit loses its changes by its commit, and gains what is staged in it.** -/
theorem unit_step (s : StoreSession) (x : StoreStep) (u : String) :
    (s.step x).2.unit u =
      if x = .commit u then [] else s.unit u ++ (stagedBy u (x, (s.step x).1)).toList := by
  have hset {t : StoreSession} (hunits : t.units = s.units) (v : String) (c : Change) :
      (t.setUnit v (s.unit v ++ [c])).unit u =
        s.unit u ++ (if v = u then some c else none).toList := by
    have hunit : t.unit u = s.unit u := congrArg (fun units => (units.get? u).getD []) hunits
    rw [unit_setUnit, hunit]
    split
    · next h => rw [h, Option.toList_some]
    · rw [Option.toList_none, List.append_nil]
  cases x with
  | add v p => exact hset rfl v _
  | markUpdated v p => exact hset rfl v _
  | remove v id => exact hset rfl v _
  | commit v =>
    rw [step_commit, unit_setUnit]
    by_cases h : v = u
    · rw [if_pos h, if_pos (congrArg StoreStep.commit h)]
    · rw [if_neg h, if_neg (mt StoreStep.commit.inj h)]
      exact (List.append_nil _).symm
  | count v filter => exact (List.append_nil _).symm
  | fetchPage v filter steps window =>
    rw [step_of_isRead s rfl]
    exact (List.append_nil _).symm
  | fetchById v id => exact (List.append_nil _).symm
  | failNextCommits count => exact (List.append_nil _).symm

theorem stagedBy_eq_none (h : x.unit? ≠ some u) (answer : StoreAnswer) : stagedBy u (x, answer) = none := by
  cases x with
  | add v p =>
    cases answer with
    | staged post => exact if_neg (mt (congrArg some) h)
    | _ => rfl
  | markUpdated v p => exact if_neg (mt (congrArg some) h)
  | remove v id => exact if_neg (mt (congrArg some) h)
  | _ => rfl

/-- A unit is left alone by the steps of others. -/
theorem unit_step_of_ne (s : StoreSession) (h : x.unit? ≠ some u) : (s.step x).2.unit u = s.unit u := by
  have hcommit : x ≠ .commit u := fun heq => h (heq ▸ rfl)
  rw [unit_step, if_neg hcommit, stagedBy_eq_none h, Option.toList_none, List.append_nil]

/-- **The committed posts change by a commit that goes through, or not at all.** -/
theorem committed_step_cases (s : StoreSession) (x : StoreStep) :
    (∃ u, x = .commit u ∧ (s.step x).1 = .committed true ∧ (∀ c ∈ s.unit u, c.Allowed s.store.committed) ∧
      (s.step x).2.store.committed = (s.unit u).foldl Change.apply s.store.committed) ∨
    ((∀ u, x = .commit u → (s.step x).1 ≠ .committed true) ∧
      (s.step x).2.store.committed = s.store.committed) := by
  cases x with
  | commit u =>
    rcases s.store.commit_cases (s.unit u) with ⟨hallowed, heq⟩ | ⟨hanswer, hposts⟩
    · refine .inl ⟨u, rfl, answer_commit_eq_true_iff.mpr (by rw [heq]), hallowed, ?_⟩
      rw [step_commit, heq]
      rfl
    · refine .inr ⟨fun v hv => ?_, ?_⟩
      · exact mt answer_commit_eq_true_iff.mp hanswer
      · rw [step_commit]
        exact hposts
  | failNextCommits count => exact .inr ⟨nofun, rfl⟩
  | _ => exact .inr ⟨nofun, committed_step s rfl⟩

/-- **A commit takes all of its unit's changes or none.** Whatever becomes of it, its unit has nothing staged
afterwards, the other units keep what they have, and no identity is given out. An armed failure makes it fail and
is used up. Otherwise, if all changes are allowed among the posts as they were, they are all applied in the order
of staging; if one is not, the first such change is reported, and the posts stay as they were. -/
theorem commit_all_or_nothing (s : StoreSession) (u : String) :
    let staged := s.unit u
    let answer := (s.step (.commit u)).1
    let s' := (s.step (.commit u)).2
    s'.unit u = [] ∧ (∀ v, v ≠ u → s'.unit v = s.unit v) ∧ s'.store.nextId = s.store.nextId ∧
    (s.store.armedFailures ≠ 0 →
      answer = .committed false ∧ s'.store.committed = s.store.committed ∧
        s'.store.armedFailures.toNat + 1 = s.store.armedFailures.toNat) ∧
    (s.store.armedFailures = 0 →
      s'.store.armedFailures = 0 ∧
      ((∀ c ∈ staged, c.Allowed s.store.committed) →
        answer = .committed true ∧ s'.store.committed = staged.foldl Change.apply s.store.committed) ∧
      ((∃ c ∈ staged, ¬ c.Allowed s.store.committed) →
        ∃ before c after e, staged = before ++ c :: after ∧ (∀ b ∈ before, b.Allowed s.store.committed) ∧
          c.Refused s.store.committed e ∧ answer = .failed e ∧
          s'.store.committed = s.store.committed)) := by
  intro staged answer s'
  have hanswer : answer = .ofCommit (s.store.commit staged).1 := congrArg Prod.fst (step_commit s u)
  have hs' : s' = { s with store := (s.store.commit staged).2 }.setUnit u [] := congrArg Prod.snd (step_commit s u)
  have hstore : s'.store = (s.store.commit staged).2 := congrArg StoreSession.store hs'
  refine ⟨?_, ?_, ?_, ?_, ?_⟩
  · rw [hs', unit_setUnit, if_pos rfl]
  · intro v hv
    rw [hs', unit_setUnit, if_neg hv.symm]
    rfl
  · rw [hstore, PostStore.nextId_commit]
  · intro harmed
    rw [hanswer, hstore, PostStore.commit_of_armed harmed]
    refine ⟨rfl, rfl, ?_⟩
    have hpos : 1 ≤ s.store.armedFailures.toNat :=
      Nat.pos_of_ne_zero fun hzero => harmed (UInt32.toNat_inj.mp hzero)
    have hle : 1 ≤ s.store.armedFailures := UInt32.le_iff_toNat_le.mpr hpos
    rw [UInt32.toNat_sub_of_le _ _ hle]
    exact Nat.sub_add_cancel hpos
  · intro harmed
    by_cases hallowed : ∀ c ∈ staged, c.Allowed s.store.committed
    · rw [hanswer, hstore, PostStore.commit_of_allowed harmed hallowed]
      refine ⟨harmed, fun _ => ⟨rfl, rfl⟩, fun ⟨c, hc, hnot⟩ => absurd (hallowed c hc) hnot⟩
    · obtain ⟨before, c, after, e, hsplit, hbefore, hc, heq⟩ :=
        PostStore.commit_of_not_allowed harmed hallowed
      rw [hanswer, hstore, heq]
      exact ⟨harmed, fun h => absurd h hallowed, fun _ => ⟨before, c, after, e, hsplit, hbefore, hc, rfl, rfl⟩⟩

/-! ### Runs -/

/-- The session that steps lead to. -/
def after (s : StoreSession) (steps : List StoreStep) : StoreSession := (s.run steps).2

/-- The steps of a run with their answers. -/
def transcript (s : StoreSession) (steps : List StoreStep) : List (StoreStep × StoreAnswer) :=
  steps.zip (s.run steps).1

@[simp] theorem after_nil (s : StoreSession) : s.after [] = s := rfl

@[simp] theorem after_cons (s : StoreSession) (x : StoreStep) (xs : List StoreStep) :
    s.after (x :: xs) = (s.step x).2.after xs := rfl

theorem after_append (s : StoreSession) (xs ys : List StoreStep) :
    s.after (xs ++ ys) = (s.after xs).after ys := by
  induction xs generalizing s with
  | nil => rfl
  | cons x rest ih => exact ih (s.step x).2

@[simp] theorem transcript_nil (s : StoreSession) : s.transcript [] = [] := rfl

@[simp] theorem transcript_cons (s : StoreSession) (x : StoreStep) (xs : List StoreStep) :
    s.transcript (x :: xs) = (x, (s.step x).1) :: (s.step x).2.transcript xs := rfl

theorem transcript_append (s : StoreSession) (xs ys : List StoreStep) :
    s.transcript (xs ++ ys) = s.transcript xs ++ (s.after xs).transcript ys := by
  induction xs generalizing s with
  | nil => rfl
  | cons x rest ih => exact congrArg (_ :: ·) (ih (s.step x).2)

/-- **Steps that only read are answered by the session that the first of them finds.** -/
theorem run_of_isRead {xs : List StoreStep} (h : ∀ x ∈ xs, x.isRead = true) (s : StoreSession) :
    s.run xs = (xs.map fun x => (s.step x).1, s) := by
  induction xs with
  | nil => rfl
  | cons x rest ih =>
    obtain ⟨hx, hrest⟩ := List.forall_mem_cons.mp h
    simp only [run, step_of_isRead s hx, ih hrest, List.map_cons]

/-- An entry of a transcript is a step with the answer it gets after the steps before it. -/
theorem getElem?_transcript (s : StoreSession) (steps : List StoreStep) (i : Nat) :
    (s.transcript steps)[i]? = steps[i]?.map fun x => (x, ((s.after (steps.take i)).step x).1) := by
  induction steps generalizing s i with
  | nil => rfl
  | cons x rest ih =>
    cases i with
    | zero => rfl
    | succ i => exact ih (s.step x).2 i

/-- **What a unit has staged is what its steps since its last commit have staged.** -/
theorem unit_after (hnew : s.unit u = []) (steps : List StoreStep) :
    (s.after steps).unit u = stagedSinceCommit u (s.transcript steps) := by
  -- From the last step backwards, since that is how far a unit remembers.
  induction steps using List.reverseRecOn with
  | nil => exact hnew
  | append_singleton before x ih =>
    unfold stagedSinceCommit at ih ⊢
    rw [after_append, transcript_append, after_cons, after_nil, transcript_cons, transcript_nil, unit_step]
    by_cases h : x = .commit u
    · rw [if_pos h, List.rtakeWhile_concat_neg _ _ _ (by simpa using h), List.filterMap_nil]
    · rw [if_neg h, List.rtakeWhile_concat_pos _ _ _ (by simpa using h), List.filterMap_append, ih]
      rfl

/-! ### The points of a run from a new store -/

/-- The session after the first `n` steps of a run from a new store. -/
def sessionAt (steps : List StoreStep) (n : Nat) : StoreSession := ({} : StoreSession).after (steps.take n)

variable {steps : List StoreStep} {i j : Nat}

theorem sessionAt_length (steps : List StoreStep) :
    sessionAt steps steps.length = ({} : StoreSession).after steps := by
  unfold sessionAt
  rw [List.take_length]

theorem sessionAt_succ (h : steps[i]? = some x) : sessionAt steps (i + 1) = ((sessionAt steps i).step x).2 := by
  unfold sessionAt
  rw [List.take_add_one, h, after_append]
  rfl

theorem sessionAt_succ_of_none (h : steps[i]? = none) : sessionAt steps (i + 1) = sessionAt steps i := by
  unfold sessionAt
  rw [List.take_add_one, h, Option.toList_none, List.append_nil]

theorem getElem?_transcript_new (h : steps[i]? = some x) :
    (({} : StoreSession).transcript steps)[i]? = some (x, ((sessionAt steps i).step x).1) := by
  rw [getElem?_transcript, h]
  rfl

/-- **What every step of a run keeps holds from some point on if it holds there.** -/
theorem sessionAt_induction {motive : StoreSession → Prop}
    (step : ∀ n x, steps[n]? = some x → motive (sessionAt steps n) → motive ((sessionAt steps n).step x).2)
    (hij : i ≤ j) (h : motive (sessionAt steps i)) : motive (sessionAt steps j) := by
  induction hij with
  | refl => exact h
  | @step j _ ih =>
    cases hx : steps[j]? with
    | none =>
      rw [sessionAt_succ_of_none hx]
      exact ih
    | some x =>
      rw [sessionAt_succ hx]
      exact step j x hx ih

end StoreSession

end HypermediaApi.Blog

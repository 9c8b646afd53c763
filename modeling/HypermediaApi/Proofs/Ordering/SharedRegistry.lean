import HypermediaApi.Proofs.Ordering.Registration

/-!
# HypermediaApi.Proofs.Ordering.SharedRegistry — the shared registry is written once

A set-up is an arbitrary program over a registry: operations one after the other, each chosen in the light of the
answers so far, and an outcome at the end (`SetUp`). It is performed on a registry of its own while every operation is
noted in a journal, so that the journal shows which set-ups were run and on what (`perform_run`).

A call that finds the shared registry written notes nothing (`run_calls_some`). One that finds it unwritten performs its
set-up on an empty registry, and writes the shared one exactly if that succeeds. So a sequence of calls is told by where
its first successful set-up stands (`calls_written_once`).
-/

namespace HypermediaApi

/-! ### Set-ups -/

/-- A program over a registry. -/
inductive SetUp where
  | finish (outcome : Except Failure Unit)
  /-- An operation, and how the program goes on after its answer. -/
  | call (x : RegistryStep) (next : RegistryAnswer → SetUp)

/-- Operations on registries with their answers, in the order in which they took place. -/
abbrev Journal := List (RegistryStep × RegistryAnswer)

namespace SetUp

/-- Carries the program out on a registry, noting every operation, and gives the registry that it leaves if it
succeeds. -/
def perform : SetUp → Registry → StateM Journal (Except Failure Registry)
  | finish outcome, r => pure (outcome.map fun _ => r)
  | call x next, r => do
    modify (· ++ [(x, (r.step x).1)])
    (next (r.step x).1).perform (r.step x).2

/-- The operations that the program carries out on a registry. -/
def operations : SetUp → Registry → List RegistryStep
  | finish _, _ => []
  | call x next, r => x :: (next (r.step x).1).operations (r.step x).2

/-- How the program ends on a registry. -/
def outcome : SetUp → Registry → Except Failure Unit
  | finish outcome, _ => outcome
  | call x next, r => (next (r.step x).1).outcome (r.step x).2

/-- The program fails on an empty registry. -/
def fails (s : SetUp) : Bool := (s.outcome {}) matches .error _

theorem outcome_of_not_fails {s : SetUp} (h : s.fails = false) : s.outcome {} = .ok () := by
  cases houtcome : s.outcome {} with
  | error failure => simp [fails, houtcome] at h
  | ok _ => rfl

/-- **A program leaves its operations and their answers in the journal**, and the registry after them. -/
theorem perform_run (s : SetUp) (r : Registry) (journal : Journal) :
    (s.perform r).run journal =
      ((s.outcome r).map fun _ => r.after (s.operations r), journal ++ r.transcript (s.operations r)) := by
  induction s generalizing r journal with
  | finish outcome =>
    simp only [perform, SetUp.outcome, operations, Registry.transcript, List.append_nil]
    rfl
  | call x next ih =>
    have hnext := ih (r.step x).1 (r.step x).2 (journal ++ [(x, (r.step x).1)])
    rw [List.append_assoc] at hnext
    exact hnext

end SetUp

namespace SharedRegistry

/-! ### Calls -/

/-- Calls with a set-up each: the answers, each with the shared registry after it. -/
def calls (shared : SharedRegistry) : List SetUp → StateM Journal (List (Except Failure Registry × SharedRegistry))
  | [] => pure []
  | s :: rest => do
    let now ← shared.initializeWith s.perform
    return now :: (← calls now.2 rest)

/-- What a set-up gives when it is run on an empty registry. -/
def resultOf (s : SetUp) : Except Failure Registry := (s.outcome {}).map fun _ => ({} : Registry).after (s.operations {})

/-- What a set-up leaves in the journal when it is run on an empty registry. -/
def journalOf (s : SetUp) : Journal := ({} : Registry).transcript (s.operations {})

theorem run_calls_nil (shared : SharedRegistry) (journal : Journal) : (calls shared []).run journal = ([], journal) := rfl

/-- **Once the shared registry is written, calls get it as it is**, and no set-up is run. -/
theorem run_calls_some (r : Registry) (setUps : List SetUp) (journal : Journal) :
    (calls (some r) setUps).run journal = (setUps.map fun _ => (.ok r, some r), journal) := by
  induction setUps generalizing journal with
  | nil => rfl
  | cons s rest ih =>
    rw [List.map_cons]
    simp only [calls, initializeWith, pure_bind, StateT.run_bind, ih]
    rfl

/-- **A call that finds the shared registry unwritten runs its set-up on an empty one**, answers what that gives, and
writes it if it succeeds. -/
theorem run_initializeWith_none (s : SetUp) (journal : Journal) :
    (initializeWith none s.perform).run journal =
      ((resultOf s, (resultOf s).toOption), journal ++ journalOf s) := by
  have hrun : (s.perform {}).run journal = (resultOf s, journal ++ journalOf s) := s.perform_run {} journal
  simp only [initializeWith, StateT.run_bind, hrun]
  cases resultOf s <;> rfl

theorem run_calls_cons_none (s : SetUp) (rest : List SetUp) (journal : Journal) :
    (calls none (s :: rest)).run journal =
      let later := (calls (resultOf s).toOption rest).run (journal ++ journalOf s)
      ((resultOf s, (resultOf s).toOption) :: later.1, later.2) := by
  simp only [calls, StateT.run_bind, run_initializeWith_none]
  rfl

/-- Noting the operations makes no difference to the answer. -/
theorem run_initializeWith_fst (shared : SharedRegistry) (s : SetUp) (journal : Journal) :
    ((shared.initializeWith s.perform).run journal).1 =
      shared.initialize fun r => (s.outcome r).map fun _ => r.after (s.operations r) := by
  cases shared with
  | some registry => rfl
  | none =>
    rw [run_initializeWith_none]
    have hresult : resultOf s = (s.outcome {}).map fun _ => ({} : Registry).after (s.operations {}) := rfl
    unfold SharedRegistry.initialize initializeWith
    simp only [pure_bind, ← hresult]
    cases resultOf s <;> rfl

theorem resultOf_of_fails {s : SetUp} (h : s.fails = true) :
    ∃ failure, s.outcome {} = .error failure ∧ resultOf s = .error failure := by
  cases houtcome : s.outcome {} with
  | error failure => exact ⟨failure, rfl, by rw [resultOf, houtcome]; rfl⟩
  | ok _ => simp [SetUp.fails, houtcome] at h

theorem resultOf_of_not_fails {s : SetUp} (h : s.fails = false) :
    resultOf s = .ok (({} : Registry).after (s.operations {})) := by
  rw [resultOf, SetUp.outcome_of_not_fails h]
  rfl

/-- **Set-ups that fail leave no trace but their journals.** -/
theorem run_calls_of_fails {failing : List SetUp} (h : ∀ s ∈ failing, s.fails = true) (rest : List SetUp)
    (journal : Journal) :
    (calls none (failing ++ rest)).run journal =
      let later := (calls none rest).run (journal ++ failing.flatMap journalOf)
      (failing.map (fun s => (resultOf s, none)) ++ later.1, later.2) := by
  induction failing generalizing journal with
  | nil => simp
  | cons s failing ih =>
    obtain ⟨hs, hfailing⟩ := List.forall_mem_cons.mp h
    obtain ⟨failure, -, hresult⟩ := resultOf_of_fails hs
    have hnone : (resultOf s).toOption = none := by rw [hresult]; rfl
    rw [List.cons_append, run_calls_cons_none, hnone, ih hfailing]
    simp

/-- **The shared registry is written once, by the first set-up that succeeds.** Each call before that runs its set-up
on an empty registry, answers its failure and leaves the shared registry unwritten. The first set-up that succeeds is
run on an empty registry too, which then holds its registrations, of each pair the first one, and nothing else; this
registry is the answer of its call and of every later one, none of which runs its set-up. What is noted on the way
makes no difference to the answers. -/
theorem calls_written_once (setUps : List SetUp) :
    let failing := setUps.takeWhile SetUp.fails
    let refused := failing.map fun s => (resultOf s, (none : SharedRegistry))
    (∀ s ∈ failing, ∃ failure, s.outcome {} = .error failure ∧ resultOf s = .error failure) ∧
    (match setUps.dropWhile SetUp.fails with
      | [] => (calls none setUps).run [] = (refused, failing.flatMap journalOf)
      | first :: later =>
        let registry := ({} : Registry).after (first.operations {})
        first.outcome {} = .ok () ∧
        (calls none setUps).run [] =
          (refused ++ (first :: later).map (fun _ => (.ok registry, some registry)),
            failing.flatMap journalOf ++ journalOf first) ∧
        ∀ pair, registry.table.get? pair = Registry.firstMapping? pair (first.operations {})) ∧
    ∀ (shared : SharedRegistry) (s : SetUp) (journal : Journal),
      ((shared.initializeWith s.perform).run journal).1 =
        shared.initialize fun r => (s.outcome r).map fun _ => r.after (s.operations r) := by
  intro failing refused
  have hfails : ∀ s ∈ failing, s.fails = true := fun s hs => List.mem_takeWhile_imp hs
  have hsplit : failing ++ setUps.dropWhile SetUp.fails = setUps := List.takeWhile_append_dropWhile
  refine ⟨fun s hs => resultOf_of_fails (hfails s hs), ?_, run_initializeWith_fst⟩
  have hrun := run_calls_of_fails hfails (setUps.dropWhile SetUp.fails) []
  rw [hsplit, List.nil_append] at hrun
  cases hrest : setUps.dropWhile SetUp.fails with
  | nil =>
    rw [hrest] at hrun
    rw [hrun]
    simp [run_calls_nil, refused]
  | cons first later =>
    have hfirst : first.fails = false := by
      have hnot := List.head?_dropWhile_not SetUp.fails setUps
      rw [hrest] at hnot
      simpa using hnot
    have hresult := resultOf_of_not_fails hfirst
    refine ⟨SetUp.outcome_of_not_fails hfirst, ?_, fun pair => Registry.get?_after {} (first.operations {}) pair⟩
    rw [hrun, hrest, run_calls_cons_none, hresult]
    simp only [Except.toOption, run_calls_some, List.map_cons, refused]

/-- A set-up that fails after a registration, one that registers the same pair without a conflict, and one that is not
run any more. -/
theorem calls_written_once_after_failure :
    let pair : TypePair := ⟨"a::Post", "b::Row"⟩
    let mapping := (PropertyMapping.draft "id").build
    let failing : SetUp := .call (.register pair mapping) fun _ => .finish (.error (.route "boom"))
    let registering : SetUp := .call (.register pair mapping) fun
      | .failed failure => .finish (.error failure)
      | _ => .finish (.ok ())
    let registry := ({} : Registry).after (registering.operations {})
    failing ∈ [failing, registering, failing].takeWhile SetUp.fails ∧
    (∃ failure, resultOf failing = .error failure) ∧
    (calls none [failing, registering, failing]).run [] =
      ([(resultOf failing, none), (.ok registry, some registry), (.ok registry, some registry)],
        journalOf failing ++ journalOf registering) ∧
    registry.table.get? pair = some mapping := by
  intro pair mapping failing registering registry
  obtain ⟨hfailed, hcalls, -⟩ := calls_written_once [failing, registering, failing]
  have hmem : failing ∈ [failing, registering, failing].takeWhile SetUp.fails := List.mem_cons_self
  obtain ⟨failure, -, hresult⟩ := hfailed failing hmem
  obtain ⟨-, hrun, hpairs⟩ := hcalls
  exact ⟨hmem, ⟨failure, hresult⟩, hrun, hpairs pair⟩

end SharedRegistry

end HypermediaApi

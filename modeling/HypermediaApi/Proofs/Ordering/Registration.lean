import HypermediaApi.Proofs.Ordering.Agreement
import Mathlib.Data.Finset.Card

/-!
# HypermediaApi.Proofs.Ordering.Registration — a pair is registered once

What a registry knows of a pair after any number of operations is the mapping of the pair's first registration
(`get?_after`): no operation but a registration writes, and a registration of a pair that is known is refused. All
that an operation can see of the registry is what is known of its own pair (`answer_congr`), so the operations on one
pair are answered as if there were no others (`filter_transcript`), whatever the names of the types have in common.
-/

namespace HypermediaApi

/-- An operation on a registry. -/
inductive RegistryStep where
  | register (pair : TypePair) (mapping : PropertyMapping)
  | resolve (pair : TypePair)
  | accepts (pair : TypePair) (orderBy : Option String)
  | compile (pair : TypePair) (orderBy : Option String)

/-- The answer to an operation on a registry. -/
inductive RegistryAnswer where
  | registered
  | resolved (mapping : PropertyMapping)
  | accepted (fits : Bool)
  | compiled (steps : List SortStep)
  | failed (failure : Failure)

namespace RegistryStep

/-- The pair that the operation is about. -/
def pair : RegistryStep → TypePair
  | register pair _ => pair
  | resolve pair => pair
  | accepts pair _ => pair
  | compile pair _ => pair

/-- The mapping that the operation brings for the given pair, if it is to register one. -/
def mapping? (pair : TypePair) : RegistryStep → Option PropertyMapping
  | register p mapping => if p = pair then some mapping else none
  | _ => none

/-- The pair that the operation is to register. -/
def registers? : RegistryStep → Option TypePair
  | register pair _ => some pair
  | _ => none

theorem mapping?_of_ne {x : RegistryStep} {pair : TypePair} (h : x.pair ≠ pair) : x.mapping? pair = none := by
  cases x with
  | register p mapping => exact if_neg h
  | _ => rfl

end RegistryStep

/-- The answer with the given result. -/
def RegistryAnswer.ofResult {α : Type} (answer : α → RegistryAnswer) : Except Failure α → RegistryAnswer
  | .ok a => answer a
  | .error failure => .failed failure

namespace Registry

variable {r r' : Registry} {pair : TypePair} {x : RegistryStep}

/-- The answer to an operation, and the registry after it. -/
def step (r : Registry) : RegistryStep → RegistryAnswer × Registry
  | .register pair mapping =>
    match r.register pair mapping with
    | .ok r' => (.registered, r')
    | .error failure => (.failed failure, r)
  | .resolve pair => (.ofResult .resolved (r.resolve pair), r)
  | .accepts pair orderBy => (.ofResult .accepted (r.accepts pair orderBy), r)
  | .compile pair orderBy => (.ofResult .compiled (r.compile pair orderBy), r)

/-! ### One operation -/

theorem register_of_none (h : r.table.get? pair = none) (mapping : PropertyMapping) :
    r.register pair mapping = .ok { table := r.table.insert pair mapping } := by
  unfold register OrderedMap.contains
  rw [h]
  rfl

theorem register_of_some {known : PropertyMapping} (h : r.table.get? pair = some known) (mapping : PropertyMapping) :
    r.register pair mapping = .error (.duplicateMapping (shortName pair.resource) (shortName pair.entity)) := by
  unfold register OrderedMap.contains
  rw [h]
  rfl

/-- The check of a sort expression for a registered pair asks whether its mapping covers the expression. -/
theorem accepts_of_get? {m : PropertyMapping} (h : r.table.get? pair = some m) (orderBy : Option String) :
    r.accepts pair orderBy = .ok (decide (m.Covers orderBy)) := by
  rcases accepts_cases h orderBy with ⟨hcovers, haccepts⟩ | ⟨hcovers, haccepts⟩
  · rw [haccepts, decide_eq_true hcovers]
  · rw [haccepts, decide_eq_false hcovers]

/-- A mapping that is there is never reported as missing. -/
theorem compile_ne_mappingNotFound (m : PropertyMapping) (orderBy : Option String) {resource entity : String} :
    m.compile orderBy ≠ .error (.mappingNotFound resource entity) := by
  rcases m.compile_cases orderBy with ⟨-, steps, hsteps⟩ | ⟨-, field, hfield⟩
  · simp [hsteps]
  · simp [hfield]

/-- **What is known of a pair stays, and what is not known comes from a registration of that pair.** -/
theorem get?_step (r : Registry) (x : RegistryStep) (pair : TypePair) :
    (r.step x).2.table.get? pair = (r.table.get? pair).or (x.mapping? pair) := by
  cases x with
  | register p mapping =>
    cases hp : r.table.get? p with
    | none =>
      have hstep : (r.step (.register p mapping)).2 = { table := r.table.insert p mapping } := by
        simp only [step, register_of_none hp]
      rw [hstep, OrderedMap.get?_insert]
      by_cases h : pair = p
      · subst h
        simp [hp, RegistryStep.mapping?]
      · simp [h, RegistryStep.mapping?, Ne.symm h]
    | some known =>
      have hstep : (r.step (.register p mapping)).2 = r := by simp only [step, register_of_some hp]
      rw [hstep]
      by_cases h : p = pair
      · subst h
        simp [hp]
      · simp [h, RegistryStep.mapping?]
  | _ => exact Option.or_none.symm

/-- **An operation sees no more of a registry than what is known of its pair.** -/
theorem answer_congr (h : r.table.get? x.pair = r'.table.get? x.pair) : (r.step x).1 = (r'.step x).1 := by
  cases x with
  | register p mapping =>
    have h : r.table.get? p = r'.table.get? p := h
    cases hp : r'.table.get? p with
    | none => simp only [step, register_of_none hp, register_of_none (h.trans hp)]
    | some known => simp only [step, register_of_some hp, register_of_some (h.trans hp)]
  | resolve p =>
    have h : r.table.get? p = r'.table.get? p := h
    simp only [step, Registry.resolve, h]
  | accepts p orderBy =>
    have h : r.table.get? p = r'.table.get? p := h
    simp only [step, Registry.accepts, Registry.resolve, h]
  | compile p orderBy =>
    have h : r.table.get? p = r'.table.get? p := h
    simp only [step, Registry.compile, Registry.resolve, h]

/-! ### Runs -/

/-- The registry after operations one after the other. -/
def after (r : Registry) (steps : List RegistryStep) : Registry := steps.foldl (fun r x => (r.step x).2) r

/-- The operations of a run with their answers. -/
def transcript (r : Registry) : List RegistryStep → List (RegistryStep × RegistryAnswer)
  | [] => []
  | x :: rest => (x, (r.step x).1) :: (r.step x).2.transcript rest

/-- The mapping of the first registration of a pair. -/
def firstMapping? (pair : TypePair) (steps : List RegistryStep) : Option PropertyMapping :=
  steps.findSome? (·.mapping? pair)

/-- **After a run a pair has the mapping that it had before, or else that of its first registration.** -/
theorem get?_after (r : Registry) (steps : List RegistryStep) (pair : TypePair) :
    (r.after steps).table.get? pair = (r.table.get? pair).or (firstMapping? pair steps) := by
  induction steps generalizing r with
  | nil => exact Option.or_none.symm
  | cons x rest ih =>
    have hfirst : firstMapping? pair (x :: rest) = (x.mapping? pair).or (firstMapping? pair rest) := by
      unfold firstMapping?
      rw [List.findSome?_cons]
      cases x.mapping? pair <;> rfl
    rw [hfirst, ← Option.or_assoc, ← get?_step]
    exact ih (r.step x).2

/-- **The operations on a pair are answered as if there were no others**, by any two registries that know the same of
the pair. -/
theorem filter_transcript (h : r.table.get? pair = r'.table.get? pair) (steps : List RegistryStep) :
    (r.transcript steps).filter (·.1.pair = pair) = r'.transcript (steps.filter (·.pair = pair)) := by
  induction steps generalizing r r' with
  | nil => rfl
  | cons x rest ih =>
    have hnext : (r.step x).2.table.get? pair = (r.table.get? pair).or (x.mapping? pair) := get?_step r x pair
    by_cases hx : x.pair = pair
    · have hanswer : (r.step x).1 = (r'.step x).1 := answer_congr (by rw [hx, h])
      have hrest : ((r.step x).2.transcript rest).filter (·.1.pair = pair) =
          (r'.step x).2.transcript (rest.filter (·.pair = pair)) := ih (by rw [hnext, get?_step, h])
      rw [List.filter_cons_of_pos (by simpa using hx)]
      simp only [transcript]
      rw [List.filter_cons_of_pos (by simpa using hx), hrest, hanswer]
    · have hrest : ((r.step x).2.transcript rest).filter (·.1.pair = pair) =
          r'.transcript (rest.filter (·.pair = pair)) :=
        ih (by rw [hnext, RegistryStep.mapping?_of_ne hx, Option.or_none, h])
      rw [List.filter_cons_of_neg (by simpa using hx)]
      simp only [transcript]
      rw [List.filter_cons_of_neg (by simpa using hx), hrest]

theorem firstMapping?_eq_none_iff {steps : List RegistryStep} :
    firstMapping? pair steps = none ↔ ∀ m, .register pair m ∉ steps := by
  unfold firstMapping?
  rw [List.findSome?_eq_none_iff]
  constructor
  · intro h m hm
    have hnone := h _ hm
    rw [RegistryStep.mapping?, if_pos rfl] at hnone
    cases hnone
  · intro h x hx
    cases x with
    | register p m =>
      refine if_neg fun hp : p = pair => h m ?_
      exact hp ▸ hx
    | _ => rfl

theorem exists_of_firstMapping? {steps : List RegistryStep} {first : PropertyMapping}
    (h : firstMapping? pair steps = some first) :
    ∃ before after, steps = before ++ .register pair first :: after ∧ ∀ m, .register pair m ∉ before := by
  obtain ⟨before, x, after, rfl, hx, hbefore⟩ := List.findSome?_eq_some_iff.mp h
  refine ⟨before, after, ?_, firstMapping?_eq_none_iff.mp (List.findSome?_eq_none_iff.mpr hbefore)⟩
  cases x with
  | register p m =>
    by_cases hp : p = pair
    · rw [RegistryStep.mapping?, if_pos hp] at hx
      rw [hp, Option.some.inj hx]
    · rw [RegistryStep.mapping?, if_neg hp] at hx
      cases hx
  | _ => cases hx

theorem mem_registered_iff {steps : List RegistryStep} :
    pair ∈ steps.filterMap RegistryStep.registers? ↔ ∃ m, .register pair m ∈ steps := by
  rw [List.mem_filterMap]
  constructor
  · rintro ⟨x, hx, hpair⟩
    cases x with
    | register p m => exact ⟨m, Option.some.inj hpair ▸ hx⟩
    | _ => cases hpair
  · rintro ⟨m, hm⟩
    exact ⟨_, hm, rfl⟩

/-- **A new registry has an entry for each pair that has been registered**, however often. -/
theorem size_after_new (steps : List RegistryStep) :
    (({} : Registry).after steps).size = (steps.filterMap RegistryStep.registers?).toFinset.card := by
  have hkeys : (({} : Registry).after steps).table.keys.toFinset =
      (steps.filterMap RegistryStep.registers?).toFinset := by
    ext pair
    have hknown : (({} : Registry).after steps).table.get? pair = firstMapping? pair steps := get?_after {} steps pair
    rw [List.mem_toFinset, List.mem_toFinset, ← OrderedMap.contains_iff, mem_registered_iff]
    unfold OrderedMap.contains
    rw [hknown, Option.isSome_iff_ne_none, Ne, firstMapping?_eq_none_iff, not_forall_not]
  rw [← hkeys, List.toFinset_card_of_nodup (OrderedMap.nodup _)]
  exact (List.length_map _).symm

/-- **The first registration of a pair stays.** After any operations on a new registry, a pair that has not been
registered can be, and is unknown to all other operations; a pair that has been cannot be registered again, which
leaves the registry as it is, and the other operations are answered from the mapping of its first registration. The
operations on a pair are answered as they would be without those on other pairs, and the size is the number of the
pairs that have been registered. -/
theorem first_registration_stays (steps : List RegistryStep) (pair : TypePair) (mapping : PropertyMapping)
    (orderBy : Option String) :
    let r := ({} : Registry).after steps
    let unknown := Failure.mappingNotFound (shortName pair.resource) (shortName pair.entity)
    (match firstMapping? pair steps with
      | none =>
        (∀ m, .register pair m ∉ steps) ∧
        (r.step (.register pair mapping)).1 = .registered ∧
        r.resolve pair = .error unknown ∧ r.accepts pair orderBy = .error unknown ∧
          r.compile pair orderBy = .error unknown
      | some first =>
        (∃ before after, steps = before ++ .register pair first :: after ∧ ∀ m, .register pair m ∉ before) ∧
        r.step (.register pair mapping) =
          (.failed (.duplicateMapping (shortName pair.resource) (shortName pair.entity)), r) ∧
        r.resolve pair = .ok first ∧ r.accepts pair orderBy = .ok (decide (first.Covers orderBy)) ∧
          r.compile pair orderBy = first.compile orderBy ∧
          ∀ resource entity, r.compile pair orderBy ≠ .error (.mappingNotFound resource entity)) ∧
    (({} : Registry).transcript steps).filter (·.1.pair = pair) =
      ({} : Registry).transcript (steps.filter (·.pair = pair)) ∧
    r.size = (steps.filterMap RegistryStep.registers?).toFinset.card := by
  intro r unknown
  have hknown : r.table.get? pair = firstMapping? pair steps := get?_after {} steps pair
  refine ⟨?_, filter_transcript rfl steps, size_after_new steps⟩
  cases hfirst : firstMapping? pair steps with
  | none =>
    have hresolve : r.resolve pair = .error unknown := resolve_of_get?_eq_none (hknown.trans hfirst)
    refine ⟨firstMapping?_eq_none_iff.mp hfirst, ?_, hresolve, ?_, ?_⟩
    · simp only [step, register_of_none (hknown.trans hfirst)]
    · simp only [Registry.accepts, hresolve, bind, Except.bind]
    · simp only [Registry.compile, hresolve, bind, Except.bind]
  | some first =>
    have hsome : r.table.get? pair = some first := hknown.trans hfirst
    have hcompile : r.compile pair orderBy = first.compile orderBy := compile_of_get? hsome orderBy
    refine ⟨exists_of_firstMapping? hfirst, ?_, resolve_of_get?_eq_some hsome, accepts_of_get? hsome orderBy,
      hcompile, ?_⟩
    · simp only [step, register_of_some hsome]
    · intro resource entity hunknown
      rw [hcompile] at hunknown
      exact compile_ne_mappingNotFound first orderBy hunknown

/-- Types that change places, and types of one short name, make pairs of their own. -/
example :
    let m := (PropertyMapping.draft "id").build
    let r := ({} : Registry).after [.register ⟨"a::Post", "b::Row"⟩ m, .register ⟨"b::Row", "a::Post"⟩ m,
      .register ⟨"c::Post", "b::Row"⟩ m, .register ⟨"a::Post", "b::Row"⟩ m]
    r.size = 3 := by
  decide

end Registry

end HypermediaApi

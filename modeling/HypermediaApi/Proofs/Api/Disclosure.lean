import HypermediaApi.Api.Error
import HypermediaApi.Proofs.Json.Structures

/-!
# HypermediaApi.Proofs.Api.Disclosure — what clients learn of an error

Whose doing a failure is decides twice, in `Failure.isClientError` and in the conversion `ApiError.ofFailure`, and the
two agree (`status_ofFailure_eq_iff`). An internal failure is converted without a look at what it holds, and an
internal storage error without a look at its wording, so clients cannot tell two of them apart, whatever operation
they are reported for (`ApiError.Alike`). Every other storage error is passed on as it is: the body of the response is
read back (`read?_body`) to say which of its members hold what.
-/

namespace HypermediaApi

/-- A failure that is neither the client's doing nor an error of the storage. -/
def Failure.IsInternal (f : Failure) : Prop := f.isClientError = false ∧ ∀ e, f ≠ .storage e

/-- A storage error of a kind that is not for clients. -/
def StorageError.IsInternal (e : StorageError) : Prop := e.kind = .invalidSort ∨ e.kind = .storageError

instance (e : StorageError) : Decidable e.IsInternal :=
  inferInstanceAs (Decidable (e.kind = .invalidSort ∨ e.kind = .storageError))

/-- The member of a response's body under a key. -/
def Http.Response.member? (r : Response) (key : String) : Option Json :=
  (Json.read? r.body).bind fun body => body.members.lookup key

namespace ApiError

/-- Clients get the same responses to both errors, also where both are reported for another operation. -/
def Alike (a b : ApiError) : Prop :=
  a.toResponse = b.toResponse ∧ ∀ operation, (a.withOperation operation).toResponse = (b.withOperation operation).toResponse

/-! ### Bodies -/

theorem fits_detail (e : FieldError) : Json.Fits 1 e.toJson := by
  refine .object ?_
  simp [Json.Fits.string]

theorem fits_toJson (e : ApiError) : Json.Fits 3 e.toJson := by
  have hstatus : Json.IsExactInt e.kind.status := by cases e.kind <;> decide
  have hdetails : Json.Fits 2 (.array (e.details.map FieldError.toJson)) := by
    refine .array ?_
    simp [fits_detail]
  have hdetail : ∀ m ∈ if e.details.isEmpty then []
      else [("details", Json.array (e.details.map FieldError.toJson))], Json.Fits 2 m.2 := by
    split
    · simp
    · simpa using hdetails
  have hcontext : ∀ (name : String) (text : Option String), ∀ m ∈ Json.optionalMember name text, Json.Fits 2 m.2 := by
    intro name text
    cases text <;> simp [Json.optionalMember, Json.Fits.string]
  refine .object ?_
  simp only [List.forall_mem_append]
  refine ⟨⟨⟨?_, hcontext _ _⟩, hcontext _ _⟩, hdetail⟩
  simp [Json.nat, Json.Fits.string, Json.Fits.int hstatus]

/-- **The body of a response is the JSON of its error.** -/
theorem read?_body (e : ApiError) : Json.read? e.toResponse.body = some e.toJson :=
  Json.value_of_render (e.fits_toJson.mono (by decide))

theorem member?_toResponse (e : ApiError) (key : String) :
    e.toResponse.member? key = e.toJson.members.lookup key := by
  rw [Http.Response.member?, read?_body, Option.bind_some]

theorem member?_error (e : ApiError) : e.toResponse.member? "error" = some (.string e.reason) := by
  rw [member?_toResponse]
  simp [toJson, Json.members]

/-- What is known of the entity stands in the body, and nothing stands there if nothing is known. -/
theorem member?_context (e : ApiError) :
    e.toResponse.member? "entity_type" = e.entityType.map .string ∧
      e.toResponse.member? "entity_id" = e.entityId.map .string := by
  rw [member?_toResponse, member?_toResponse]
  cases ht : e.entityType <;> cases hi : e.entityId <;>
    simp [toJson, Json.members, ht, hi, Json.optionalMember, List.lookup_cons]

/-! ### Conversions -/

theorem ofFailure_of_isInternal {f : Failure} (h : f.IsInternal) : ofFailure f = internal internalReason := by
  obtain ⟨hclient, hstorage⟩ := h
  cases f with
  | storage e => exact absurd rfl (hstorage e)
  | unknownField shape field => cases hclient
  | invalidPage reason => cases hclient
  | _ => rfl

/-- A failure that is not internal is the client's doing or an error of the storage. -/
theorem isClientError_or_storage_or_isInternal (f : Failure) :
    f.isClientError = true ∨ (∃ e, f = .storage e) ∨ f.IsInternal := by
  cases f with
  | storage e => exact .inr (.inl ⟨e, rfl⟩)
  | unknownField shape field => exact .inl rfl
  | invalidPage reason => exact .inl rfl
  | _ => exact .inr (.inr ⟨rfl, fun e he => by cases he⟩)

/-- **A failure is answered as a bad request exactly if it is the client's doing.** -/
theorem status_ofFailure_eq_iff (f : Failure) : (ofFailure f).toResponse.status = 400 ↔ f.isClientError = true := by
  rcases isClientError_or_storage_or_isInternal f with hclient | ⟨e, rfl⟩ | hinternal
  · cases f with
    | unknownField shape field => exact ⟨fun _ => rfl, fun _ => rfl⟩
    | invalidPage reason => exact ⟨fun _ => rfl, fun _ => rfl⟩
    | _ => cases hclient
  · -- No kind of storage error is the client's doing.
    have hstatus : (ofFailure (.storage e)).toResponse.status = (kindOf e.kind).status := rfl
    rw [hstatus]
    cases e.kind <;> simp [kindOf, ApiErrorKind.status, Failure.isClientError]
  · rw [ofFailure_of_isInternal hinternal, hinternal.1]
    simp [internal, toResponse, ApiErrorKind.status, Http.Response.json]

/-- An internal storage error keeps its operation and what is known of the entity, and nothing else. -/
theorem ofStorage_of_isInternal {e : StorageError} (h : e.IsInternal) :
    ofStorage e = { internal internalReason with
      operation := operationOf e.operation, entityType := e.entityType, entityId := e.entityId } := by
  obtain ⟨operation, kind, reason, entityType, entityId⟩ := e
  rcases h with h | h <;> cases h <;> rfl

/-- A storage error that is not internal keeps its wording. -/
theorem reason_ofStorage {e : StorageError} (h : ¬ e.IsInternal) : (ofStorage e).reason = e.reason := by
  obtain ⟨operation, kind, reason, entityType, entityId⟩ := e
  cases kind with
  | notFound => rfl
  | constraintViolation => rfl
  | invalidSort => exact absurd (.inl rfl) h
  | storageError => exact absurd (.inr rfl) h

/-- **Clients learn whose doing an error is, and of internal errors nothing else.** A failure is answered with status
400 exactly if it is the client's doing, and an error of the storage as that error itself. Internal failures are all
answered alike with status 500 and one wording, and so are internal errors of the storage in which the operation and
what is known of the entity are the same, also when they are reported for another operation. Any other error of the
storage is answered with status 404 or 409, and the body holds its wording and what is known of the entity. -/
theorem errors_classified_and_disclosed :
    (∀ f : Failure, (ofFailure f).toResponse.status = 400 ↔ f.isClientError = true) ∧
    (∀ e : StorageError, ofFailure (.storage e) = ofStorage e) ∧
    (∀ f g : Failure, f.IsInternal → g.IsInternal →
      (ofFailure f).toResponse.status = 500 ∧ (ofFailure f).toResponse.member? "error" = some (.string internalReason) ∧
        (ofFailure f).Alike (ofFailure g)) ∧
    (∀ e e' : StorageError, e.IsInternal → e'.IsInternal →
      (ofStorage e).toResponse.status = 500 ∧ (ofStorage e).toResponse.member? "error" = some (.string internalReason) ∧
        (e.operation = e'.operation → e.entityType = e'.entityType → e.entityId = e'.entityId →
          (ofStorage e).Alike (ofStorage e'))) ∧
    ∀ e : StorageError, ¬ e.IsInternal →
      (e.kind = .notFound ∧ (ofStorage e).toResponse.status = 404 ∨
        e.kind = .constraintViolation ∧ (ofStorage e).toResponse.status = 409) ∧
      (ofStorage e).toResponse.member? "error" = some (.string e.reason) ∧
      (ofStorage e).toResponse.member? "entity_type" = e.entityType.map .string ∧
      (ofStorage e).toResponse.member? "entity_id" = e.entityId.map .string := by
  refine ⟨status_ofFailure_eq_iff, fun _ => rfl, ?_, ?_, ?_⟩
  · intro f g hf hg
    rw [ofFailure_of_isInternal hf, ofFailure_of_isInternal hg]
    exact ⟨rfl, member?_error _, rfl, fun _ => rfl⟩
  · intro e e' he he'
    rw [ofStorage_of_isInternal he, ofStorage_of_isInternal he']
    refine ⟨rfl, member?_error _, ?_⟩
    intro hoperation htype hid
    rw [hoperation, htype, hid]
    exact ⟨rfl, fun _ => rfl⟩
  · intro e he
    have hbody := member?_context (ofStorage e)
    refine ⟨?_, ?_, hbody.1, hbody.2⟩
    · have hstatus : (ofStorage e).toResponse.status = (kindOf e.kind).status := rfl
      rw [hstatus]
      cases hkind : e.kind with
      | notFound => exact .inl ⟨rfl, rfl⟩
      | constraintViolation => exact .inr ⟨rfl, rfl⟩
      | invalidSort => exact absurd (.inl hkind) he
      | storageError => exact absurd (.inr hkind) he
    · rw [member?_error, reason_ofStorage he]

/-- Two faults of the program with nothing in common, and two errors of the storage about one post, each pair answered
alike; and a post that is not there, whose identity the answer names. -/
theorem errors_classified_and_disclosed_seeding :
    let overrun : Failure := .seedExhausted 3 "disk full"
    let unmounted : Failure := .route "unknown route 'x'"
    let broken : StorageError := ⟨.commit, .storageError, "password rejected", some "Post", some "7"⟩
    let unsortable : StorageError := ⟨.commit, .invalidSort, "cannot sort by 'secret'", some "Post", some "7"⟩
    (ofFailure overrun).Alike (ofFailure unmounted) ∧ (ofStorage broken).Alike (ofStorage unsortable) ∧
      (ofStorage (.notFound "Post" "7")).toResponse.member? "entity_id" = some (.string "7") := by
  intro overrun unmounted broken unsortable
  obtain ⟨-, -, hfailures, hstorage, hothers⟩ := errors_classified_and_disclosed
  have hoverrun : overrun.IsInternal := ⟨rfl, by simp [overrun]⟩
  have hunmounted : unmounted.IsInternal := ⟨rfl, by simp [unmounted]⟩
  exact ⟨(hfailures overrun unmounted hoverrun hunmounted).2.2,
    (hstorage broken unsortable (by decide) (by decide)).2.2 rfl rfl rfl,
    (hothers (.notFound "Post" "7") (by decide)).2.2.2⟩

end ApiError

end HypermediaApi

import ControlPlane.HostAgent.Runs

/-!
# Dispatch of host operations

A verified request is checked against the registry, reserved in the journal, handed to the
handler of its operation, and answered. Handlers are arbitrary: they perform effects through
their context, and return or fail in any way. Here are the phases of one dispatch; other
dispatches run between them.

## Main definitions

* `receive`: from the request to its reservation, or to an answer without one.
* `HostOperationContext.perform`: one effect under the fence.
* `conclude`: from the end of the handler to the answer.
-/
namespace ControlPlane.HostAgent

/-- An operation of the registry; only tasks mutate the host. -/
structure HostOperationDefinition where
  authority : HostAuthorityKind
  /-- The arguments in their normal form, or the code of the rejection. -/
  validate : List (String × Json) → Except String (List (String × Json))
  mutatesHost : Bool := false
  lease_of_mutates : mutatesHost = true → authority = .taskLease

abbrev HostOperationRegistry := String → Option HostOperationDefinition

structure HostResponse where
  status : HostResponseStatus
  code : String
  result : List (String × Json)
  replayed : Bool
  executionFencingToken : Option ℤ := none

def rejectedResponse (code : String) : HostResponse := ⟨.rejected, code, [], false, none⟩

def ambiguousResponse (result : List (String × Json)) : HostResponse :=
  ⟨.ambiguous, "OPERATION_AMBIGUOUS", result, false, none⟩

/-- A response that can be signed; a code of the wrong form is refused. -/
def signedResponse (response : HostResponse) : Option HostResponse :=
  if isResponseCode response.code then some response else none

def HostRequestMessage.fencingToken (r : HostRequestMessage) : Option ℤ :=
  r.authority.lease?.map fun lease => lease.fencingToken.val

/-! ### Receiving a request -/

/-- What becomes of a request before a handler runs. -/
inductive Reception where
  | answered (response : Option HostResponse)
  | reserved (definition : HostOperationDefinition)

/-- The operation of a request, or the code of its rejection. -/
def resolve (registry : HostOperationRegistry) (r : HostRequestMessage) :
    Except String HostOperationDefinition := do
  let definition ← Except.orThrow (registry r.operation.name) "OPERATION_NOT_ALLOWLISTED"
  Except.require (definition.authority = r.authority.kind) "AUTHORITY_NOT_ALLOWED"
  let _ ← definition.validate r.operation.arguments
  return definition

/-- Reserve the operation of a request, or answer the request. -/
def receive (rt : Runtime) (registry : HostOperationRegistry) (now : ℤ) (r : HostRequestMessage)
    (j : Journal) : Reception × Journal :=
  match resolve registry r with
  | .error code => (.answered (signedResponse (rejectedResponse code)), j)
  | .ok definition =>
    let begun := j.begin rt now r
    match begun.1 with
    | .error e => (.answered (signedResponse (rejectedResponse e.code)), begun.2)
    | .ok .ambiguous => (.answered (signedResponse (ambiguousResponse [])), begun.2)
    | .ok (.replay result) =>
      (.answered (signedResponse ⟨result.status, result.code, result.result, true,
        result.executionFencingToken⟩), begun.2)
    | .ok .execute => (.reserved definition, begun.2)

/-! ### Effects of a handler -/

structure HostOperationContext where
  authorizedEffects : ℕ := 0
  effectAttempted : Bool := false

/-- How a handler performs an effect. Staged and renewable effects report the start of the
mutation themselves. -/
inductive EffectKind where
  | authorized
  | staged (marked : Bool)
  | renewable (marked : Bool)

def EffectKind.attempts : EffectKind → Bool
  | authorized => true
  | staged marked => marked
  | renewable marked => marked

/-- Perform one effect of a request while `before` authorizes it; `after` is the check once it
returned. The flag says whether the effect was run. -/
def HostOperationContext.perform (r : HostRequestMessage) (kind : EffectKind)
    (before after : Except HostJournalError Unit) (returns : Bool) (c : HostOperationContext) :
    Bool × HostOperationContext :=
  match r.authority.lease?, before with
  | some _, .ok _ =>
    let attempted := { c with effectAttempted := c.effectAttempted || kind.attempts }
    if returns && after.isOk then
      (true, { attempted with authorizedEffects := attempted.authorizedEffects + 1 })
    else (true, attempted)
  -- Without a lease there is no guard, and an unauthorized effect is not run.
  | _, _ => (false, c)

/-! ### The end of a handler -/

inductive HandlerEnd where
  | returned (result : List (String × Json))
  | effectAmbiguous (result : List (String × Json))
  | rejected (code : String)
  | journalFailed (e : HostJournalError)
  | failed

/-- The result of a handler that is to be stored; `none` when it reports an ambiguous effect. -/
def journalResult (r : HostRequestMessage) (definition : HostOperationDefinition)
    (c : HostOperationContext) : HandlerEnd → Option JournalResult
  | .returned result =>
    if definition.mutatesHost ∧ c.authorizedEffects = 0 then
      some ⟨.rejected, "AUTHORIZATION_GUARD_REQUIRED", [], r.fencingToken⟩
    else
      match normalizeHostJsonObject result with
      | some result => some ⟨.ok, "OK", result, r.fencingToken⟩
      | none => some ⟨.rejected, "OPERATION_FAILED", [], r.fencingToken⟩
  | .effectAmbiguous _ => none
  | .rejected code => some ⟨.rejected, code, [], r.fencingToken⟩
  | .journalFailed e => some ⟨.rejected, e.code, [], r.fencingToken⟩
  | .failed => some ⟨.rejected, "OPERATION_FAILED", [], r.fencingToken⟩

/-- The evidence an ambiguous effect is answered with. -/
def HandlerEnd.evidence : HandlerEnd → List (String × Json)
  | effectAmbiguous result => result
  | _ => []

/-- Store what a handler ended with, and answer. There is no answer when the evidence of an
ambiguous effect is out of bounds. -/
def conclude (rt : Runtime) (now : ℤ) (r : HostRequestMessage)
    (definition : HostOperationDefinition) (c : HostOperationContext) (ending : HandlerEnd)
    (j : Journal) : Option HostResponse × Journal :=
  match journalResult r definition c ending with
  | none => ((normalizeHostJsonObject ending.evidence).bind fun result =>
      signedResponse (ambiguousResponse result), j)
  | some result =>
    if c.effectAttempted ∧ result.status ≠ .ok then
      (signedResponse (ambiguousResponse []), j)
    else
      let finished := j.finish rt now r result
      match finished.1 with
      | .error _ => (signedResponse (ambiguousResponse []), finished.2)
      | .ok _ => (signedResponse ⟨result.status, result.code, result.result, false,
          result.executionFencingToken⟩, finished.2)

end ControlPlane.HostAgent

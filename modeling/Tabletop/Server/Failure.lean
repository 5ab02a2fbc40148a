import Tabletop.Report
import Tabletop.Server.Form
import Tabletop.Server.Message

/-!
# Failures

Why the server refuses a request, the status code of the refusal, and its body: the kind of
the failure, its wording, and where a formula is at fault, the place of the fault.

## Main definitions

* `ErrorBody`: the body of a refusal.
* `Failure`, `Failure.status`, `Failure.body`: refusals.
-/

namespace Tabletop

/-! ### Bodies -/

/-- The body of a refusal. -/
structure ErrorBody where
  /-- The identifier of what went wrong. -/
  kind : String
  /-- What went wrong, in words. -/
  message : String
  /-- The fault in a formula that is to blame, if there is one. -/
  fault : Option Fault
  deriving DecidableEq, Repr, Inhabited

/-- The members of a refusal. A fault adds its position and its fragment. -/
def ErrorBody.toJson (e : ErrorBody) : Json :=
  .object ([("error", .string e.kind), ("message", .string e.message)] ++
    match e.fault with
    | none => []
    | some fault => [("position", .ofNat fault.position), ("fragment", .string fault.fragment)])

/-- The body for a fault in a formula. -/
def Fault.body (fault : Fault) : ErrorBody :=
  ⟨fault.kind.name, fault.message, some fault⟩

/-- The body for an error with saved rolls. -/
def SavedRollError.body (e : SavedRollError) : ErrorBody :=
  match e with
  | .invalidName _ => ⟨"invalid_name", e.message, none⟩
  | .invalidExpression _ fault => ⟨"invalid_expression", e.message, some fault⟩
  | .notFound _ => ⟨"not_found", e.message, none⟩

/-- The body for a request of a batch that fails. -/
def RollFailure.body (e : RollFailure) : ErrorBody :=
  match e with
  | .formula fault => fault.body
  | .savedRoll error => error.body
  | .invalidRequest _ => ⟨"invalid_request", e.message, none⟩

/-- The body for an error with the turn order. -/
def InitiativeError.body (e : InitiativeError) : ErrorBody :=
  match e with
  | .emptyName => ⟨"empty_name", e.message, none⟩
  | .duplicateName _ => ⟨"duplicate_name", e.message, none⟩
  | .notFound _ => ⟨"not_found", e.message, none⟩

namespace BodyFault

/-- What is wrong with a body, in words. A detail that may follow them, such as the name of a field
that is missing or the line and the column of a character, is left out. -/
def message : BodyFault → String
  | unannounced => "Expected request with `Content-Type: application/json`"
  | malformed => "Failed to parse the request body as JSON"
  | mismatched => "Failed to deserialize the JSON body into the target type"

/-- The status code for a body that cannot be used. -/
def status : BodyFault → Nat
  | unannounced => 415
  | malformed => 400
  | mismatched => 422

end BodyFault

/-! ### Failures -/

/-- Why a request is refused. -/
inductive Failure where
  /-- The body cannot be used. -/
  | body (fault : BodyFault)
  /-- The batch holds too many requests. -/
  | batchTooLarge (size : Nat)
  /-- There is a fault in the formula. -/
  | formula (fault : Fault)
  /-- The saved roll cannot be used or saved. -/
  | savedRoll (error : SavedRollError)
  /-- The turn order refuses. -/
  | initiative (error : InitiativeError)
  deriving DecidableEq, Repr, Inhabited

namespace Failure

/-- The status code of a refusal. -/
def status : Failure → Nat
  | body fault => fault.status
  | batchTooLarge _ => 400
  | formula _ => 400
  | savedRoll (.notFound _) => 404
  | savedRoll _ => 400
  | initiative .emptyName => 400
  | initiative (.duplicateName _) => 409
  | initiative (.notFound _) => 404

/-- The body of a refusal. -/
def errorBody : Failure → ErrorBody
  | body fault => ⟨"invalid_request", fault.message, none⟩
  | batchTooLarge size =>
    ⟨"batch_too_large", "batch of " ++ toString size ++ " rolls exceeds the limit of " ++
      toString maxBatchSize, none⟩
  | formula fault => fault.body
  | savedRoll error => error.body
  | initiative error => error.body

/-- A refusal as a reply. -/
def reply (failure : Failure) : Reply :=
  .json failure.status failure.errorBody.toJson

end Failure

end Tabletop

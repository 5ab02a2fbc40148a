import Tabletop.Config.Settings
import Tabletop.Server.Answer

/-!
# Starting the Server

A server starts with the saved rolls of its settings, in ascending order of their names. The
first that cannot be saved keeps the server from starting. The turn order is empty, and the
shared keystream is that of the seed or, without a seed, that of a key from outside.

## Main definitions

* `StartError`: why the server does not start.
* `Server.start`: the server that settings describe.
-/

namespace Tabletop

/-- Why the server does not start: a saved roll of its settings cannot be saved. -/
structure StartError where
  /-- The name of the saved roll. -/
  name : String
  /-- Why it cannot be saved. -/
  error : SavedRollError
  deriving DecidableEq, Repr, Inhabited

/-- The error in words, followed by its causes one after another. -/
def StartError.message (e : StartError) : String :=
  "Invalid saved roll '" ++ e.name ++ "' in config: " ++ e.error.message ++
    match e.error with
    | .invalidExpression _ fault => ": " ++ fault.message
    | _ => ""

namespace SavedRolls

/-- The rolls after several have been saved one after another, or the first that cannot
be. -/
def saveAll (rolls : SavedRolls) : List (String × String) → Except StartError SavedRolls
  | [] => .ok rolls
  | (name, text) :: others =>
    match rolls.save name text with
    | .error error => .error ⟨name, error⟩
    | .ok (_, rolls) => rolls.saveAll others

end SavedRolls

/-- The server that settings describe, where `key` stands in for a seed that is not given. -/
def Server.start (settings : Settings) (key : Key) : Except StartError Server :=
  match SavedRolls.empty.saveAll settings.savedRolls with
  | .error error => .error error
  | .ok rolls =>
    let shared := match settings.seed with
      | some seed => Keystream.ofSeed (UInt64.ofNat seed)
      | none => Keystream.ofKey key
    .ok ⟨.empty, rolls, shared, settings.host, settings.anyOrigin⟩

end Tabletop

import Tabletop.Config.Environment
import Tabletop.Config.SocketAddress

/-!
# Settings

What the server needs to know before it starts. Settings come in three layers, of which the
later ones win: the defaults, a TOML file, and environment variables. No value is converted
to make it fit: a number does not do for a text, nor a text for a number. Keys that are not
settings are ignored.

## Main definitions

* `Settings`: the settings, with their defaults.
* `Settings.ofTable?`: the settings that a table holds.
* `Settings.load`: the settings of all layers.
-/

namespace Tabletop

/-- The settings of the server. -/
structure Settings where
  /-- The address to listen on. -/
  address : SocketAddress := .default
  /-- The host to name in the description of the interface. -/
  publicHost : Option String := none
  /-- The seed of the dice. Without one the dice are unpredictable. -/
  seed : Option Nat := none
  /-- Whether pages of any origin may use the server. -/
  anyOrigin : Bool := false
  /-- The rolls to save before the server starts: texts of formulas under their names, in
  ascending order of the names. -/
  savedRolls : List (String × String) := []
  deriving DecidableEq, Repr, Inhabited

/-- Why there are no settings. -/
inductive SettingsError where
  /-- The file that was named does not exist. -/
  | fileNotFound (path : String)
  /-- A layer cannot be read, or a value does not fit. -/
  | unusable
  deriving DecidableEq, Repr, Inhabited

/-- The error in words. -/
def SettingsError.message : SettingsError → String
  | fileNotFound path => "Config file not found: " ++ path
  | unusable => "Failed to load configuration"

/-- The file of settings. -/
inductive SettingsFile where
  /-- No file is named. -/
  | unnamed
  /-- The file that is named does not exist. -/
  | missing (path : String)
  /-- The file holds a text. -/
  | content (text : String)
  deriving DecidableEq, Repr, Inhabited

namespace Settings

/-! ### Reading settings from a table -/

/-- The address that a value denotes. -/
def address? : ConfigValue → Option SocketAddress
  | .text value => SocketAddress.parse? value
  | _ => none

/-- The text that a value is. -/
def text? : ConfigValue → Option String
  | .text value => some value
  | _ => none

/-- The seed that a value is: an integer of 64 bits, not below zero. -/
def seed? : ConfigValue → Option Nat
  | .integer value => if 0 ≤ value ∧ value ≤ maxUnsigned then some value.toNat else none
  | _ => none

/-- The choice that a value is. -/
def choice? : ConfigValue → Option Bool
  | .bool value => some value
  | _ => none

/-- The texts that the values of a table are, under their keys. -/
def texts? : ConfigValue → Option (List (String × String))
  | .table members => members.mapM fun m => (text? m.2).map fun value => (m.1, value)
  | _ => none

/-- The value of a setting, which has a default if its key is missing. A value that does not
fit is an error. -/
def setting? (table : ConfigTable) (key : String) (default : α)
    (read : ConfigValue → Option α) : Option α :=
  match table.lookup key with
  | none => some default
  | some value => read value

/-- The settings that a table holds. -/
def ofTable? (table : ConfigTable) : Option Settings := do
  let address ← setting? table "bind_addr" .default address?
  let publicHost ← setting? table "public_host" none fun value => (text? value).map some
  let seed ← setting? table "rng_seed" none fun value => (seed? value).map some
  let anyOrigin ← setting? table "cors_permissive" false choice?
  let savedRolls ← setting? table "saved_rolls" [] texts?
  return ⟨address, publicHost, seed, anyOrigin, savedRolls⟩

/-! ### Layers -/

/-- The layer of settings that a file gives. -/
def fileLayer : SettingsFile → Except SettingsError ConfigTable
  | .unnamed => .ok []
  | .missing path => .error (.fileNotFound path)
  | .content text =>
    match (Toml.parse? text).bind ConfigTable.unwrap? with
    | some table => .ok table
    | none => .error .unusable

/-- The settings of a file and of environment variables. -/
def load (file : SettingsFile) (named : List (String × String)) :
    Except SettingsError Settings :=
  match fileLayer file with
  | .error error => .error error
  | .ok table =>
    match ofTable? (table.merge (Environment.layer named)) with
    | some settings => .ok settings
    | none => .error .unusable

/-- The host that the description of the interface names: the public one, or else the address
that the server listens on. -/
def host (s : Settings) : String :=
  s.publicHost.getD s.address.toText

end Settings

end Tabletop

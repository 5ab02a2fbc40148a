import Tabletop.Config.Settings

/-!
# The Command Line

What can be said when the server is started: a file of settings, and an address and a seed
that win over those of the settings.

## Main definitions

* `Arguments`, `Arguments.parse`: the arguments of the command.
* `Arguments.override`: settings with what the arguments say instead.
-/

namespace Tabletop

/-- The arguments of the command. -/
structure Arguments where
  /-- The path of the file of settings. -/
  file : Option String := none
  /-- The address to listen on. -/
  address : Option SocketAddress := none
  /-- The seed of the dice. -/
  seed : Option Nat := none
  deriving DecidableEq, Repr, Inhabited

/-- What the command is asked to do. -/
inductive Command where
  /-- To answer requests. -/
  | serve (arguments : Arguments)
  /-- To explain its arguments. -/
  | help
  /-- To name its version. -/
  | version
  deriving DecidableEq, Repr, Inhabited

/-- How the command is used. -/
def usage : String :=
  "Usage: dungeonbot [OPTIONS]\n\n" ++
  "Options:\n" ++
  "  -c, --config <CONFIG>  TOML configuration file\n" ++
  "  -b, --bind <BIND>      Address to listen on (overrides the configuration)\n" ++
  "      --seed <SEED>      Seed for the dice RNG (overrides the configuration)\n" ++
  "  -h, --help             Print help\n" ++
  "  -V, --version          Print version\n"

namespace Arguments

/-- The seed that a text denotes. -/
def seed? (text : String) : Option Nat :=
  (Text.parseNumeral? text.toList).filter (· ≤ maxUnsigned)

/-- The arguments with one option set, or `none` if its value does not fit. -/
def setOption? (arguments : Arguments) (name value : String) : Option Arguments :=
  if name = "-c" ∨ name = "--config" then some { arguments with file := some value }
  else if name = "-b" ∨ name = "--bind" then
    (SocketAddress.parse? value).map fun address => { arguments with address := some address }
  else if name = "--seed" then
    (seed? value).map fun seed => { arguments with seed := some seed }
  else none

/-- The command that a list of words asks for, continuing from `arguments`, or the word that
makes no sense. -/
def parseFrom (arguments : Arguments) : List String → Except String Command
  | [] => .ok (.serve arguments)
  | [word] =>
    if word = "-h" ∨ word = "--help" then .ok .help
    else if word = "-V" ∨ word = "--version" then .ok .version
    else .error word
  | word :: value :: words =>
    if word = "-h" ∨ word = "--help" then .ok .help
    else if word = "-V" ∨ word = "--version" then .ok .version
    else
      match arguments.setOption? word value with
      | some arguments => parseFrom arguments words
      | none => .error word

/-- The command that a list of words asks for, or the word that makes no sense. -/
def parse (words : List String) : Except String Command :=
  parseFrom {} words

/-- The settings with what the arguments say instead. -/
def override (arguments : Arguments) (settings : Settings) : Settings :=
  { settings with
    address := arguments.address.getD settings.address
    seed := arguments.seed.or settings.seed }

end Arguments

end Tabletop

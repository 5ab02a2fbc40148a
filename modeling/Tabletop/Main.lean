import Tabletop.CommandLine
import Tabletop.Server.Exchange
import Tabletop.Server.Start

/-!
# The Command

Starts a server and answers the requests on its standard input, one JSON value a line, with
replies on its standard output. Everything that the answers depend on is decided elsewhere;
this module only reads and writes.
-/

open Tabletop

/-- The environment variables that may hold settings. -/
def settingVariables : List String :=
  ["DUNGEONBOT_BIND_ADDR", "DUNGEONBOT_PUBLIC_HOST", "DUNGEONBOT_RNG_SEED",
    "DUNGEONBOT_CORS_PERMISSIVE", "DUNGEONBOT_SAVED_ROLLS"]

/-- The settings among the environment variables. -/
def readVariables : IO (List (String × String)) :=
  settingVariables.filterMapM fun name => do
    return (← IO.getEnv name).map fun value => (name, value)

/-- The file of settings. -/
def readSettingsFile (path : Option String) : IO SettingsFile := do
  match path with
  | none => return .unnamed
  | some path =>
    try return .content (← IO.FS.readFile path)
    catch _ => return .missing path

/-- A key that cannot be foreseen. -/
def randomKey : IO Key := do
  let bytes ← IO.getRandomBytes 32
  return Vector.ofFn fun i =>
    (List.range 4).foldl
      (fun word j => word <<< 8 ||| (bytes.toList.getD (4 * i + j) 0).toUInt32) 0

/-- Answers requests until the input ends. -/
partial def answerLines (server : Server) (input output : IO.FS.Stream) : IO Unit := do
  let line ← input.getLine
  if line.isEmpty then return
  match Json.parse line with
  | none =>
    output.putStrLn (Reply.bare 400).toJson.compact
    output.flush
    answerLines server input output
  | some value =>
    let (reply, server) := server.answer (.ofJson value)
    output.putStrLn reply.toJson.compact
    output.flush
    answerLines server input output

/-- Starts the server and answers requests. -/
def serve (arguments : Arguments) : IO UInt32 := do
  match Settings.load (← readSettingsFile arguments.file) (← readVariables) with
  | .error error =>
    IO.eprintln ("Error: " ++ error.message)
    return 1
  | .ok settings =>
    match Server.start (arguments.override settings) (← randomKey) with
    | .error error =>
      IO.eprintln ("Error: " ++ error.message)
      return 1
    | .ok server =>
      answerLines server (← IO.getStdin) (← IO.getStdout)
      return 0

/-- The command: does what its arguments say. -/
def main (words : List String) : IO UInt32 := do
  match Arguments.parse words with
  | .error word =>
    IO.eprintln ("error: unexpected argument '" ++ word ++ "'\n\n" ++ usage)
    return 2
  | .ok .help =>
    IO.print usage
    return 0
  | .ok .version =>
    IO.println (serverName ++ " " ++ serverVersion)
    return 0
  | .ok (.serve arguments) => serve arguments

import MeetingCalendar.CommandLine.Arguments
import MeetingCalendar.Settings.Sources

/-!
# The program

Reads the arguments, the settings and the request, runs the command and prints what it gives.  The
exit code is 0 for an accepted request, 1 for a refused one or an error, and 2 for wrong arguments.
-/

namespace MeetingCalendar.CommandLine

def usage : String :=
  "Validate calendar requests and expand their meeting dates\n\n" ++
  "Usage: almanac [--config FILE] COMMAND\n\n" ++
  "Commands:\n" ++
  "  validate [--mode create|update] INPUT\n" ++
  "  parse INPUT\n" ++
  "  expand INPUT --from DATE --to DATE [--limit NUMBER]\n"

def UsageError.message : UsageError → String
  | noArguments => "a command is needed"
  | missingCommand => "a command is needed"
  | unknownCommand => "unrecognized command"
  | unknownArgument => "unexpected argument"
  | missingArgument => "a required argument is missing"
  | repeatedArgument => "an argument cannot be used more than once"
  | unexpectedValue => "an option takes no value"
  | invalidValue => "an option has no such value"
  | unreadableValue => "a value cannot be read"
  | help => ""

def variableNames : List String :=
  ["ALMANAC__LOGGING__LEVEL", "ALMANAC__CALENDAR__TITLE_MAX_LENGTH",
    "ALMANAC__CALENDAR__DESCRIPTION_MAX_LENGTH", "ALMANAC__CALENDAR__LOCATION_MAX_LENGTH",
    "ALMANAC__CALENDAR__DEFAULT_DATE_FORMAT", "ALMANAC__CALENDAR__DEFAULT_TIME_FORMAT",
    "ALMANAC__CALENDAR__REMINDER_OFFSETS_ON_UPDATE", "ALMANAC__EXPANSION__MAX_OCCURRENCES"]

def readEnvironment : IO (List (String × String)) :=
  variableNames.filterMapM fun name ↦ do
    return (← IO.getEnv name).map (name, ·)

/-- The text of an input; `-` is the standard input. -/
def readInput (name : String) : IO String := do
  if name = "-" then (← IO.getStdin).readToEnd else IO.FS.readFile name

def runInvocation (invocation : Invocation) : IO UInt32 := do
  let file ← invocation.config.mapM fun path ↦ IO.FS.readFile path
  match Settings.load file (← readEnvironment) with
  | .error (.invalid cause) =>
    IO.eprintln ("Error: " ++ cause.describe)
    return 1
  | .error .unreadable =>
    IO.eprintln "Error: the configuration cannot be read"
    return 1
  | .ok settings =>
    match invocation.command.run settings (← readInput invocation.command.input) with
    | .error e =>
      IO.eprintln ("Error: " ++ e.message)
      return 1
    | .ok outcome =>
      IO.println outcome.output.pretty
      return if outcome.accepted then 0 else 1

end MeetingCalendar.CommandLine

def main (arguments : List String) : IO UInt32 := do
  match MeetingCalendar.CommandLine.read arguments with
  | .ok invocation => MeetingCalendar.CommandLine.runInvocation invocation
  | .error .help =>
    IO.println MeetingCalendar.CommandLine.usage
    return 0
  | .error e =>
    IO.eprintln ("error: " ++ e.message ++ "\n\n" ++ MeetingCalendar.CommandLine.usage)
    return 2

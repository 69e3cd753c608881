import EnvAudit.CommandLine.Configure
import EnvAudit.CommandLine.Scan

/-!
# Running the program

From arguments, lines of input and files to an exit code, what is printed, what is recorded and the
files afterwards.
-/

namespace EnvAudit.CommandLine

def versionLine : String := "env-guardian, version " ++ Report.documentVersion

def helpText : String :=
  "Usage: env-guardian [-v] [-q] COMMAND

Find hardcoded values that should be environment variables.

Commands:
  scan [PATH]            Look for values and report them
  ignore NAME...         Do not report variables
  ignore-files FILE...   Do not report variables of files
  ignore-list            Show what is not reported
  reset-ignore           Report everything again
  priority LEVEL         Set the least severity to report
  init                   Write a configuration file
"

variable [Yaml.Library] [Pattern.Compiler] [Terminal.Console]

/-- Does what a command asks for; gives the exit code. -/
def Command.perform (loudness : Loudness) : Command → Act Nat
  | .scan options => CommandLine.scan options loudness
  | .ignore names => ignoreVariables names
  | .ignoreFiles names => CommandLine.ignoreFiles names
  | .ignoreList => listIgnored
  | .resetIgnore force => resetIgnored force
  | .priority level => setPriority level
  | .init force => writeTemplate force

/-- Why the program ends early. -/
inductive ProgramError
  | usage (cause : UsageError)
  | failure (cause : Failure)
deriving Repr

def ProgramError.message : ProgramError → String
  | usage cause => "Error: " ++ cause.message
  | failure cause => cause.message

/-- What is left when the program has ended. -/
structure Ending where
  exitCode : Nat
  output : String := ""
  log : List LogRecord := []
  fs : FileSystem
  error : Option ProgramError := none

def Loudness.logLevel (loudness : Loudness) : LogLevel :=
  if loudness.verbose then .debug else if loudness.quiet then .error else .warning

def run [ArgumentParser] (args : List String) (input : List String) (fs : FileSystem) : Ending :=
  match Request.read fs args with
  | .error (.usage cause) => { exitCode := 2, fs, error := some (.usage cause) }
  | .error (.file cause) =>
    { exitCode := 1, fs, error := some (.failure (.document (.file cause))) }
  | .ok .version => { exitCode := 0, output := versionLine ++ "\n", fs }
  | .ok .help => { exitCode := 0, output := helpText, fs }
  | .ok (.run loudness command) =>
    let (result, session) := (command.perform loudness).run.run { fs, input }
    let (exitCode, error) := match result with
      | .ok code => (code, none)
      | .error cause => (1, some (.failure cause))
    { exitCode, error, output := String.ofList session.output, fs := session.fs,
      log := session.log.filter fun r => loudness.logLevel.rank ≤ r.level.rank }

end EnvAudit.CommandLine

import EnvAudit.CommandLine.Parser
import EnvAudit.Pattern.Reader
import EnvAudit.Terminal.Screen
import EnvAudit.Text.CharName
import EnvAudit.Yaml.Read
import EnvAudit.Yaml.Write

/-!
# Libraries

The libraries with which the program runs.  They do what the program needs of them; what holds for the
program holds with others as well.
-/

namespace EnvAudit.Libraries

scoped instance yaml : Yaml.Library where
  read := Yaml.read
  write := Yaml.write

scoped instance patterns : Pattern.Compiler where
  compile := Pattern.parse Text.charNamed?

scoped instance arguments : CommandLine.ArgumentParser where
  read := CommandLine.Arguments.read

/-- The width of a terminal that does not tell its own. -/
def defaultWidth : Nat := 80

scoped instance terminal : Terminal.Console := Terminal.screen defaultWidth .none

end EnvAudit.Libraries

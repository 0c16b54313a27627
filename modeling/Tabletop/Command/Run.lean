import Tabletop.Command.Duel
import Tabletop.Command.Payload
import Tabletop.Command.Play

/-!
Running a command on files and lines that are known beforehand.
-/

namespace Tabletop.Command

/-- The code of a command line that makes no command. -/
def usageCode : Nat := 2

/-- Runs the command that arguments make, and gives its output and the files afterwards. A series may
take `steps` steps; there is no answer if it takes more. -/
def runArguments (solver : Payload → Solver.Answer) (steps : Nat) (lines : List String)
    (files : Files) (arguments : List String) : Option (Output × Files) :=
  match Invocation.read? arguments with
  | none => some (⟨{}, usageCode⟩, files)
  | some (.play options) => play solver steps lines files options
  | some (.compile options) => some (compile files options, files)
  | some (.check options) => some (check files options, files)
  | some (.validate path) => some (validate files path, files)
  | some (.duel options) => some (duel options, files)

end Tabletop.Command

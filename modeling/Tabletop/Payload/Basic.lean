import Tabletop.Payload.Variable
import Tabletop.Payload.Constraint

/-!
Payloads: the optimisation problem of one move. Its variables are to be chosen under constraints so
that the objective is least, and the value of the answer under that choice is the position to play.
-/

namespace Tabletop

structure Payload where
  unknowns : Payload.Variables
  constraints : List Payload.Constraint
  objective : String
  answer : String
  deriving BEq

end Tabletop

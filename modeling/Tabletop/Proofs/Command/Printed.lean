import Tabletop.Proofs.Payload.Declared
import Tabletop.Command.Payload

/-!
What the commands about payloads print. It is the text that is shown of the payload they computed, and
that text has the variables in the order of their names.
-/

namespace Tabletop

namespace Payload

end Payload

namespace Command

open Payload

end Command
end Tabletop

import Tabletop.Payload.Formula
import Tabletop.Script.Tree.Outline

/-!
Outlines of formulas: every node in parentheses, its name first.
-/

namespace Tabletop.Payload

def Joining.name : Joining → String
  | add => "Add"
  | sub => "Sub"

def Scaling.name : Scaling → String
  | mul => "Mul"
  | div => "Div"

namespace Formula

mutual
def outline : Formula → String
  | .number value => Number.programText value.toFloat
  | .reference name => name
  | .neg inner => Script.node ["neg", outline inner]
  | .sum first rest => Script.node ("sum" :: outline first :: termOutlines rest)
  | .product first rest => Script.node ("prod" :: outline first :: factorOutlines rest)
  | .power base exponent => Script.node ["pow", outline base, outline exponent]
def termOutlines : List (Joining × Formula) → List String
  | [] => []
  | (joining, term) :: rest => joining.name :: outline term :: termOutlines rest
def factorOutlines : List (Scaling × Formula) → List String
  | [] => []
  | (scaling, factor) :: rest => scaling.name :: outline factor :: factorOutlines rest
end

end Formula
end Tabletop.Payload

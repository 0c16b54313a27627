import Tabletop.Board.Opponent
import Tabletop.Scoring.Settings
import Tabletop.Solver.Basic
import Tabletop.Json.Reader
import Tabletop.Json.Shape
import Tabletop.Json.Writer

/-!
The settings of a match and the JSON file that holds them. Every field of the file may be missing and
then has its default.
-/

namespace Tabletop

/-- What happens when a solver chooses a position that is refused: the round is abandoned, or a legal
position is drawn instead. -/
inductive OccupiedPolicy where
  | reject
  | substituteLegal
  deriving DecidableEq, Repr

def OccupiedPolicy.name : OccupiedPolicy → String
  | reject => "reject"
  | substituteLegal => "substitute_legal"

def OccupiedPolicy.ofName? : String → Option OccupiedPolicy
  | "reject" => some reject
  | "substitute_legal" => some substituteLegal
  | _ => none

/-- Times are in milliseconds. -/
structure MatchSettings where
  winsToTake : Nat := 3
  moveDelay : Nat := 500
  occupied : OccupiedPolicy := .reject
  solver : Solver.Settings := {}
  seed : Nat := defaultSeed
  scoring : Scoring.Settings := {}
  /-- Where games are saved; without it they are not. -/
  saveDirectory : Option String := none
  deriving DecidableEq, Repr

/-- A series takes one win at least. -/
def MatchSettings.withWins (settings : MatchSettings) (wins : Nat) : MatchSettings :=
  { settings with winsToTake := max wins 1 }

/-! ## The settings file -/

/-- A field's value, its default if the field is missing. -/
def fieldOr {α : Type} (read : Json → Option α) (default : α) : Option Json → Option α
  | none => some default
  | some json => read json

def Solver.Settings.toJson (settings : Solver.Settings) : Json :=
  .obj [("endpoint", .str settings.endpoint), ("timeout_ms", .int settings.timeout)]

def Solver.Settings.fieldNames : List String := ["endpoint", "timeout_ms"]

def Solver.Settings.ofJson? (json : Json) : Option Solver.Settings := do
  let [endpoint, timeout] ← json.record? fieldNames | none
  let initial : Solver.Settings := {}
  let endpoint ← fieldOr Json.str? initial.endpoint endpoint
  let timeout ← fieldOr (Json.unsigned? 64) initial.timeout timeout
  return ⟨endpoint, timeout⟩

def Scoring.Settings.toJson (settings : Scoring.Settings) : Json :=
  .obj [("step_budget", .int settings.stepBudget), ("max_call_depth", .int settings.maxCallDepth),
    ("max_string_len", .int settings.maxStringLength),
    ("max_array_len", .int settings.maxArrayLength), ("entry", .str settings.entry)]

def Scoring.Settings.fieldNames : List String :=
  ["step_budget", "max_call_depth", "max_string_len", "max_array_len", "entry"]

def Scoring.Settings.ofJson? (json : Json) : Option Scoring.Settings := do
  let [steps, depth, string, array, entry] ← json.record? fieldNames | none
  let initial : Scoring.Settings := {}
  let steps ← fieldOr (Json.unsigned? 64) initial.stepBudget steps
  let depth ← fieldOr (Json.unsigned? 64) initial.maxCallDepth depth
  let string ← fieldOr (Json.unsigned? 64) initial.maxStringLength string
  let array ← fieldOr (Json.unsigned? 64) initial.maxArrayLength array
  let entry ← fieldOr Json.str? initial.entry entry
  return ⟨⟨steps, depth, string, array⟩, entry⟩

namespace MatchSettings

def seedOfJson? (json : Json) : Option Nat := do
  let [seed] ← json.record? ["seed"] | none
  fieldOr (Json.unsigned? 64) defaultSeed seed

def directoryOfJson? : Json → Option (Option String)
  | .null => some none
  | json => json.str?.map some

def toJson (settings : MatchSettings) : Json :=
  .obj [("wins_to_take_series", .int settings.winsToTake), ("move_delay_ms", .int settings.moveDelay),
    ("occupied_policy", .str settings.occupied.name), ("solver", settings.solver.toJson),
    ("engine", .obj [("seed", .int settings.seed)]), ("sandbox", settings.scoring.toJson),
    ("snapshot_dir", match settings.saveDirectory with
      | some directory => .str directory
      | none => .null)]

def fieldNames : List String :=
  ["wins_to_take_series", "move_delay_ms", "occupied_policy", "solver", "engine", "sandbox",
    "snapshot_dir"]

/-- What is looked at in the values of the fields. -/
def fieldForms : List Json.Form :=
  [.whole, .whole, .whole, .ofNames Solver.Settings.fieldNames, .ofNames ["seed"],
    .ofNames Scoring.Settings.fieldNames, .whole]

/-- What is looked at in a settings file. -/
def form : Json.Form := .record (fieldNames.zip fieldForms)

def ofJson? (json : Json) : Option MatchSettings := do
  let [wins, delay, occupied, solver, engine, scoring, directory] ← json.record? fieldNames | none
  let initial : MatchSettings := {}
  let wins ← fieldOr (Json.unsigned? 32) initial.winsToTake wins
  let delay ← fieldOr (Json.unsigned? 64) initial.moveDelay delay
  let occupied ←
    fieldOr (fun json => json.name?.bind OccupiedPolicy.ofName?) initial.occupied occupied
  let solver ← fieldOr Solver.Settings.ofJson? initial.solver solver
  let seed ← fieldOr seedOfJson? initial.seed engine
  let scoring ← fieldOr Scoring.Settings.ofJson? initial.scoring scoring
  let directory ← fieldOr directoryOfJson? initial.saveDirectory directory
  return ⟨wins, delay, occupied, solver, seed, scoring, directory⟩

/-- Reads the text of a settings file. -/
def read? (text : String) : Option MatchSettings := (Json.readAs? form text).bind ofJson?

/-- The text that a settings file is given. -/
def fileText (settings : MatchSettings) : String := settings.toJson.pretty

/-- Why a settings file gives no settings. -/
inductive FileProblem where
  | missing (path : String)
  | unreadable (path : String)
  deriving DecidableEq, Repr

def FileProblem.message : FileProblem → String
  | missing path => s!"reading match config {path}"
  | unreadable path => s!"parsing match config {path}"

/-- The settings in a file, whose text is none if it does not exist. -/
def load (path : String) : (text : Option String) → Except FileProblem MatchSettings
  | none => .error (.missing path)
  | some text => match read? text with
    | some settings => .ok settings
    | none => .error (.unreadable path)

end MatchSettings
end Tabletop

import Tabletop.Command.Options
import Tabletop.Match.Source
import Tabletop.Number.Decimal
import Tabletop.Scoring.Settings

/-!
The commands and their options.
-/

namespace Tabletop.Command

structure PlayOptions where
  game : GameKind
  first : MoveSource
  second : MoveSource
  program : Option String
  settings : Option String
  mode : GameMode
  endpoint : Option String
  wins : Option Nat
  seed : Option Nat
  saveDirectory : Option String
  resume : Bool
  deriving DecidableEq, Repr

structure CompileOptions where
  game : GameKind
  program : String
  board : Option String
  settings : Option String
  deriving DecidableEq, Repr

structure CheckOptions where
  program : String
  entry : String
  deriving DecidableEq, Repr

structure DuelOptions where
  game : GameKind
  first : Difficulty
  second : Difficulty
  rounds : Nat
  seed : Nat
  json : Bool
  deriving DecidableEq, Repr

/-- A series in the terminal, a program's payload, a look at a program, a payload's normal form, or
local opponents against each other. -/
inductive Invocation where
  | play (options : PlayOptions)
  | compile (options : CompileOptions)
  | check (options : CheckOptions)
  | validate (payload : String)
  | duel (options : DuelOptions)
  deriving DecidableEq, Repr

/-! ## Values of options -/

def gameOf? : String → Option GameKind
  | "ttt" | "tictactoe" => some .threeInARow
  | "connect4" | "c4" => some .dropGame
  | "mancala" => some .sowingGame
  | _ => none

/-- A path is not empty. -/
def pathOf? (text : String) : Option String := if text.isEmpty then none else some text

/-- A number below `2 ^ bits`, with a plus sign at most. -/
def naturalOf? (bits : Nat) (text : String) : Option Nat :=
  let digits := match text.toList with
    | '+' :: rest => rest
    | other => other
  if digits.isEmpty || !digits.all Char.isDigit then none
  else Number.natBelow? (Nat.pow 2 bits) digits

/-- A number of wins; minus zero is one too. -/
def winsOf? (text : String) : Option Nat :=
  match Number.readSigned64? text.toList with
  | some value => if 0 ≤ value ∧ value < Nat.pow 2 32 then some value.toNat else none
  | none => none

/-! ## Commands -/

def playTable : OptionTable :=
  [("game", .value), ("first", .value), ("second", .value), ("program", .value), ("config", .value),
    ("mode", .value), ("endpoint", .value), ("wins", .value), ("seed", .value),
    ("snapshot-dir", .value), ("resume", .flag)]

def readPlay? (arguments : List String) : Option PlayOptions := do
  let given ← readOptions playTable [] arguments
  return {
    game := ← given.required "game" gameOf?
    first := ← given.withDefault "first" .human MoveSource.read?
    second := ← given.withDefault "second" (.local .easy) MoveSource.read?
    program := ← given.optional "program" pathOf?
    settings := ← given.optional "config" pathOf?
    mode := ← given.withDefault "mode" .classic GameMode.read?
    endpoint := ← given.optional "endpoint" some
    wins := ← given.optional "wins" winsOf?
    seed := ← given.optional "seed" (naturalOf? 64)
    saveDirectory := ← given.optional "snapshot-dir" pathOf?
    resume := given.flag "resume" }

def compileTable : OptionTable :=
  [("game", .value), ("program", .value), ("board", .value), ("config", .value)]

def readCompile? (arguments : List String) : Option CompileOptions := do
  let given ← readOptions compileTable [] arguments
  return {
    game := ← given.required "game" gameOf?
    program := ← given.required "program" pathOf?
    board := ← given.optional "board" some
    settings := ← given.optional "config" pathOf? }

def checkTable : OptionTable := [("program", .value), ("entry", .value)]

def readCheck? (arguments : List String) : Option CheckOptions := do
  let given ← readOptions checkTable [] arguments
  let initial : Scoring.Settings := {}
  return {
    program := ← given.required "program" pathOf?
    entry := ← given.withDefault "entry" initial.entry some }

def readValidate? (arguments : List String) : Option String := do
  let given ← readOptions [("payload", .value)] [] arguments
  given.required "payload" pathOf?

def duelTable : OptionTable :=
  [("game", .value), ("first", .value), ("second", .value), ("rounds", .value), ("seed", .value),
    ("json", .flag)]

def readDuel? (arguments : List String) : Option DuelOptions := do
  let given ← readOptions duelTable [] arguments
  return {
    game := ← given.required "game" gameOf?
    first := ← given.withDefault "first" .medium Difficulty.read?
    second := ← given.withDefault "second" .easy Difficulty.read?
    rounds := ← given.withDefault "rounds" 100 (naturalOf? 64)
    seed := ← given.withDefault "seed" defaultSeed (naturalOf? 64)
    json := given.flag "json" }

/-- Reads the arguments of the program, none if they make no command. -/
def Invocation.read? : List String → Option Invocation
  | "play" :: arguments => (readPlay? arguments).map .play
  | "compile" :: arguments => (readCompile? arguments).map .compile
  | "check" :: arguments => (readCheck? arguments).map .check
  | "validate" :: arguments => (readValidate? arguments).map .validate
  | "duel" :: arguments => (readDuel? arguments).map .duel
  | _ => none

/-- The files that a command reads besides a saved game. -/
def Invocation.paths : Invocation → List String
  | .play options => options.program.toList ++ options.settings.toList
  | .compile options => options.program :: options.settings.toList
  | .check options => [options.program]
  | .validate payload => [payload]
  | .duel _ => []

end Tabletop.Command

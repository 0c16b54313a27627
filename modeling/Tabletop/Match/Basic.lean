import Tabletop.Match.Series
import Tabletop.Match.Settings
import Tabletop.Match.SavedGame
import Tabletop.Payload.Problem

/-!
Matches: rounds of one game between two players, from the choice of a mode to the end of a series.
-/

namespace Tabletop

/-- Where a match stands. While a move is awaited the match is locked. -/
inductive Phase where
  | modeSelect
  | setup
  | playing
  | awaitingMove (source : MoveSource)
  | nextRoundReady
  | seriesOver (winner : Mark)
  deriving DecidableEq, Repr

def Phase.describe : Phase → String
  | modeSelect => "ModeSelect"
  | setup => "Setup"
  | playing => "Playing"
  | awaitingMove source => s!"AwaitingMove({source.describe})"
  | nextRoundReady => "NextRoundReady"
  | seriesOver winner => s!"SeriesOver \x7b winner: {winner.name} \x7d"

def Outcome.describe : Outcome → String
  | ongoing => "Ongoing"
  | win winner => s!"Win({winner.name})"
  | draw => "Draw"

/-- What a person or the program around a match asks for. -/
inductive Event where
  | enterSetup (mode : GameMode)
  | configure (mark : Mark) (source : MoveSource)
  | startGame
  | select (position : Nat)
  | continue
  | returnToSetup
  | returnToModeSelect
  | loadGame
  | clearSaved
  deriving DecidableEq, Repr

def Event.describe : Event → String
  | enterSetup mode => s!"EnterSetup({mode.name})"
  | configure mark source =>
    s!"Configure \x7b mark: {mark.name}, source: {source.describe} \x7d"
  | startGame => "StartGame"
  | select position => s!"Select({position})"
  | .continue => "Continue"
  | returnToSetup => "ReturnToSetup"
  | returnToModeSelect => "ReturnToModeSelect"
  | loadGame => "LoadSnapshot"
  | clearSaved => "ClearSnapshot"

/-- Why an event is ignored. -/
inductive Refusal where
  | locked (event : Event)
  | modeAlreadyChosen
  | notSettingUp
  | tierLocked (difficulty : Difficulty)
  | notStartable
  | noProgram
  | noGame
  | notHuman (mover : Mark) (source : MoveSource)
  | illegal (mover : Mark) (position : Nat) (reason : IllegalMove)
  | nothingToContinue
  | noMode
  | savingDisabled
  | savedGameOver
  | noSavedGame
  | notLoaded (problem : FileProblem)
  | notCleared (problem : FileProblem)
  deriving DecidableEq, Repr

def Refusal.message : Refusal → String
  | locked event => s!"{event.describe} ignored: a move is being resolved"
  | modeAlreadyChosen => "mode can only be chosen from mode select"
  | notSettingUp => "players can only be configured during setup"
  | tierLocked difficulty => s!"{difficulty.name} is locked"
  | notStartable => "a game can only be started from setup"
  | noProgram => "no program code found for the solver player"
  | noGame => "no game in progress"
  | notHuman mover source => s!"it is not a human turn ({mover.title} is {source.text})"
  | illegal mover position reason => s!"{mover.title} cannot play {position}: {reason.message}"
  | nothingToContinue => "nothing to continue"
  | noMode => "choose a mode first"
  | savingDisabled => "snapshot persistence is disabled"
  | savedGameOver => "saved game is already over"
  | noSavedGame => "no saved game"
  | notLoaded problem => s!"could not load saved game: {problem.message}"
  | notCleared problem => s!"could not clear saved game: {problem.message}"

inductive Response where
  | accepted
  | ignored (reason : Refusal)
  deriving DecidableEq, Repr

/-- Why a position is refused. -/
inductive Rejection where
  | negative
  | illegal (reason : IllegalMove)
  deriving DecidableEq, Repr

def Rejection.message : Rejection → String
  | negative => "negative position"
  | illegal reason => reason.message

/-- Why a turn that is not a person's gives no move. -/
inductive TurnFailure where
  | program (failure : Scoring.Failure)
  | payload (problem : Payload.Invalid)
  | solver (failure : Solver.Failure)
  | illegalMove (position : Int) (reason : Rejection)
  | noMove
  | notAwaiting
  deriving DecidableEq, Repr

def TurnFailure.message : TurnFailure → String
  | program failure => s!"scoring program failed: {failure.message}"
  | payload problem => s!"invalid payload: {problem.message}"
  | solver failure => failure.message
  | illegalMove position reason => s!"illegal move at position {position}: {reason.message}"
  | noMove => "no legal move available"
  | notAwaiting => "no turn of that kind is being resolved"

/-- What has to be done for a turn that is not a person's. -/
inductive TurnJob where
  | local (difficulty : Difficulty)
  | remote (payload : Payload)

/-- How a match goes on after a move: with a player, with another round, or not at all. -/
inductive AfterMove where
  | continue (next : Mark)
  | roundOver (outcome : Outcome)
  | seriesOver (winner : Mark)
  deriving DecidableEq, Repr

def AfterMove.describe : AfterMove → String
  | .continue next => s!"Continue \x7b next: {next.name} \x7d"
  | roundOver outcome => s!"RoundOver({outcome.describe})"
  | seriesOver winner => s!"SeriesOver({winner.name})"

/-- A move that was played. -/
structure MoveReport where
  mark : Mark
  position : Nat
  effect : Effect
  after : AfterMove
  deriving DecidableEq, Repr

inductive Level where
  | info
  | warning
  | error
  deriving DecidableEq, Repr

def Level.name : Level → String
  | info => "info"
  | warning => "warn"
  | error => "error"

/-- A line of a match's log. -/
structure Diagnostic where
  level : Level
  text : String
  deriving DecidableEq, Repr

def Diagnostic.line (d : Diagnostic) : String := s!"[{d.level.name}] {d.text}"

/-- A person against the easiest opponent. -/
def defaultSources : Sides MoveSource := ⟨.human, .local .easy⟩

structure Match (Board : Type) where
  settings : MatchSettings
  board : Board
  mover : Mark
  phase : Phase
  mode : GameMode
  sources : Sides MoveSource
  series : Series
  /-- The scoring program of players that ask a solver. -/
  program : String
  /-- Where local opponents draw from. -/
  stream : RandomStream
  /-- What happened since the log was last taken away. -/
  log : List Diagnostic
  lastMove : Option MoveReport
  /-- Why the last round was abandoned. -/
  lastFailure : Option TurnFailure

namespace Match
variable {Board : Type} [StrongPlay Board]

/-- A match before a mode is chosen. -/
def new (settings : MatchSettings) : Match Board where
  settings := settings
  board := Rules.opening
  mover := .first
  phase := .modeSelect
  mode := .classic
  sources := defaultSources
  series := .fresh
  program := ""
  stream := .ofSeed settings.seed.toUInt64
  log := []
  lastMove := none
  lastFailure := none

def withProgram (m : Match Board) (program : String) : Match Board :=
  { m with program := program }

/-- Who picks the next move. -/
def moverSource (m : Match Board) : MoveSource := m.sources.of m.mover

def isLocked (m : Match Board) : Bool :=
  match m.phase with
  | .awaitingMove _ => true
  | _ => false

/-- Where the match is saved, if it is. -/
def savePlace? (m : Match Board) : Option SavePlace :=
  m.settings.saveDirectory.map fun directory => .ofDirectory directory (Rules.kind Board)

def note (m : Match Board) (level : Level) (text : String) : Match Board :=
  { m with log := m.log ++ [⟨level, text⟩] }

def info (m : Match Board) (text : String) : Match Board := m.note .info text

def warn (m : Match Board) (text : String) : Match Board := m.note .warning text

/-- Takes the log away. -/
def drainLog (m : Match Board) : List Diagnostic × Match Board := (m.log, { m with log := [] })

/-- The opening position with the first player to move. -/
def clearBoard (m : Match Board) : Match Board :=
  { m with board := Rules.opening, mover := .first, lastMove := none }

def resetScore (m : Match Board) : Match Board := { m with series := m.series.resetScore }

end Match
end Tabletop

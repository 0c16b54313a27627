import Tabletop.Match.Handle
import Tabletop.Match.Turn

/-!
Sessions: queued events are handed to a match one after another, and turns that are not a person's are
played between them. A turn takes time, and events that come meanwhile find the match locked. Someone
who listens is told every new line of the log and the board after every event and every turn.
-/

namespace Tabletop

inductive Update (Board : Type) where
  | diagnostic (line : Diagnostic)
  | board (board : Board) (mover : Mark) (phase : Phase)

/-- Whether someone listens; one who has gone is noticed when something is sent. -/
inductive Listener where
  | absent
  | listening
  | gone
  deriving DecidableEq, Repr

structure Session (Board : Type) where
  game : Match Board
  file : SaveFile
  /-- Events that were not handed over yet, the oldest first. -/
  queue : List Event
  /-- How many of the queued events come during each wait in turn; without an entry all of them. -/
  arrivals : List Nat
  /-- What the solver answers in turn. -/
  answers : List Solver.Answer
  /-- What the solver answers afterwards. -/
  lastAnswer : Solver.Answer
  listener : Listener
  /-- How many lines of the log the listener knows. -/
  known : Nat
  /-- What the listener was told, the oldest first. -/
  updates : List (Update Board)

namespace Session
variable {Board : Type} [StrongPlay Board]

/-- A session of a match; its listener is told what happens from now on. -/
def new (game : Match Board) (file : SaveFile) (queue : List Event)
    (answers : List Solver.Answer) (lastAnswer : Solver.Answer) (listener : Listener) :
    Session Board where
  game := game
  file := file
  queue := queue
  arrivals := []
  answers := answers
  lastAnswer := lastAnswer
  listener := listener
  known := game.log.length
  updates := []

/-- Tells the listener the new lines of the log and the board. -/
def publish (s : Session Board) : Session Board :=
  match s.listener with
  | .absent => s
  | .gone => { s with listener := .absent }
  | .listening =>
    let lines := (s.game.log.drop s.known).map Update.diagnostic
    { s with
      known := s.game.log.length
      updates := s.updates ++ lines ++ [.board s.game.board s.game.mover s.game.phase] }

def handleEvent (s : Session Board) (event : Event) : Session Board :=
  let (_, game, file) := s.game.handle s.file event
  { s with game := game, file := file }.publish

/-- Waits while a turn is resolved, and handles the events that come meanwhile. -/
def wait (s : Session Board) : Session Board :=
  let count := s.arrivals.headD s.queue.length
  let waited := (s.queue.take count).foldl handleEvent s
  { waited with queue := s.queue.drop count, arrivals := s.arrivals.tail }

/-- The solver's next answer. -/
def ask (s : Session Board) : Solver.Answer × Session Board :=
  match s.answers with
  | [] => (s.lastAnswer, s)
  | answer :: rest => (answer, { s with answers := rest })

def complete (s : Session Board) (completed : Match.Completed Board) : Bool × Session Board :=
  let (result, game, file) := completed
  (result.toBool, { s with game := game, file := file }.publish)

/-- Plays one turn that is not a person's, and says whether a move was made. -/
def takeTurn (s : Session Board) : Bool × Session Board :=
  match s.game.beginTurn with
  | (.ok none, game) => (false, { s with game := game })
  | (.error _, game) => (false, { s with game := game }.publish)
  | (.ok (some job), game) =>
    let s := { s with game := game }.publish
    let s := if s.game.settings.moveDelay = 0 then s else s.wait
    match job with
    | .local _ => s.complete (s.game.completeLocal s.file)
    | .remote _ =>
      let (answer, s) := s.wait.ask
      s.complete (s.game.completeRemote s.file answer)

/-- Plays turns until a person has to move or the round is over, `count` at most. -/
def takeTurns : (count : Nat) → Session Board → Session Board
  | 0, s => s
  | count + 1, s =>
    match s.takeTurn with
    | (true, s) => takeTurns count s
    | (false, s) => s

/-- Plays all turns that can be played before the next event. -/
def settle (s : Session Board) : Session Board :=
  s.takeTurns (Rules.movesLeft s.game.board + 1)

/-- Hands over events, `count` at most, and plays the turns between them. -/
def runFor : (count : Nat) → Session Board → Session Board
  | 0, s => s.settle
  | count + 1, s =>
    let s := s.settle
    match s.queue with
    | [] => s
    | event :: rest => runFor count ({ s with queue := rest }.handleEvent event)

/-- Runs a session until all events are handled and no turn can be played. -/
def run (s : Session Board) : Session Board := s.runFor s.queue.length

end Session
end Tabletop

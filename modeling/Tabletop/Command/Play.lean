import Tabletop.Board.DropGame.Score
import Tabletop.Board.SowingGame.Search
import Tabletop.Board.ThreeInARow.Search
import Tabletop.Command.Basic
import Tabletop.Command.Output
import Tabletop.Match.Handle
import Tabletop.Match.Turn

/-!
A series in the terminal. `step` goes on as far as it can without a person, and `hear` takes a line
that a person typed.
-/

namespace Tabletop.Command

/-- What comes next: another step, a line from a person, or the end. -/
inductive Next where
  | goOn
  | listen
  | stop (failure : Option Failure)
  deriving DecidableEq, Repr

/-- A match with its saved file and what was written so far. -/
structure Playing (Board : Type) where
  game : Match Board
  file : SaveFile
  written : Written := {}
  /-- Whether a move was played, after which the game is saved. -/
  moved : Bool := false

namespace Playing
variable {Board : Type} [StrongPlay Board]

def printLine (p : Playing Board) (line : String) : Playing Board :=
  { p with written := p.written.printLine line }

/-- Takes the log away and tells its warnings and errors. -/
def tellLog (p : Playing Board) : Playing Board :=
  let (log, game) := p.game.drainLog
  let grave := log.filter fun d => d.level != .info
  { p with game := game, written := grave.foldl (fun w d => w.complainLine d.line) p.written }

def printBoard (p : Playing Board) : Playing Board :=
  p.printLine s!"\n{Rules.render p.game.board}"

def printScore (p : Playing Board) : Playing Board :=
  let sources := p.game.sources
  let wins := p.game.series.wins
  p.printLine
    s!"score: {sources.first.text} {wins.first} - {wins.second} {sources.second.text}"

/-- Handles events that all have to be accepted; the first that is ignored ends the series. -/
def handleAll (p : Playing Board) : List Event → Playing Board × Next
  | [] => (p, .goOn)
  | event :: rest => match p.game.handle p.file event with
    | (.accepted, game, file) => handleAll { p with game := game, file := file } rest
    | (.ignored reason, game, file) =>
      ({ p with game := game, file := file }, .stop (some ⟨reason.message, none⟩))

/-- Sets up a series and starts it, or goes on with the saved game. -/
def start (options : PlayOptions) (settings : MatchSettings) (program : String)
    (file : SaveFile) : Playing Board × Next :=
  let game : Match Board := (Match.new settings).withProgram program
  handleAll { game := game, file := file }
    [.enterSetup options.mode, .configure .first options.first, .configure .second options.second,
      if options.resume then .loadGame else .startGame]

def abandoned (failure : TurnFailure) : Next :=
  .stop (some ⟨s!"round abandoned: {failure.message}", none⟩)

/-- Goes on after a turn that was completed. -/
def turnDone (p : Playing Board) (completed : Match.Completed Board) : Playing Board × Next :=
  let (result, game, file) := completed
  let p := { p with game := game, file := file }
  match result with
  | .ok _ => ({ p with moved := true }, .goOn)
  | .error failure => (p.tellLog, abandoned failure)

/-- Plays a turn, or asks a person for one. -/
def playTurn (solver : Payload → Solver.Answer) (p : Playing Board) : Playing Board × Next :=
  match p.game.beginTurn with
  | (.error failure, game) => ({ p with game := game }, abandoned failure)
  | (.ok none, game) =>
    let p := { p with game := game }.printBoard
    let prompt := s!"{p.game.mover.title} to move (q to quit): "
    ({ p with written := p.written.print prompt }, .listen)
  | (.ok (some (.local _)), game) => { p with game := game }.turnDone (game.completeLocal p.file)
  | (.ok (some (.remote payload)), game) =>
    { p with game := game }.turnDone (game.completeRemote p.file (solver payload))

def step (solver : Payload → Solver.Answer) (p : Playing Board) : Playing Board × Next :=
  let p := p.tellLog
  match p.game.phase with
  | .playing => p.playTurn solver
  | .nextRoundReady =>
    let p := p.printBoard.printScore
    let (_, game, file) := p.game.handle p.file .continue
    ({ p with game := game, file := file }, .goOn)
  | .seriesOver winner =>
    let source := p.game.sources.of winner
    let p := p.printBoard.printScore
    (p.printLine s!"{winner.title} ({source.text}) wins the series", .stop none)
  | other => (p, .stop (some ⟨s!"unexpected phase {other.describe}", none⟩))

/-- Takes a line; without one the series ends. -/
def hear (p : Playing Board) : (line : Option String) → Playing Board × Next
  | none => (p, .stop none)
  | some line =>
    let text := Text.trimmed line
    if Text.asciiLower text = "q" then (p, .stop none)
    else match naturalOf? 64 text with
      | none => (p.printLine "enter a position number", .goOn)
      | some position =>
        let (response, game, file) := p.game.handle p.file (.select position)
        let moved := p.moved || response = .accepted
        ({ p with game := game, file := file, moved := moved }, .goOn)

/-- Runs a series on the lines that a person typed, `steps` steps at most; none if it goes on. -/
def run (solver : Payload → Solver.Answer) :
    (steps : Nat) → (lines : List String) → Playing Board × Next →
    Option (Playing Board × Option Failure)
  | _, _, (p, .stop failure) => some (p, failure)
  | 0, _, _ => none
  | steps + 1, lines, (p, .goOn) => run solver steps lines (p.step solver)
  | steps + 1, lines, (p, .listen) => run solver steps lines.tail (p.hear lines.head?)

end Playing

/-! ## The command -/

/-- The settings of a series: those of a file, and what the options say instead. -/
def playSettings (files : Files) (options : PlayOptions) : Except Failure MatchSettings :=
  match files.settings options.settings with
  | .error failure => .error failure
  | .ok settings =>
    let endpoint := options.endpoint.getD settings.solver.endpoint
    let settings := { settings with solver := { settings.solver with endpoint := endpoint } }
    let settings := match options.wins with
      | some wins => settings.withWins wins
      | none => settings
    .ok { settings with
      seed := options.seed.getD settings.seed
      saveDirectory := options.saveDirectory.or settings.saveDirectory }

def playProgram (files : Files) (options : PlayOptions) : Except Failure String :=
  match options.program with
  | none => .ok ""
  | some path => files.demand "program" path

/-- What stands in the place of a saved file. -/
def Files.saved (files : Files) (place : SavePlace) : SaveFile :=
  match files.read? place.path with
  | some text => .text text
  | none => if (files.find? place.path).any files.isDirectory then .unusable else .absent

/-- What saving a game finds in its place, and the files once the directory for it was made. -/
def Files.prepared (files : Files) (place : SavePlace) : SaveFile × Files :=
  match files.makeDirectory place.directory with
  | (false, files) => (.blocked, files)
  | (true, files) =>
    (if (files.find? place.path).isSome then files.saved place else .unusable, files)

/-- The files after a game was saved. -/
def Files.keep (files : Files) (place : SavePlace) (file : SaveFile) : Files :=
  let (_, files) := files.prepared place
  match file with
  | .text text => files.write place.path text
  | _ => files

/-- Where a series is saved, if it is. -/
def playPlace? (options : PlayOptions) (settings : MatchSettings) : Option SavePlace :=
  settings.saveDirectory.map fun directory => .ofDirectory directory options.game

/-- Plays a series on lines that are known beforehand. -/
def playOn (Board : Type) [StrongPlay Board] (solver : Payload → Solver.Answer) (steps : Nat)
    (lines : List String) (files : Files) (options : PlayOptions) (settings : MatchSettings)
    (program : String) : Option (Output × Files) :=
  let place := playPlace? options settings
  let file := match place with
    | some place => if options.resume then files.saved place else (files.prepared place).1
    | none => .absent
  let started : Playing Board × Next := Playing.start options settings program file
  match Playing.run solver steps lines started with
  | none => none
  | some (p, failure) => some (finish p.written failure, match place with
    | some place => if p.moved then files.keep place p.file else files
    | none => files)

def play (solver : Payload → Solver.Answer) (steps : Nat) (lines : List String) (files : Files)
    (options : PlayOptions) : Option (Output × Files) :=
  match playSettings files options with
  | .error failure => some (finish {} (some failure), files)
  | .ok settings => match playProgram files options with
    | .error failure => some (finish {} (some failure), files)
    | .ok program => match options.game with
      | .threeInARow => playOn ThreeInARow solver steps lines files options settings program
      | .dropGame => playOn DropGame solver steps lines files options settings program
      | .sowingGame => playOn SowingGame solver steps lines files options settings program

end Tabletop.Command

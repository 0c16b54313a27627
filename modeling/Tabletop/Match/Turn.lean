import Tabletop.Match.Play
import Tabletop.Scoring.Run

/-!
Turns that are not a person's. `beginTurn` locks the match and says what has to be done, and the turn
is completed with a local choice or with a solver's answer. A turn that fails abandons the round.
-/

namespace Tabletop.Match

variable {Board : Type} [StrongPlay Board]

/-- What a turn gives: a report or a failure, the match, and the saved file. -/
abbrev Completed (Board : Type) := Except TurnFailure MoveReport × Match Board × SaveFile

/-- Logs a failure, drops the round and goes back to the setup. -/
def abandon (m : Match Board) (failure : TurnFailure) : Match Board :=
  let m := (m.note .error s!"{failure.message}; round abandoned").clearBoard.resetScore
  { m with phase := .setup, lastFailure := some failure }

/-- Logs what a program wrote and whether a variable had to be made up for it. -/
def noteOutcome (m : Match Board) (outcome : Scoring.Outcome) : Match Board :=
  let lines : List Diagnostic := outcome.trace.map fun line => ⟨.info, s!"program: {line}"⟩
  let m := { m with log := m.log ++ lines }
  if outcome.placeholder then m.warn "program declared no variables; using placeholder x0" else m

/-- Runs the scoring program on the board and normalizes its payload. -/
def buildPayload (m : Match Board) : Except TurnFailure Payload × Match Board :=
  match Scoring.run m.settings.scoring m.program (Rules.view m.board) with
  | .error failure => (.error (.program failure), m)
  | .ok outcome =>
    let m := m.noteOutcome outcome
    match outcome.payload.normalize with
    | .ok payload => (.ok payload, m)
    | .error problem => (.error (.payload problem), m)

/-- Locks the match for a turn that is not a person's; nothing has to be done otherwise. -/
def beginTurn (m : Match Board) : Except TurnFailure (Option TurnJob) × Match Board :=
  if m.phase ≠ .playing then (.ok none, m)
  else
    let locked := { m with phase := .awaitingMove m.moverSource }
    match m.moverSource with
    | .human => (.ok none, m)
    | .local difficulty => (.ok (some (.local difficulty)), locked)
    | .solver => match locked.buildPayload with
      | (.ok payload, m) => (.ok (some (.remote payload)), m)
      | (.error failure, m) => (.error failure, m.abandon failure)

def abandoned (m : Match Board) (file : SaveFile) (failure : TurnFailure) : Completed Board :=
  (.error failure, m.abandon failure, file)

/-- Plays a chosen position; a position that the board refuses abandons the round. -/
def playChosen (m : Match Board) (file : SaveFile) (position : Nat) : Completed Board :=
  match m.playAt file position with
  | .ok (report, m, file) => (.ok report, m, file)
  | .error reason => m.abandoned file (.illegalMove position (.illegal reason))

/-- Completes a local opponent's turn. -/
def completeLocal (m : Match Board) (file : SaveFile) : Completed Board :=
  match m.phase with
  | .awaitingMove (.local difficulty) =>
    match choose m.stream m.board m.mover difficulty with
    | (none, stream) => { m with stream := stream }.abandoned file .noMove
    | (some position, stream) => { m with stream := stream }.playChosen file position
  | _ => (.error .notAwaiting, m, file)

/-- Plays a random legal position instead of one that was refused. -/
def substitute (m : Match Board) (file : SaveFile) (failure : TurnFailure) : Completed Board :=
  match randomChoice m.stream m.board m.mover with
  | (none, stream) => { m with stream := stream }.abandoned file .noMove
  | (some position, stream) =>
    let instead := s!"playing random legal position {position} instead"
    ({ m with stream := stream }.warn s!"{failure.message}; {instead}").playChosen file position

/-- Why a solver's position is not played, or what playing it gives. -/
def playSelected (m : Match Board) (file : SaveFile) (position : Int) :
    Except Rejection (MoveReport × Match Board × SaveFile) :=
  if position < 0 then .error .negative
  else match m.playAt file position.toNat with
    | .ok played => .ok played
    | .error reason => .error (.illegal reason)

/-- Completes a solver's turn with its answer. -/
def completeRemote (m : Match Board) (file : SaveFile) (answer : Solver.Answer) :
    Completed Board :=
  match m.phase with
  | .awaitingMove .solver =>
    match answer with
    | .error failure => m.abandoned file (.solver failure)
    | .ok reply => match m.playSelected file reply.position with
      | .ok (report, m, file) => (.ok report, m, file)
      | .error rejection =>
        let failure := TurnFailure.illegalMove reply.position rejection
        match m.settings.occupied with
        | .reject => m.abandoned file failure
        | .substituteLegal => m.substitute file failure
  | _ => (.error .notAwaiting, m, file)

end Tabletop.Match

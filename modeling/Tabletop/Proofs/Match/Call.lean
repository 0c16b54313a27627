import Tabletop.Match.Handle
import Tabletop.Match.Turn

/-!
Calls on a match. Whatever happens around a match reaches it as a list of calls, each with what stands
in the place of the saved file at that moment, so that other matches may write the file and the system
may refuse it between any two calls. A call is answered, and from call and answer one can tell what has
been done.
-/

namespace Tabletop.Match

inductive Call where
  | event (file : SaveFile) (event : Event)
  | beginTurn
  | completeLocal (file : SaveFile)
  | completeRemote (file : SaveFile) (answer : Solver.Answer)
  | setProgram (program : String)
  | drainLog

inductive Reply where
  | response (response : Response)
  | job (result : Except TurnFailure (Option TurnJob))
  | report (result : Except TurnFailure MoveReport)
  | log (lines : List Diagnostic)
  | done

/-- What can be told of a call afterwards. A move has a maker: the source in whose name it was played. -/
inductive Deed (Board : Type) where
  | nothing
  | modeChosen (mode : GameMode)
  | sourceChanged (mark : Mark) (source : MoveSource)
  | roundOpened
  | gameLoaded (saved : SavedGame Board)
  | turnLocked
  | moved (maker : MoveSource) (report : MoveReport)
  | roundAbandoned (failure : TurnFailure)
  | setupEntered
  | matchLeft

variable {Board : Type} [StrongPlay Board]

def call (m : Match Board) : Call → Reply × Match Board
  | .event file event =>
    let (response, after, _) := m.handle file event
    (.response response, after)
  | .beginTurn =>
    let (result, after) := m.beginTurn
    (.job result, after)
  | .completeLocal file =>
    let (result, after, _) := m.completeLocal file
    (.report result, after)
  | .completeRemote file answer =>
    let (result, after, _) := m.completeRemote file answer
    (.report result, after)
  | .setProgram program => (.done, m.withProgram program)
  | .drainLog =>
    let (lines, after) := m.drainLog
    (.log lines, after)

/-- The match after calls, the first one first. -/
def run (m : Match Board) (calls : List Call) : Match Board :=
  calls.foldl (fun m call => (m.call call).2) m

theorem run_nil (m : Match Board) : m.run [] = m := rfl

theorem run_cons (m : Match Board) (call : Call) (calls : List Call) :
    m.run (call :: calls) = (m.call call).2.run calls := rfl

theorem run_append (m : Match Board) (calls more : List Call) :
    m.run (calls ++ more) = (m.run calls).run more := List.foldl_append

/-- The saved game that a file holds for a match that saves its games. -/
def saved? (m : Match Board) (file : SaveFile) : Option (SavedGame Board) := do
  let place ← m.savePlace?
  let saved ← (file.load place : Except FileProblem (Option (SavedGame Board))).toOption
  saved

/-- What an accepted event has done to a match, which then is `after`. -/
def eventDeed (m : Match Board) (file : SaveFile) (after : Match Board) : Event → Deed Board
  | .enterSetup mode => .modeChosen mode
  | .configure mark source =>
    if m.sources.of mark = source then .nothing else .sourceChanged mark source
  | .startGame => .roundOpened
  | .select position => match after.lastMove with
    | some report => .moved .human { report with mark := m.mover, position := position }
    | none => .nothing
  | .continue => match m.phase with
    | .seriesOver _ => .setupEntered
    | _ => .roundOpened
  | .returnToSetup => .setupEntered
  | .returnToModeSelect => .matchLeft
  | .loadGame => match m.saved? file with
    | some saved => .gameLoaded saved
    | none => .nothing
  | .clearSaved => .nothing

/-- What a turn's completion has done; a failed one abandons the round if it was awaited. -/
def turnDeed (maker : MoveSource) : Except TurnFailure MoveReport → Deed Board
  | .ok report => .moved maker report
  | .error .notAwaiting => .nothing
  | .error failure => .roundAbandoned failure

/-- The difficulty of the local opponent that a match is locked for, the easiest if there is none. -/
def lockedDifficulty (m : Match Board) : Difficulty :=
  match m.phase with
  | .awaitingMove (.local difficulty) => difficulty
  | _ => .easy

/-- What a call does. Each completion plays in the name of its own kind of source. -/
def deed (m : Match Board) (call : Call) : Deed Board :=
  match call, (m.call call).1 with
  | .event file event, .response .accepted => m.eventDeed file (m.call call).2 event
  | .beginTurn, .job (.ok (some _)) => .turnLocked
  | .beginTurn, .job (.error failure) => .roundAbandoned failure
  | .completeLocal _, .report result => turnDeed (.local m.lockedDifficulty) result
  | .completeRemote _ _, .report result => turnDeed .solver result
  | _, _ => .nothing

/-- Something that is kept along a run, told of each call before it is made. -/
def account {α : Type} (keep : Match Board → Call → α → α) : Match Board → List Call → α → α
  | _, [], kept => kept
  | m, call :: calls, kept => account keep (m.call call).2 calls (keep m call kept)

variable {α : Type} {keep : Match Board → Call → α → α}

/-- What holds of a match and of what is kept, and goes on holding after each call, holds after a run. -/
theorem run_account (Holds : Match Board → α → Prop)
    (step : ∀ m call kept, Holds m kept → Holds (m.call call).2 (keep m call kept))
    (m : Match Board) (calls : List Call) (kept : α) (initial : Holds m kept) :
    Holds (m.run calls) (m.account keep calls kept) := by
  induction calls generalizing m kept with
  | nil => exact initial
  | cons call calls ih => exact ih _ _ (step m call kept initial)

theorem run_preserves (Holds : Match Board → Prop)
    (step : ∀ m call, Holds m → Holds (m.call call).2)
    (m : Match Board) (calls : List Call) (initial : Holds m) : Holds (m.run calls) := by
  induction calls generalizing m with
  | nil => exact initial
  | cons call calls ih => exact ih _ (step m call initial)

end Tabletop.Match

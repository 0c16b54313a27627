import Tabletop.Board.DropGame.Score
import Tabletop.Board.SowingGame.Search
import Tabletop.Board.ThreeInARow.Search
import Tabletop.Proofs.Match.Session.Course

/-!
Turns of sessions. However events and answers come, a session hands over every event once and in order,
and completes every turn that it locks before it begins another; events in the middle of a turn only log
a warning. When it ends no turn can be played without a person.
-/

namespace Tabletop

namespace Match
variable {Board : Type} [StrongPlay Board]

theorem eventDeed_ne_turnLocked (m : Match Board) (file : SaveFile) (after : Match Board)
    (event : Event) : m.eventDeed file after event ≠ .turnLocked := by
  cases event with
  | enterSetup | startGame | returnToSetup | returnToModeSelect | clearSaved => simp [eventDeed]
  | configure | select | «continue» | loadGame =>
    simp only [eventDeed]
    split <;> simp

theorem Change.stays_unlocked {m after : Match Board} {deed : Deed Board} (change : Change m deed after)
    (unlocked : m.isLocked = false) (other : deed ≠ .turnLocked) : after.isLocked = false := by
  cases change with
  | kept => exact unlocked
  | sourceChanged log phase => simp only [isLocked, phase]
  | turnLocked => exact absurd rfl other
  | _ => rfl

theorem isLocked_handle (m : Match Board) (file : SaveFile) (event : Event) :
    (m.handle file event).2.1.isLocked = m.isLocked := by
  cases locked : m.isLocked with
  | true =>
    rw [Session.handle_of_locked locked]
    exact locked
  | false =>
    rcases handle_answers file event locked with ⟨reason, answer⟩ | ⟨after, answer, change⟩
    · rw [(Prod.mk.inj answer).2]
      exact locked
    · rw [(Prod.mk.inj answer).2]
      exact change.stays_unlocked locked (m.eventDeed_ne_turnLocked file after event)

theorem beginTurn_idle {m : Match Board} (nothing : m.beginTurn.1 = .ok none) :
    m.beginTurn.2 = m ∧ (m.phase = .playing → m.moverSource = .human) := by
  by_cases phase : m.phase = .playing
  · cases mover : m.moverSource with
    | human =>
      refine ⟨?_, fun _ => rfl⟩
      simp [beginTurn, phase, mover]
    | «local» difficulty => simp [beginTurn, phase, mover] at nothing
    | solver =>
      cases built : buildPayload { m with phase := .awaitingMove .solver } with
      | mk result after =>
        simp only [beginTurn, phase, mover, built, ne_eq, not_true, ite_false] at nothing
        cases result <;> cases nothing
  · exact ⟨by rw [beginTurn_of_not_playing phase], fun playing => absurd playing phase⟩

theorem playing_of_beginTurn {m : Match Board} (begins : m.beginTurn.1 ≠ .ok none) :
    m.phase = .playing := by
  by_contra resting
  exact begins (by rw [beginTurn_of_not_playing resting])

omit [StrongPlay Board] in
theorem isLocked_of_playing {m : Match Board} (playing : m.phase = .playing) : m.isLocked = false := by
  simp only [isLocked, playing]

end Match

namespace Session

/-- The completion of a turn that is played by a source. -/
inductive IsCompletion : MoveSource → Match.Call → Prop
  | local {difficulty : Difficulty} {file : SaveFile} :
      IsCompletion (.local difficulty) (.completeLocal file)
  | remote {file : SaveFile} {answer : Solver.Answer} :
      IsCompletion .solver (.completeRemote file answer)

variable {Board : Type} [StrongPlay Board]

namespace Made

def event? (made : Made Board) : Option Event :=
  match made.call with
  | .event _ event => some event
  | _ => none

/-- An event that came in the middle of a turn: it is ignored, with a warning in the log. -/
def OnlyWarns (made : Made Board) : Prop :=
  ∃ file event, made.call = .event file event ∧
    made.before.handle file event = (.ignored (.locked event),
      { made.before with
        log := made.before.log ++ [⟨.warning, (Refusal.locked event).message⟩] }, file)

/-- The match awaits the source's move, and the call completes it. -/
def Completes (maker : MoveSource) (made : Made Board) : Prop :=
  made.before.phase = .awaitingMove maker ∧ IsCompletion maker made.call ∧
    made.after.isLocked = false

end Made

/-- Calls that follow one another, from one match to another. -/
def Follows : Match Board → List (Made Board) → Match Board → Prop
  | m, [], after => m = after
  | m, made :: rest, after => made.before = m ∧ Follows made.after rest after

/-- Events, turns that are not to be played, and whole turns, in any order. -/
inductive WholeTurns : List (Made Board) → Prop
  | done : WholeTurns []
  | event {made : Made Board} {event : Event} {rest : List (Made Board)}
      (comes : made.event? = some event) (others : WholeTurns rest) : WholeTurns (made :: rest)
  | unlocked {made : Made Board} {rest : List (Made Board)} (begins : made.call = .beginTurn)
      (unlocked : made.after.isLocked = made.before.isLocked) (others : WholeTurns rest) :
      WholeTurns (made :: rest)
  | turn {lock last : Made Board} {job : TurnJob} {during rest : List (Made Board)}
      (begins : lock.call = .beginTurn) (locks : lock.reply = .job (.ok (some job)))
      (meanwhile : ∀ made ∈ during, made.OnlyWarns) (completes : last.Completes (source job))
      (others : WholeTurns rest) : WholeTurns (lock :: (during ++ last :: rest))

/-- Events that come in the middle of a turn, its completion, and whole turns. -/
def FinishesTurn (maker : MoveSource) (history : List (Made Board)) : Prop :=
  ∃ during last rest, history = during ++ last :: rest ∧ (∀ made ∈ during, made.OnlyWarns) ∧
    last.Completes maker ∧ WholeTurns rest

/-- What the calls of a session from a stage on are. -/
def Stage.Whole : Stage → List (Made Board) → Prop
  | .beginning | .listening => WholeTurns
  | .pausing job => FinishesTurn (source job)
  | .asking => FinishesTurn .solver

/-- How a session stands at a stage, if it was handed a match that was locked or not. -/
def Stage.Stands (held : Bool) : Stage → Match Board → Prop
  | .beginning, m => m.isLocked = held
  | .listening, m => m.isLocked = held ∧ (m.phase = .playing → m.moverSource = .human)
  | .pausing job, m => held = false ∧ m.phase = .awaitingMove (source job)
  | .asking, m => held = false ∧ m.phase = .awaitingMove .solver

/-! ## What a step does -/

variable {stage next : Stage} {s t : Session Board} {made : List (Made Board)} {held : Bool}

theorem Step.follows (step : Step stage s made next t) : Follows s.game made t.game := by
  cases step with
  | closed | asked | rescheduled | left => exact rfl
  | idle | failed | locked | heard | came | chose | answered => simp [Follows]

theorem Step.passes (step : Step stage s made next t) :
    made.filterMap Made.event? ++ t.queue = s.queue := by
  cases step with
  | idle | closed | asked | rescheduled | left => rfl
  | failed | locked => exact queue_publish _
  | chose | answered => exact queue_complete _ _
  | heard next => simp [Made.event?, next]
  | came _ next => simp [Made.event?, next]

theorem stands_of_closed {m after : Match Board} {failure : TurnFailure}
    (closed : Match.ClosedBy m failure after) : Stage.Stands false .listening after := by
  have setup : after.phase = .setup := closed.phase
  refine ⟨?_, fun playing => ?_⟩
  · simp only [Match.isLocked, setup]
  · rw [setup] at playing
    cases playing

/-- What a turn that was awaited leaves: an unlocked match, with another turn to begin only if a move was
made. -/
theorem stands_complete {s : Session Board} {maker : MoveSource} {call : Match.Call}
    {completed : Match.Completed Board} (awaited : s.game.phase = .awaitingMove maker)
    (completes : IsCompletion maker call)
    (same : s.game.call call = (.report completed.1, completed.2.1)) :
    Stage.Stands false (.after (s.complete completed).1) (s.complete completed).2.game := by
  rw [game_complete]
  obtain ⟨result, after, file⟩ := completed
  cases result with
  | ok report =>
    -- the report says that a move was made, and a move leaves a match unlocked
    obtain ⟨maker, moved⟩ := @Match.deed_of_report _ _ s.game call _ (by rw [same])
    have change := s.game.call_change call
    rw [moved, same] at change
    obtain ⟨_, _, _, _, unlocked, _⟩ := change.of_moved
    exact unlocked
  | error failure =>
    have fails : s.game.Fails call failure := Match.call_failure?_iff.mp (by rw [same]; rfl)
    -- the one failure that closes nothing is a completion that nobody awaits
    have expected : failure ≠ .notAwaiting := by
      rintro rfl
      cases fails with
      | unbuilt _ _ unbuilt => cases unbuilt
      | notLocal unawaited =>
        cases completes with
        | «local» => exact unawaited _ awaited
      | notRemote unawaited =>
        cases completes with
        | remote => exact unawaited awaited
    have closed := (fails.closed expected).2
    rw [same] at closed
    exact stands_of_closed closed

omit [StrongPlay Board] in
theorem Stage.Stands.isLocked {moved : Bool} {m : Match Board}
    (stands : (Stage.after moved).Stands held m) : m.isLocked = held := by
  cases moved with
  | true => exact stands
  | false => exact stands.1

/-- Whoever waits, waits for a move, and does not go on without it. -/
theorem Stage.Waits.maker {settings : MatchSettings} (waits : stage.Waits settings) :
    ∃ maker, (∀ held (m : Match Board),
        stage.Stands held m = (held = false ∧ m.phase = .awaitingMove maker)) ∧
      ∀ history : List (Made Board), stage.Whole history = FinishesTurn maker history := by
  cases stage with
  | beginning | listening => cases waits
  | pausing job => exact ⟨source job, fun _ _ => rfl, fun _ => rfl⟩
  | asking => exact ⟨.solver, fun _ _ => rfl, fun _ => rfl⟩

/-- Events do not end a wait: the match goes on awaiting the same move. -/
theorem onlyWarns_of_waits {event : Event} (waits : stage.Waits s.game.settings)
    (stands : stage.Stands held s.game) :
    (⟨s.game, .event s.file event⟩ : Made Board).OnlyWarns := by
  obtain ⟨maker, stands_eq, _⟩ := @Stage.Waits.maker Board _ _ _ waits
  rw [stands_eq] at stands
  have locked : s.game.isLocked = true := Match.isLocked_of_phase stands.2
  exact ⟨s.file, event, rfl, handle_of_locked locked s.file event⟩

theorem Step.stands (step : Step stage s made next t) (stands : stage.Stands held s.game) :
    next.Stands held t.game := by
  cases step with
  | idle nothing =>
    obtain ⟨same, waits⟩ := Match.beginTurn_idle nothing
    dsimp only
    rw [same]
    exact ⟨stands, waits⟩
  | failed fails =>
    cases Match.beginTurn_fails fails with
    | unbuilt playing source unbuilt =>
      obtain rfl : false = held := (Match.isLocked_of_playing playing).symm.trans stands
      rw [game_publish]
      exact stands_of_closed (Match.beginTurn_unbuilt playing source unbuilt).2
  | locked locks =>
    obtain ⟨log, same⟩ := beginTurn_locks locks
    have playing := Match.playing_of_beginTurn (m := s.game) (by rw [locks]; simp)
    rw [game_publish, same]
    exact ⟨stands.symm.trans (Match.isLocked_of_playing playing), rfl⟩
  | heard next =>
    rw [game_handleEvent]
    exact (s.game.isLocked_handle s.file _).trans stands.1
  | closed => exact stands.1
  | came waits next =>
    obtain ⟨_, _, comes, warns⟩ := onlyWarns_of_waits waits stands
    cases comes
    obtain ⟨maker, stands_eq, _⟩ := @Stage.Waits.maker Board _ _ _ waits
    rw [stands_eq] at stands ⊢
    rw [game_handleEvent]
    dsimp only
    rw [warns]
    exact stands
  | @chose _ difficulty =>
    obtain ⟨rfl, awaited⟩ := stands
    have completes : IsCompletion (.local difficulty) (.completeLocal s.file) := .local
    exact stands_complete awaited completes (by simp only [Match.call])
  | asked => exact stands
  | answered answer =>
    obtain ⟨rfl, awaited⟩ := stands
    have completes : IsCompletion .solver (.completeRemote s.file answer) := .remote
    exact stands_complete awaited completes (by simp only [Match.call])
  | rescheduled => exact stands
  | left => exact stands

theorem Stage.whole_after {moved : Bool} {rest : List (Made Board)}
    (others : (Stage.after moved).Whole rest) : WholeTurns rest := by
  cases moved <;> exact others

theorem finishes_of_completion {maker : MoveSource} {last : Made Board} {rest : List (Made Board)}
    (completes : last.Completes maker) (others : WholeTurns rest) : FinishesTurn maker (last :: rest) :=
  ⟨[], last, rest, rfl, List.forall_mem_nil _, completes, others⟩

/-- What a step adds in front of the calls that follow it. -/
theorem Step.whole (step : Step stage s made next t) (stands : stage.Stands held s.game)
    {rest : List (Made Board)} (others : next.Whole rest) : stage.Whole (made ++ rest) := by
  have after := step.stands stands
  cases step with
  | idle nothing =>
    obtain ⟨same, _⟩ := Match.beginTurn_idle nothing
    exact .unlocked rfl (by rw [Made.after_beginTurn, same]) others
  | failed fails =>
    rw [game_publish] at after
    exact .unlocked rfl (by rw [Made.after_beginTurn, after.1, stands]) others
  | locked locks =>
    obtain ⟨during, last, rest, rfl, meanwhile, completes, others⟩ := others
    exact .turn rfl (by rw [Made.reply_beginTurn, locks]) meanwhile completes others
  | heard next => exact .event rfl others
  | closed => exact others
  | @came _ _ event _ waits next =>
    have warns := @onlyWarns_of_waits _ _ _ _ _ event waits stands
    obtain ⟨maker, _, whole_eq⟩ := @Stage.Waits.maker Board _ _ _ waits
    rw [whole_eq] at others ⊢
    obtain ⟨during, last, rest, rfl, meanwhile, completes, others⟩ := others
    exact ⟨_ :: during, last, rest, rfl, List.forall_mem_cons.mpr ⟨warns, meanwhile⟩, completes, others⟩
  | chose =>
    have unlocked := after.isLocked
    rw [game_complete, ← Made.after_completeLocal] at unlocked
    obtain ⟨rfl, awaited⟩ := stands
    exact finishes_of_completion ⟨awaited, .local, unlocked⟩ (Stage.whole_after others)
  | asked => exact others
  | answered answer =>
    have unlocked := after.isLocked
    rw [game_complete, ← Made.after_completeRemote] at unlocked
    obtain ⟨rfl, awaited⟩ := stands
    exact finishes_of_completion ⟨awaited, .remote, unlocked⟩ (Stage.whole_after others)
  | rescheduled => exact others
  | left => exact others

/-! ## What a course does -/

theorem Follows.append {m middle after : Match Board} {history more : List (Made Board)}
    (follows : Follows m history middle) (others : Follows middle more after) :
    Follows m (history ++ more) after := by
  induction history generalizing m with
  | nil =>
    obtain rfl : m = middle := follows
    exact others
  | cons made rest of_rest => exact ⟨follows.1, of_rest follows.2⟩

variable {last : Stage} {history : List (Made Board)}

theorem Course.follows (course : Course stage s history last t) : Follows s.game history t.game := by
  induction course with
  | done => exact rfl
  | step first _ of_others => exact first.follows.append of_others

theorem Course.passes (course : Course stage s history last t) :
    history.filterMap Made.event? ++ t.queue = s.queue := by
  induction course with
  | done => rfl
  | step first _ of_others =>
    rw [List.filterMap_append, List.append_assoc, of_others]
    exact first.passes

theorem Course.stands (course : Course stage s history last t) (stands : stage.Stands held s.game) :
    last.Stands held t.game := by
  induction course with
  | done => exact stands
  | step first _ of_others => exact of_others (first.stands stands)

/-- From the last call to the first: what a step finds unfinished is finished by the calls after it. -/
theorem Course.whole (course : Course stage s history last t) (listens : last = .listening)
    (stands : stage.Stands held s.game) : stage.Whole history := by
  induction course with
  | done =>
    rw [listens]
    exact .done
  | step first _ of_others => exact first.whole stands (of_others listens (first.stands stands))

/-- How a session comes to its end: the events are handed over once and in order, every call is made on
what the one before it left, and turns are completed one at a time. -/
structure PlaysInOrder (s : Session Board) (history : List (Made Board)) (t : Session Board) : Prop where
  passed : history.filterMap Made.event? = s.queue
  follows : Follows s.game history t.game
  turns : WholeTurns history
  handled : t.queue = []
  isLocked : t.game.isLocked = s.game.isLocked
  waits : t.game.phase = .playing → t.game.moverSource = .human

theorem Ends.playsInOrder (ends : Ends s history t) : PlaysInOrder s history t := by
  obtain ⟨course, empty⟩ := ends
  have standing : Stage.Stands s.game.isLocked .listening t.game := course.stands rfl
  have passed := course.passes
  rw [empty, List.append_nil] at passed
  exact ⟨passed, course.follows, course.whole rfl rfl, empty, standing.1,
    standing.2⟩

/-- All the ways in which the sessions of a game can come to their ends; what `run` does is one. -/
def SessionsPlay (Board : Type) [StrongPlay Board] : Prop :=
  ∀ s : Session Board, (∀ history t, Ends s history t → PlaysInOrder s history t) ∧
    ∃ history, Ends s history s.run

theorem sessionsPlay (Board : Type) [StrongPlay Board] [EndingRules Board] : SessionsPlay Board := by
  intro s
  refine ⟨fun history t ends => ?_, (ends_run s).1⟩
  exact ends.playsInOrder

/-- Whatever is sent, answered and waited for, in every game: each event is handled once and in the order
it was sent, each turn that is begun gets one completion of its own kind before anything but ignored
events, and an ended session has nothing left to handle or to play. One that is handed over unlocked ends
unlocked. -/
theorem sessions_play_in_order :
    SessionsPlay ThreeInARow ∧ SessionsPlay DropGame ∧ SessionsPlay SowingGame :=
  ⟨sessionsPlay _, sessionsPlay _, sessionsPlay _⟩

/-- A person plays two cells against the easiest opponent. -/
def twoMoves : Session ThreeInARow :=
  new (.new {}) .absent [.enterSetup .classic, .startGame, .select 4, .select 0] []
    (.error .transport) .listening

theorem sessions_play_in_order_twoMoves :
    ∃ history, Ends twoMoves history twoMoves.run ∧ PlaysInOrder twoMoves history twoMoves.run := by
  obtain ⟨plays, history, ends⟩ := sessions_play_in_order.1 twoMoves
  exact ⟨history, ends, plays history _ ends⟩

end Session
end Tabletop

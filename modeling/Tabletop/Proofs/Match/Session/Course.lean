import Tabletop.Match.Session
import Tabletop.Proofs.Board.Ending
import Tabletop.Proofs.Match.Failure
import Tabletop.Proofs.Match.Refusal

/-!
Courses of sessions. While a session waits, any number of the queued events may come before the wait is
over, a solver may answer anything, and its listener may go at any time; a course is one way in which all
of this can happen, together with the calls that were made on the match. What `run` does is such a course.
-/

namespace Tabletop.Session

/-- What a session is at: it begins a turn, listens for an event, pauses before a turn that it has locked,
or waits for a solver. -/
inductive Stage where
  | beginning
  | listening
  | pausing (job : TurnJob)
  | asking

/-- Whether events come at a stage in the middle of a turn. -/
def Stage.Waits (settings : MatchSettings) : Stage → Prop
  | .pausing _ => settings.moveDelay ≠ 0
  | .asking => True
  | _ => False

/-- What follows a completed turn: another one if a move was made. -/
def Stage.after (moved : Bool) : Stage := if moved then .beginning else .listening

/-- A call that was made, and the match it was made on. -/
structure Made (Board : Type) where
  before : Match Board
  call : Match.Call

section
variable {Board : Type}

@[simp] theorem game_publish (s : Session Board) : s.publish.game = s.game := by
  unfold publish
  split <;> rfl

@[simp] theorem queue_publish (s : Session Board) : s.publish.queue = s.queue := by
  unfold publish
  split <;> rfl

theorem listening_publish {s t : Session Board} (same : t.listener = s.listener)
    (listening : s.listener = .listening) : t.publish.listener = .listening := by
  unfold publish
  rw [same, listening]

theorem complete_eq (s : Session Board) (completed : Match.Completed Board) :
    s.complete completed =
      (completed.1.toBool, { s with game := completed.2.1, file := completed.2.2 }.publish) := by
  obtain ⟨_, _, _⟩ := completed
  rfl

@[simp] theorem game_complete (s : Session Board) (completed : Match.Completed Board) :
    (s.complete completed).2.game = completed.2.1 := by
  rw [complete_eq, game_publish]

@[simp] theorem queue_complete (s : Session Board) (completed : Match.Completed Board) :
    (s.complete completed).2.queue = s.queue := by
  rw [complete_eq, queue_publish]

end

variable {Board : Type} [StrongPlay Board]

namespace Made

def after (made : Made Board) : Match Board := (made.before.call made.call).2

def reply (made : Made Board) : Match.Reply := (made.before.call made.call).1

@[simp] theorem after_beginTurn (m : Match Board) :
    (⟨m, .beginTurn⟩ : Made Board).after = m.beginTurn.2 := by
  simp only [after, Match.call]

@[simp] theorem reply_beginTurn (m : Match Board) :
    (⟨m, .beginTurn⟩ : Made Board).reply = .job m.beginTurn.1 := by
  simp only [reply, Match.call]

@[simp] theorem after_event (m : Match Board) (file : SaveFile) (event : Event) :
    (⟨m, .event file event⟩ : Made Board).after = (m.handle file event).2.1 := by
  simp only [after, Match.call]

@[simp] theorem after_completeLocal (m : Match Board) (file : SaveFile) :
    (⟨m, .completeLocal file⟩ : Made Board).after = (m.completeLocal file).2.1 := by
  simp only [after, Match.call]

@[simp] theorem after_completeRemote (m : Match Board) (file : SaveFile) (answer : Solver.Answer) :
    (⟨m, .completeRemote file answer⟩ : Made Board).after =
      (m.completeRemote file answer).2.1 := by
  simp only [after, Match.call]

end Made

theorem handleEvent_eq (s : Session Board) (event : Event) :
    s.handleEvent event = publish
      { s with game := (s.game.handle s.file event).2.1, file := (s.game.handle s.file event).2.2 } := by
  unfold handleEvent
  generalize s.game.handle s.file event = answer
  obtain ⟨_, _, _⟩ := answer
  rfl

@[simp] theorem game_handleEvent (s : Session Board) (event : Event) :
    (s.handleEvent event).game = (s.game.handle s.file event).2.1 := by
  rw [handleEvent_eq, game_publish]

@[simp] theorem queue_handleEvent (s : Session Board) (event : Event) :
    (s.handleEvent event).queue = s.queue := by
  rw [handleEvent_eq, queue_publish]

theorem handleEvent_queue (s : Session Board) (event : Event) (queue : List Event) :
    { s with queue := queue }.handleEvent event = { s.handleEvent event with queue := queue } := by
  obtain ⟨_, _, _, _, _, _, listener, _, _⟩ := s
  cases listener <;> rfl

theorem foldl_handleEvent_queue (events : List Event) (s : Session Board) (queue : List Event) :
    events.foldl handleEvent { s with queue := queue } =
      { events.foldl handleEvent s with queue := queue } := by
  induction events generalizing s with
  | nil => rfl
  | cons event events of_events =>
    rw [List.foldl_cons, handleEvent_queue, of_events, List.foldl_cons]

/-- One step, and the calls made in it. -/
inductive Step : Stage → Session Board → List (Made Board) → Stage → Session Board → Prop
  | idle {s : Session Board} (nothing : s.game.beginTurn.1 = .ok none) :
      Step .beginning s [⟨s.game, .beginTurn⟩] .listening { s with game := s.game.beginTurn.2 }
  | failed {s : Session Board} {failure : TurnFailure} (fails : s.game.beginTurn.1 = .error failure) :
      Step .beginning s [⟨s.game, .beginTurn⟩] .listening
        { s with game := s.game.beginTurn.2 }.publish
  | locked {s : Session Board} {job : TurnJob} (locks : s.game.beginTurn.1 = .ok (some job)) :
      Step .beginning s [⟨s.game, .beginTurn⟩] (.pausing job)
        { s with game := s.game.beginTurn.2 }.publish
  | heard {s : Session Board} {event : Event} {rest : List Event} (next : s.queue = event :: rest) :
      Step .listening s [⟨s.game, .event s.file event⟩] .beginning
        ({ s with queue := rest }.handleEvent event)
  | closed {s : Session Board} (empty : s.queue = []) : Step .listening s [] .beginning s
  | came {stage : Stage} {s : Session Board} {event : Event} {rest : List Event}
      (waits : stage.Waits s.game.settings) (next : s.queue = event :: rest) :
      Step stage s [⟨s.game, .event s.file event⟩] stage ({ s with queue := rest }.handleEvent event)
  | chose {s : Session Board} {difficulty : Difficulty} :
      Step (.pausing (.local difficulty)) s [⟨s.game, .completeLocal s.file⟩]
        (.after (s.complete (s.game.completeLocal s.file)).1)
        (s.complete (s.game.completeLocal s.file)).2
  | asked {s : Session Board} {payload : Payload} : Step (.pausing (.remote payload)) s [] .asking s
  | answered {s : Session Board} (answer : Solver.Answer) :
      Step .asking s [⟨s.game, .completeRemote s.file answer⟩]
        (.after (s.complete (s.game.completeRemote s.file answer)).1)
        (s.complete (s.game.completeRemote s.file answer)).2
  | rescheduled {stage : Stage} {s : Session Board} (arrivals : List Nat)
      (answers : List Solver.Answer) :
      Step stage s [] stage { s with arrivals := arrivals, answers := answers }
  | left {stage : Stage} {s : Session Board} (listening : s.listener = .listening) :
      Step stage s [] stage { s with listener := .gone }

/-- Steps one after another, and the calls made in all of them. -/
inductive Course : Stage → Session Board → List (Made Board) → Stage → Session Board → Prop
  | done {stage : Stage} {s : Session Board} : Course stage s [] stage s
  | step {stage next last : Stage} {s t u : Session Board} {made history : List (Made Board)}
      (first : Step stage s made next t) (others : Course next t history last u) :
      Course stage s (made ++ history) last u

theorem Step.course {stage next : Stage} {s t : Session Board} {made : List (Made Board)}
    (step : Step stage s made next t) : Course stage s made next t := by
  simpa using Course.step step .done

theorem Course.trans {stage middle last : Stage} {s t u : Session Board}
    {history more : List (Made Board)} (course : Course stage s history middle t)
    (others : Course middle t more last u) : Course stage s (history ++ more) last u := by
  induction course with
  | done => exact others
  | step first _ of_others =>
    rw [List.append_assoc]
    exact .step first (of_others others)

/-- A session has ended when it listens and all events were handed over. -/
def Ends (s : Session Board) (history : List (Made Board)) (t : Session Board) : Prop :=
  Course .beginning s history .listening t ∧ t.queue = []

/-! ## Running takes a course -/

theorem Course.queue_suffix {stage last : Stage} {s t : Session Board} {history : List (Made Board)}
    (course : Course stage s history last t) : t.queue <:+ s.queue := by
  induction course with
  | done => exact List.suffix_refl _
  | step first _ of_others =>
    refine of_others.trans ?_
    cases first with
    | idle | closed | asked | rescheduled | left => exact List.suffix_refl _
    | failed | locked | chose | answered => simp
    | heard next | came _ next => simp [next]

/-- There is a course between two sessions, and nobody stops listening in it. -/
def Leads (stage : Stage) (s : Session Board) (last : Stage) (t : Session Board) : Prop :=
  (∃ history, Course stage s history last t) ∧ (s.listener = .listening → t.listener = .listening)

theorem Leads.refl (stage : Stage) (s : Session Board) : Leads stage s stage s := ⟨⟨[], .done⟩, id⟩

theorem Leads.trans {stage middle last : Stage} {s t u : Session Board} (leads : Leads stage s middle t)
    (others : Leads middle t last u) : Leads stage s last u := by
  obtain ⟨⟨history, course⟩, stays⟩ := leads
  obtain ⟨⟨more, others⟩, goes⟩ := others
  exact ⟨⟨history ++ more, course.trans others⟩, fun listening => goes (stays listening)⟩

theorem Step.leads {stage next : Stage} {s t : Session Board} {made : List (Made Board)}
    (step : Step stage s made next t) (stays : s.listener = .listening → t.listener = .listening) :
    Leads stage s next t := ⟨⟨made, step.course⟩, stays⟩

theorem leads_events {stage : Stage} (events : List Event) {s : Session Board} {rest : List Event}
    (waits : stage.Waits s.game.settings) (next : s.queue = events ++ rest) :
    Leads stage s stage { events.foldl handleEvent s with queue := rest } := by
  induction events generalizing s with
  | nil =>
    obtain rfl : s.queue = rest := next
    exact .refl stage s
  | cons event events of_events =>
    have came := (Step.came waits next).leads (listening_publish rfl)
    have stays : (s.handleEvent event).game.settings = s.game.settings := by
      rw [game_handleEvent]
      exact (s.game.change_of_event s.file event).settings_eq
    rw [handleEvent_queue] at came
    have others := @of_events { s.handleEvent event with queue := events ++ rest }
      (by rw [stays]; exact waits) rfl
    rw [foldl_handleEvent_queue] at others
    exact came.trans others

theorem leads_wait {stage : Stage} {s : Session Board} (waits : stage.Waits s.game.settings) :
    Leads stage s stage s.wait := by
  have comes := leads_events (s.queue.take (s.arrivals.headD s.queue.length)) waits
    (List.take_append_drop _ _).symm
  exact comes.trans ((Step.rescheduled s.arrivals.tail _).leads id)

omit [StrongPlay Board] in
theorem ask_eq (s : Session Board) : s.ask = (s.ask.1, { s with answers := s.ask.2.answers }) := by
  unfold ask
  split <;> rfl

theorem leads_takeTurn (s : Session Board) :
    Leads .beginning s (.after s.takeTurn.1) s.takeTurn.2 := by
  unfold takeTurn
  split
  · rename_i game begun
    have idle := Step.idle (s := s) (by rw [begun])
    rw [begun] at idle
    exact idle.leads id
  · rename_i failure game begun
    have failed := Step.failed (s := s) (by rw [begun])
    rw [begun] at failed
    exact failed.leads (listening_publish rfl)
  · rename_i job game begun
    have locked := Step.locked (s := s) (by rw [begun])
    rw [begun] at locked
    refine (locked.leads (listening_publish rfl)).trans ?_
    dsimp only
    generalize { s with game := game }.publish = s
    have pauses : Leads (.pausing job) s (.pausing job)
        (if s.game.settings.moveDelay = 0 then s else s.wait) := by
      split
      · exact .refl _ s
      · rename_i delayed
        exact leads_wait delayed
    refine pauses.trans ?_
    generalize (if s.game.settings.moveDelay = 0 then s else s.wait) = s
    cases job with
    | «local» difficulty => exact Step.chose.leads (listening_publish rfl)
    | remote payload =>
      -- events may still come while the solver is asked, whatever it answers
      have waits : Stage.asking.Waits s.game.settings := trivial
      refine (Step.asked.leads id).trans ((leads_wait waits).trans ?_)
      generalize s.wait = s
      rw [ask_eq]
      refine ((Step.rescheduled s.arrivals s.ask.2.answers).leads id).trans ?_
      exact (Step.answered s.ask.1).leads (listening_publish rfl)

/-! ## A turn has a move less to make -/

/-- Who is to make the move of a turn. -/
def source : TurnJob → MoveSource
  | .local difficulty => .local difficulty
  | .remote _ => .solver

theorem beginTurn_locks {m : Match Board} {job : TurnJob} (locks : m.beginTurn.1 = .ok (some job)) :
    ∃ log, m.beginTurn.2 = { m with phase := .awaitingMove (source job), log := log } := by
  by_cases phase : m.phase = .playing
  · cases mover : m.moverSource with
    | human => simp [Match.beginTurn, phase, mover] at locks
    | «local» difficulty =>
      simp only [Match.beginTurn, phase, mover, ne_eq, not_true, ite_false] at locks ⊢
      cases locks
      exact ⟨m.log, rfl⟩
    | solver =>
      obtain ⟨log, _, noted⟩ := Match.buildPayload_continues { m with phase := .awaitingMove .solver }
      cases built : Match.buildPayload { m with phase := .awaitingMove .solver } with
      | mk result after =>
        rw [built] at noted
        obtain rfl := noted
        simp only [Match.beginTurn, phase, mover, built, ne_eq, not_true, ite_false] at locks ⊢
        cases result with
        | error failure => cases locks
        | ok payload =>
          cases locks
          exact ⟨log, rfl⟩
  · simp [Match.beginTurn, phase] at locks

theorem handle_of_locked {m : Match Board} (locked : m.isLocked = true) (file : SaveFile)
    (event : Event) :
    m.handle file event = (.ignored (.locked event), m.warn (Refusal.locked event).message, file) := by
  simp only [Match.handle, locked, ite_true, Match.ignore]

theorem foldl_handleEvent_of_locked (events : List Event) {s : Session Board}
    (locked : s.game.isLocked = true) :
    ∃ log, (events.foldl handleEvent s).game = { s.game with log := log } := by
  induction events generalizing s with
  | nil => exact ⟨s.game.log, rfl⟩
  | cons event events of_events =>
    have handled : (s.handleEvent event).game = s.game.warn (Refusal.locked event).message := by
      rw [game_handleEvent, handle_of_locked locked]
    obtain ⟨log, same⟩ := @of_events (s.handleEvent event) (by rw [handled]; exact locked)
    rw [handled] at same
    exact ⟨log, same⟩

theorem wait_of_locked {s : Session Board} (locked : s.game.isLocked = true) :
    ∃ log, s.wait.game = { s.game with log := log } :=
  foldl_handleEvent_of_locked _ locked

theorem movesLeft_of_report [EndingRules Board] {m : Match Board} {call : Match.Call}
    {report : MoveReport} (told : (m.call call).1 = .report (.ok report)) :
    Rules.movesLeft (m.call call).2.board < Rules.movesLeft m.board := by
  obtain ⟨maker, moved⟩ := Match.deed_of_report told
  have change := m.call_change call
  rw [moved] at change
  exact EndingRules.movesLeft_lt change.of_moved.1

theorem movesLeft_complete [EndingRules Board] {s : Session Board} {call : Match.Call}
    {completed : Match.Completed Board}
    (made : s.game.call call = (.report completed.1, completed.2.1))
    (moved : (s.complete completed).1 = true) :
    Rules.movesLeft (s.complete completed).2.game.board < Rules.movesLeft s.game.board := by
  obtain ⟨result, game, file⟩ := completed
  cases result with
  | error failure => cases moved
  | ok report =>
    have told : (s.game.call call).1 = .report (.ok report) := by rw [made]
    have less := movesLeft_of_report told
    rw [made] at less
    simpa using less

/-- A session in the middle of a turn on a board. -/
def TurnOn (board : Board) (s : Session Board) : Prop := s.game.isLocked = true ∧ s.game.board = board

theorem TurnOn.wait {board : Board} {s : Session Board} (turn : TurnOn board s) : TurnOn board s.wait := by
  obtain ⟨locked, same⟩ := turn
  obtain ⟨log, waited⟩ := wait_of_locked locked
  unfold TurnOn
  rw [waited]
  exact ⟨locked, same⟩

theorem movesLeft_takeTurn [EndingRules Board] {s : Session Board} (moved : s.takeTurn.1 = true) :
    Rules.movesLeft s.takeTurn.2.game.board < Rules.movesLeft s.game.board := by
  unfold takeTurn at moved ⊢
  split at moved
  · cases moved
  · cases moved
  · rename_i job game begun
    obtain ⟨log, locked⟩ := beginTurn_locks (by rw [begun])
    rw [begun] at locked
    dsimp only at locked moved ⊢
    have turn : TurnOn s.game.board { s with game := game }.publish := by
      unfold TurnOn
      rw [game_publish, locked]
      exact ⟨rfl, rfl⟩
    generalize { s with game := game }.publish = t at turn moved ⊢
    replace turn : TurnOn s.game.board (if t.game.settings.moveDelay = 0 then t else t.wait) := by
      split
      · exact turn
      · exact turn.wait
    generalize (if t.game.settings.moveDelay = 0 then t else t.wait) = t at turn moved ⊢
    cases job with
    | «local» difficulty =>
      rw [← turn.2]
      exact @movesLeft_complete _ _ _ t (.completeLocal t.file) _ rfl moved
    | remote payload =>
      replace turn := turn.wait
      generalize t.wait = t at turn moved ⊢
      rw [ask_eq] at moved ⊢
      rw [← turn.2]
      exact @movesLeft_complete _ _ _ { t with answers := t.ask.2.answers }
        (.completeRemote t.file t.ask.1) _ rfl moved

/-! ## All turns and all events -/

variable [EndingRules Board]

/-- With more turns to take than moves are left, a session listens after them. -/
theorem leads_takeTurns {count : Nat} {s : Session Board} (enough : Rules.movesLeft s.game.board < count) :
    Leads .beginning s .listening (s.takeTurns count) := by
  induction count generalizing s with
  | zero => exact absurd enough (Nat.not_lt_zero _)
  | succ count of_count =>
    have turn := leads_takeTurn s
    have fewer := @movesLeft_takeTurn _ _ _ s
    unfold takeTurns
    split
    · rename_i t taken
      rw [taken] at turn fewer
      exact turn.trans (of_count (Nat.lt_of_lt_of_le (fewer rfl) (Nat.le_of_lt_succ enough)))
    · rename_i t taken
      rw [taken] at turn
      exact turn

theorem leads_settle (s : Session Board) : Leads .beginning s .listening s.settle :=
  leads_takeTurns (Nat.lt_succ_self _)

theorem leads_runFor {count : Nat} {s : Session Board} (enough : s.queue.length ≤ count) :
    Leads .beginning s .listening (s.runFor count) ∧ (s.runFor count).queue = [] := by
  -- events that come during turns are taken from the queue too, so that `count` may exceed those left
  induction count generalizing s with
  | zero =>
    have leads := leads_settle s
    obtain ⟨history, course⟩ := leads.1
    have left := course.queue_suffix
    have empty : s.queue = [] := List.eq_nil_of_length_eq_zero (Nat.le_zero.mp enough)
    rw [empty] at left
    exact ⟨leads, List.suffix_nil.mp left⟩
  | succ count of_count =>
    have leads := leads_settle s
    obtain ⟨history, course⟩ := leads.1
    have left := course.queue_suffix.length_le
    unfold runFor
    dsimp only
    split
    · rename_i empty
      exact ⟨leads, empty⟩
    · rename_i event rest next
      rw [next, List.length_cons] at left
      obtain ⟨others, empty⟩ :=
        @of_count ({ s.settle with queue := rest }.handleEvent event) (by simp; omega)
      have heard := (Step.heard next).leads (listening_publish rfl)
      exact ⟨(leads.trans heard).trans others, empty⟩

theorem ends_run (s : Session Board) :
    (∃ history, Ends s history s.run) ∧ (s.listener = .listening → s.run.listener = .listening) := by
  obtain ⟨⟨⟨history, course⟩, stays⟩, empty⟩ := leads_runFor (Nat.le_refl s.queue.length)
  exact ⟨⟨history, course, empty⟩, stays⟩

end Tabletop.Session

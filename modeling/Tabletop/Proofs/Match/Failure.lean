import Tabletop.Board.ThreeInARow.Search
import Tabletop.Proofs.Match.Change.Turn

/-!
Turns that fail. Every way a turn can fail that is not a person's is a case of `Fails`, whichever part
of the program it comes from: the scoring program, its payload, the solver, or the board. A failed turn
closes the round, and one that was not awaited leaves everything as it is.
-/

namespace Tabletop.Match

variable {Board : Type} [StrongPlay Board]

/-- The failure that a reply tells of. -/
def Reply.failure? : Reply → Option TurnFailure
  | .job (.error failure) => some failure
  | .report (.error failure) => some failure
  | _ => none

/-- Why there is no payload to send to a solver. -/
inductive Unbuilt (m : Match Board) : TurnFailure → Prop
  | program {failure : Scoring.Failure}
      (ran : Scoring.run m.settings.scoring m.program (Rules.view m.board) = .error failure) :
      Unbuilt m (.program failure)
  | payload {outcome : Scoring.Outcome} {problem : Payload.Invalid}
      (ran : Scoring.run m.settings.scoring m.program (Rules.view m.board) = .ok outcome)
      (invalid : outcome.payload.normalize = .error problem) : Unbuilt m (.payload problem)

/-- Why a solver's position cannot be played. -/
inductive Refuses (m : Match Board) (position : Int) : Rejection → Prop
  | negative (below : position < 0) : Refuses m position .negative
  | illegal {reason : IllegalMove} (natural : 0 ≤ position)
      (refused : Rules.move m.board position.toNat m.mover = .error reason) :
      Refuses m position (.illegal reason)

inductive Fails (m : Match Board) : Call → TurnFailure → Prop
  | unbuilt {failure : TurnFailure} (phase : m.phase = .playing) (source : m.moverSource = .solver)
      (unbuilt : m.Unbuilt failure) : Fails m .beginTurn failure
  | noChoice {file : SaveFile} {difficulty : Difficulty}
      (locked : m.phase = .awaitingMove (.local difficulty))
      (chosen : (choose m.stream m.board m.mover difficulty).1 = none) :
      Fails m (.completeLocal file) .noMove
  | illegalChoice {file : SaveFile} {difficulty : Difficulty} {position : Nat} {reason : IllegalMove}
      (locked : m.phase = .awaitingMove (.local difficulty))
      (chosen : (choose m.stream m.board m.mover difficulty).1 = some position)
      (refused : Rules.move m.board position m.mover = .error reason) :
      Fails m (.completeLocal file) (.illegalMove position (.illegal reason))
  | solver {file : SaveFile} {failure : Solver.Failure} (locked : m.phase = .awaitingMove .solver) :
      Fails m (.completeRemote file (.error failure)) (.solver failure)
  | rejected {file : SaveFile} {reply : Solver.Reply} {reason : Rejection}
      (locked : m.phase = .awaitingMove .solver) (policy : m.settings.occupied = .reject)
      (refused : m.Refuses reply.position reason) :
      Fails m (.completeRemote file (.ok reply)) (.illegalMove reply.position reason)
  | noSubstitute {file : SaveFile} {reply : Solver.Reply} {reason : Rejection}
      (locked : m.phase = .awaitingMove .solver) (policy : m.settings.occupied = .substituteLegal)
      (refused : m.Refuses reply.position reason)
      (drawn : (randomChoice m.stream m.board m.mover).1 = none) :
      Fails m (.completeRemote file (.ok reply)) .noMove
  | illegalSubstitute {file : SaveFile} {reply : Solver.Reply} {reason : Rejection} {position : Nat}
      {again : IllegalMove} (locked : m.phase = .awaitingMove .solver)
      (policy : m.settings.occupied = .substituteLegal) (refused : m.Refuses reply.position reason)
      (drawn : (randomChoice m.stream m.board m.mover).1 = some position)
      (illegal : Rules.move m.board position m.mover = .error again) :
      Fails m (.completeRemote file (.ok reply)) (.illegalMove position (.illegal again))
  | notLocal {file : SaveFile}
      (unawaited : ∀ difficulty, m.phase ≠ .awaitingMove (.local difficulty)) :
      Fails m (.completeLocal file) .notAwaiting
  | notRemote {file : SaveFile} {answer : Solver.Answer}
      (unawaited : m.phase ≠ .awaitingMove .solver) :
      Fails m (.completeRemote file answer) .notAwaiting

/-- What a failure leaves of a match: its setup, with one more error in the log. -/
structure ClosedBy (m : Match Board) (failure : TurnFailure) (after : Match Board) : Prop where
  phase : after.phase = .setup
  board : after.board = Rules.opening
  mover : after.mover = .first
  lastMove : after.lastMove = none
  wins : after.series.wins = ⟨0, 0⟩
  lastFailure : after.lastFailure = some failure
  logged : ∃ log, m.Continues log ∧
    after.log = log ++ [⟨.error, s!"{failure.message}; round abandoned"⟩]
  unlocked : after.series.unlocked = m.series.unlocked
  mode : after.mode = m.mode
  sources : after.sources = m.sources
  program : after.program = m.program
  settings : after.settings = m.settings

/-- Abandoning a round closes it, whatever was locked, drawn and logged in the turn before. -/
theorem abandon_closed (m : Match Board) (phase : Phase) (stream : RandomStream)
    {log : List Diagnostic} (mild : m.Continues log) (failure : TurnFailure) :
    ClosedBy m failure
      (abandon { m with phase := phase, stream := stream, log := log } failure) where
  phase := rfl
  board := rfl
  mover := rfl
  lastMove := rfl
  wins := rfl
  lastFailure := rfl
  logged := ⟨log, mild, rfl⟩
  unlocked := rfl
  mode := rfl
  sources := rfl
  program := rfl
  settings := rfl

theorem playAt_error_iff {m : Match Board} {file : SaveFile} {position : Nat} {reason : IllegalMove} :
    m.playAt file position = .error reason ↔
      Rules.move m.board position m.mover = .error reason := by
  unfold playAt
  cases Rules.move m.board position m.mover <;> simp

theorem playSelected_error_iff {m : Match Board} {file : SaveFile} {position : Int}
    {reason : Rejection} :
    m.playSelected file position = .error reason ↔ m.Refuses position reason := by
  unfold playSelected
  constructor
  · intro refused
    split at refused
    · rename_i below
      cases refused
      exact .negative below
    · rename_i natural
      split at refused
      · cases refused
      · rename_i illegal
        cases refused
        exact .illegal (Int.not_lt.mp natural) (playAt_error_iff.mp illegal)
  · rintro (below | ⟨natural, refused⟩)
    · simp [below]
    · simp [Int.not_lt.mpr natural, playAt_error_iff.mpr refused]

/-! ## Every failure closes the round -/

/-- A completion that abandons the round after some drawing and logging. -/
def GivesUp (m : Match Board) (file : SaveFile) (failure : TurnFailure)
    (completed : Completed Board) : Prop :=
  ∃ stream log, m.Continues log ∧
    completed = abandoned { m with stream := stream, log := log } file failure

theorem GivesUp.of_playChosen {m : Match Board} {file : SaveFile} {position : Nat}
    {reason : IllegalMove} (refused : Rules.move m.board position m.mover = .error reason)
    (stream : RandomStream) {log : List Diagnostic} (mild : m.Continues log) :
    m.GivesUp file (.illegalMove position (.illegal reason))
      (playChosen { m with stream := stream, log := log } file position) := by
  refine ⟨stream, log, mild, ?_⟩
  have illegal : playAt { m with stream := stream, log := log } file position = .error reason :=
    playAt_error_iff.mpr refused
  simp only [playChosen, illegal]

theorem GivesUp.closed {m : Match Board} {file : SaveFile} {failure : TurnFailure}
    {completed : Completed Board} (up : m.GivesUp file failure completed) :
    completed.1 = .error failure ∧ ClosedBy m failure completed.2.1 := by
  obtain ⟨stream, log, mild, rfl⟩ := up
  exact ⟨rfl, abandon_closed m m.phase stream mild failure⟩

theorem completeLocal_givesUp {m : Match Board} {file : SaveFile} {failure : TurnFailure}
    (fails : m.Fails (.completeLocal file) failure) (awaited : failure ≠ .notAwaiting) :
    m.GivesUp file failure (m.completeLocal file) := by
  cases fails with
  | @noChoice _ difficulty locked chosen =>
    cases drawn : choose m.stream m.board m.mover difficulty with
    | mk choice stream =>
      obtain rfl : choice = none := by simpa [drawn] using chosen
      have turn : m.completeLocal file = abandoned { m with stream := stream } file .noMove := by
        simp only [completeLocal, locked, drawn]
      exact ⟨stream, m.log, .refl m, turn⟩
  | @illegalChoice _ difficulty position reason locked chosen refused =>
    cases drawn : choose m.stream m.board m.mover difficulty with
    | mk choice stream =>
      obtain rfl : choice = some position := by simpa [drawn] using chosen
      have turn : m.completeLocal file = playChosen { m with stream := stream } file position := by
        simp only [completeLocal, locked, drawn]
      rw [turn]
      exact .of_playChosen refused stream (.refl m)
  | notLocal unawaited => exact absurd rfl awaited

theorem substitute_givesUp_of_none {m : Match Board} {file : SaveFile} (failure : TurnFailure)
    (drawn : (randomChoice m.stream m.board m.mover).1 = none) :
    m.GivesUp file .noMove (m.substitute file failure) := by
  cases choice : randomChoice m.stream m.board m.mover with
  | mk position stream =>
    obtain rfl : position = none := by simpa [choice] using drawn
    exact ⟨stream, m.log, .refl m, by simp only [substitute, choice]⟩

theorem substitute_givesUp_of_some {m : Match Board} {file : SaveFile} (failure : TurnFailure)
    {position : Nat} {reason : IllegalMove}
    (drawn : (randomChoice m.stream m.board m.mover).1 = some position)
    (refused : Rules.move m.board position m.mover = .error reason) :
    m.GivesUp file (.illegalMove position (.illegal reason)) (m.substitute file failure) := by
  cases choice : randomChoice m.stream m.board m.mover with
  | mk position? stream =>
    obtain rfl : position? = some position := by simpa [choice] using drawn
    simp only [substitute, choice]
    exact .of_playChosen refused stream ((Continues.refl m).warn _)

theorem completeRemote_givesUp {m : Match Board} {file : SaveFile} {answer : Solver.Answer}
    {failure : TurnFailure} (fails : m.Fails (.completeRemote file answer) failure)
    (awaited : failure ≠ .notAwaiting) : m.GivesUp file failure (m.completeRemote file answer) := by
  cases fails with
  | @solver _ failure locked =>
    have turn : m.completeRemote file (.error failure) = m.abandoned file (.solver failure) := by
      simp only [completeRemote, locked]
    exact ⟨m.stream, m.log, .refl m, turn⟩
  | @rejected _ reply reason locked policy refused =>
    have turn : m.completeRemote file (.ok reply) =
        m.abandoned file (.illegalMove reply.position reason) := by
      simp only [completeRemote, locked, playSelected_error_iff.mpr refused, policy]
    exact ⟨m.stream, m.log, .refl m, turn⟩
  | @noSubstitute _ reply reason locked policy refused drawn =>
    have turn : m.completeRemote file (.ok reply) =
        m.substitute file (.illegalMove reply.position reason) := by
      simp only [completeRemote, locked, playSelected_error_iff.mpr refused, policy]
    rw [turn]
    exact substitute_givesUp_of_none _ drawn
  | @illegalSubstitute _ reply reason position again locked policy refused drawn illegal =>
    have turn : m.completeRemote file (.ok reply) =
        m.substitute file (.illegalMove reply.position reason) := by
      simp only [completeRemote, locked, playSelected_error_iff.mpr refused, policy]
    rw [turn]
    exact substitute_givesUp_of_some _ drawn illegal
  | notRemote unawaited => exact absurd rfl awaited

theorem buildPayload_error_iff {m : Match Board} {failure : TurnFailure} :
    m.buildPayload.1 = .error failure ↔ m.Unbuilt failure := by
  unfold buildPayload
  constructor
  · intro failed
    split at failed
    · rename_i ran
      cases failed
      exact .program ran
    · rename_i ran
      simp only at failed
      split at failed
      · cases failed
      · rename_i invalid
        cases failed
        exact .payload ran invalid
  · rintro (ran | ⟨ran, invalid⟩)
    · simp only [ran]
    · simp only [ran, invalid]

/-- Whether a payload can be built does not depend on the lock. -/
theorem buildPayload_locked_error_iff {m : Match Board} {failure : TurnFailure} :
    (buildPayload { m with phase := .awaitingMove .solver }).1 = .error failure ↔
      m.Unbuilt failure := by
  rw [buildPayload_error_iff]
  constructor
  · rintro (ran | ⟨ran, invalid⟩)
    · exact .program ran
    · exact .payload ran invalid
  · rintro (ran | ⟨ran, invalid⟩)
    · exact .program ran
    · exact .payload ran invalid

theorem beginTurn_unbuilt {m : Match Board} {failure : TurnFailure} (phase : m.phase = .playing)
    (source : m.moverSource = .solver) (unbuilt : m.Unbuilt failure) :
    m.beginTurn.1 = .error failure ∧ ClosedBy m failure m.beginTurn.2 := by
  have failed := buildPayload_locked_error_iff.mpr unbuilt
  obtain ⟨log, mild, noted⟩ := buildPayload_continues { m with phase := .awaitingMove .solver }
  cases built : buildPayload { m with phase := .awaitingMove .solver } with
  | mk result after =>
    rw [built] at failed noted
    obtain rfl : result = .error failure := failed
    obtain rfl := noted
    simp only [beginTurn, phase, source, built, ne_eq, not_true, ite_false]
    exact ⟨trivial, abandon_closed m (.awaitingMove .solver) m.stream mild failure⟩

theorem beginTurn_fails {m : Match Board} {failure : TurnFailure}
    (failed : m.beginTurn.1 = .error failure) : m.Fails .beginTurn failure := by
  by_cases phase : m.phase = .playing
  · cases source : m.moverSource with
    | human => simp [beginTurn, phase, source] at failed
    | «local» difficulty => simp [beginTurn, phase, source] at failed
    | solver =>
      cases built : buildPayload { m with phase := .awaitingMove .solver } with
      | mk result after =>
        simp only [beginTurn, phase, source, built, ne_eq, not_true, ite_false] at failed
        cases result with
        | ok payload => cases failed
        | error reason =>
          obtain rfl : reason = failure := Except.error.inj failed
          exact .unbuilt phase source (buildPayload_locked_error_iff.mp (by rw [built]))
  · simp [beginTurn, phase] at failed

/-! ## Nothing else fails -/

theorem playChosen_error {m : Match Board} {file : SaveFile} {position : Nat} {failure : TurnFailure}
    (failed : (m.playChosen file position).1 = .error failure) :
    ∃ reason, failure = .illegalMove position (.illegal reason) ∧
      Rules.move m.board position m.mover = .error reason := by
  unfold playChosen at failed
  split at failed
  · cases failed
  · rename_i reason refused
    cases failed
    exact ⟨reason, rfl, playAt_error_iff.mp refused⟩

theorem completeLocal_fails {m : Match Board} {file : SaveFile} {failure : TurnFailure}
    (failed : (m.completeLocal file).1 = .error failure) :
    m.Fails (.completeLocal file) failure := by
  unfold completeLocal at failed
  split at failed
  · rename_i difficulty locked
    split at failed
    · rename_i stream drawn
      cases failed
      exact .noChoice locked (by rw [drawn])
    · rename_i position stream drawn
      obtain ⟨reason, rfl, refused⟩ := playChosen_error failed
      exact .illegalChoice locked (by rw [drawn]) refused
  · rename_i unawaited
    cases failed
    exact .notLocal unawaited

theorem substitute_error {m : Match Board} {file : SaveFile} {refusal failure : TurnFailure}
    (failed : (m.substitute file refusal).1 = .error failure) :
    (failure = .noMove ∧ (randomChoice m.stream m.board m.mover).1 = none) ∨
      ∃ (position : Nat) (reason : IllegalMove), failure = .illegalMove position (.illegal reason) ∧
        (randomChoice m.stream m.board m.mover).1 = some position ∧
        Rules.move m.board position m.mover = .error reason := by
  unfold substitute at failed
  split at failed
  · rename_i stream drawn
    cases failed
    exact .inl ⟨rfl, by rw [drawn]⟩
  · rename_i position stream drawn
    obtain ⟨reason, rfl, refused⟩ := playChosen_error failed
    exact .inr ⟨position, reason, rfl, by rw [drawn], refused⟩

theorem completeRemote_fails {m : Match Board} {file : SaveFile} {answer : Solver.Answer}
    {failure : TurnFailure} (failed : (m.completeRemote file answer).1 = .error failure) :
    m.Fails (.completeRemote file answer) failure := by
  unfold completeRemote at failed
  split at failed
  · rename_i locked
    split at failed
    · cases failed
      exact .solver locked
    · rename_i reply
      split at failed
      · cases failed
      · rename_i reason selected
        have refused := playSelected_error_iff.mp selected
        simp only at failed
        split at failed
        · rename_i policy
          cases failed
          exact .rejected locked policy refused
        · rename_i policy
          rcases substitute_error failed with ⟨rfl, drawn⟩ | ⟨position, again, rfl, drawn, illegal⟩
          · exact .noSubstitute locked policy refused drawn
          · exact .illegalSubstitute locked policy refused drawn illegal
  · rename_i unawaited
    cases failed
    exact .notRemote unawaited

/-! ## Calls -/

theorem Fails.closed {m : Match Board} {call : Call} {failure : TurnFailure}
    (fails : m.Fails call failure) (awaited : failure ≠ .notAwaiting) :
    (m.call call).1.failure? = some failure ∧ ClosedBy m failure (m.call call).2 := by
  cases call with
  | beginTurn =>
    cases fails with
    | unbuilt phase source unbuilt =>
      obtain ⟨told, closed⟩ := beginTurn_unbuilt phase source unbuilt
      exact ⟨by simp [Match.call, Reply.failure?, told], closed⟩
  | completeLocal file =>
    obtain ⟨told, closed⟩ := (completeLocal_givesUp fails awaited).closed
    exact ⟨by simp [Match.call, Reply.failure?, told], closed⟩
  | completeRemote file answer =>
    obtain ⟨told, closed⟩ := (completeRemote_givesUp fails awaited).closed
    exact ⟨by simp [Match.call, Reply.failure?, told], closed⟩
  | event | setProgram | drainLog => cases fails

theorem completeLocal_of_unawaited {m : Match Board}
    (unawaited : ∀ difficulty, m.phase ≠ .awaitingMove (.local difficulty)) (file : SaveFile) :
    m.completeLocal file = (.error .notAwaiting, m, file) := by
  unfold completeLocal
  split
  · rename_i difficulty locked
    exact absurd locked (unawaited difficulty)
  · rfl

theorem completeRemote_of_unawaited {m : Match Board} (unawaited : m.phase ≠ .awaitingMove .solver)
    (file : SaveFile) (answer : Solver.Answer) :
    m.completeRemote file answer = (.error .notAwaiting, m, file) := by
  unfold completeRemote
  split
  · rename_i locked
    exact absurd locked unawaited
  · rfl

theorem Fails.unawaited {m : Match Board} {call : Call} (fails : m.Fails call .notAwaiting) :
    (m.call call).1.failure? = some .notAwaiting ∧ (m.call call).2 = m := by
  cases fails with
  | unbuilt phase source unbuilt => cases unbuilt
  | notLocal unawaited =>
    simp only [Match.call, completeLocal_of_unawaited unawaited, Reply.failure?, and_self]
  | notRemote unawaited =>
    simp only [Match.call, completeRemote_of_unawaited unawaited, Reply.failure?, and_self]

/-- What is told of as a failure is one, and every failure is told of. -/
theorem call_failure?_iff {m : Match Board} {call : Call} {failure : TurnFailure} :
    (m.call call).1.failure? = some failure ↔ m.Fails call failure := by
  constructor
  · intro told
    cases call with
    | beginTurn =>
      cases failed : m.beginTurn.1 with
      | ok job => simp [Match.call, Reply.failure?, failed] at told
      | error reason =>
        obtain rfl : reason = failure := by simpa [Match.call, Reply.failure?, failed] using told
        exact beginTurn_fails failed
    | completeLocal file =>
      cases failed : (m.completeLocal file).1 with
      | ok report => simp [Match.call, Reply.failure?, failed] at told
      | error reason =>
        obtain rfl : reason = failure := by simpa [Match.call, Reply.failure?, failed] using told
        exact completeLocal_fails failed
    | completeRemote file answer =>
      cases failed : (m.completeRemote file answer).1 with
      | ok report => simp [Match.call, Reply.failure?, failed] at told
      | error reason =>
        obtain rfl : reason = failure := by simpa [Match.call, Reply.failure?, failed] using told
        exact completeRemote_fails failed
    | event | setProgram | drainLog => cases told
  · intro fails
    by_cases awaited : failure = .notAwaiting
    · subst awaited
      exact fails.unawaited.1
    · exact (fails.closed awaited).1

/-- A turn that is completed with a report was awaited, and the report's move has been made. -/
theorem deed_of_report {m : Match Board} {call : Call} {report : MoveReport}
    (told : (m.call call).1 = .report (.ok report)) : ∃ maker, m.deed call = .moved maker report := by
  cases call with
  | completeLocal file =>
    have played : (m.completeLocal file).1 = .ok report := Reply.report.inj told
    exact ⟨.local m.lockedDifficulty, by simp only [deed, Match.call, played, turnDeed]⟩
  | completeRemote file answer =>
    have played : (m.completeRemote file answer).1 = .ok report := Reply.report.inj told
    exact ⟨.solver, by simp only [deed, Match.call, played, turnDeed]⟩
  | event | beginTurn | setProgram | drainLog => cases told

/-- Whatever a match has come to, a turn that fails is told of with its failure, goes back to the setup of
an unplayed round and logs an error; what was set up and unlocked stays. A turn that was not awaited
changes nothing, and one that gives a report leaves the match unlocked. -/
theorem failed_turn_closes_round (m : Match Board) (call : Call) :
    (∀ failure, (m.call call).1.failure? = some failure ↔ m.Fails call failure) ∧
    (∀ failure, m.Fails call failure → failure ≠ .notAwaiting →
      ClosedBy m failure (m.call call).2) ∧
    (m.Fails call .notAwaiting → (m.call call).2 = m) ∧
    ∀ report, (m.call call).1 = .report (.ok report) → (m.call call).2.isLocked = false := by
  refine ⟨fun failure => call_failure?_iff, ?_, ?_, ?_⟩
  · intro failure fails awaited
    exact (fails.closed awaited).2
  · intro fails
    exact fails.unawaited.2
  · intro report told
    obtain ⟨maker, moved⟩ := deed_of_report told
    have change := m.call_change call
    rw [moved] at change
    obtain ⟨_, _, _, _, unlocked, _⟩ := change.of_moved
    exact unlocked


/-- A solver is to answer the first player, with a program that has nothing to call. -/
def noEntry : List Call :=
  [.setProgram "x", .event .absent (.enterSetup .classic), .event .absent (.configure .second .solver),
    .event .absent .startGame, .event .absent (.select 4)]

theorem failed_turn_closes_noEntry :
    (((new {} : Match ThreeInARow).run noEntry).call .beginTurn).1.failure? =
        some (.program (.missingEntry "createQuboForSingleMove")) ∧
      ClosedBy ((new {} : Match ThreeInARow).run noEntry)
        (.program (.missingEntry "createQuboForSingleMove"))
        (((new {} : Match ThreeInARow).run noEntry).call .beginTurn).2 := by
  have told : (((new {} : Match ThreeInARow).run noEntry).call .beginTurn).1.failure? =
      some (.program (.missingEntry "createQuboForSingleMove")) := by decide +kernel
  obtain ⟨fails, closes, _⟩ :=
    failed_turn_closes_round ((new {} : Match ThreeInARow).run noEntry) .beginTurn
  exact ⟨told, closes _ ((fails _).mp told) nofun⟩

end Tabletop.Match

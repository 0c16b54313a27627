import Mathlib.Logic.Function.Iterate
import Mathlib.Order.Monotone.Basic
import Mathlib.Order.WellFounded
import Tabletop.Command.Play
import Tabletop.Proofs.Command.Rounds
import Tabletop.Proofs.Match.Opponents

/-!
Series of local opponents in the terminal. Nobody is asked, so that rounds follow one another until a player
has the wins that take the series. A drawn round counts for nobody: a series ends unless from some round on
all are drawn. Opponents that leave nothing to chance play one round over and over.
-/

namespace Tabletop.Command

/-- The options of a series, with local opponents to play it. -/
def PlayOptions.withOpponents (options : PlayOptions) (opponents : Sides Difficulty) : PlayOptions :=
  { options with first := .local opponents.first, second := .local opponents.second }

namespace Playing

variable {Board : Type} [StrongPlay Board]

/-- One more step, unless the series has stopped or a person is asked. -/
def advance (solver : Payload → Solver.Answer) : Playing Board × Next → Playing Board × Next
  | (p, .goOn) => p.step solver
  | s => s

/-- A series after some steps. -/
def state (solver : Payload → Solver.Answer) (s : Playing Board × Next) (steps : Nat) :
    Playing Board × Next :=
  (advance solver)^[steps] s

/-- A series comes to its end, whatever may be typed, when a player has as many wins as are needed. -/
structure IsTakenBy (solver : Payload → Solver.Answer) (s : Playing Board × Next) (needed : Nat)
    (winner : Mark) (final : Playing Board) : Prop where
  ends : ∃ steps, ∀ lines, run solver steps lines s = some (final, none)
  decided : final.game.phase = .seriesOver winner
  enough : final.game.series.wins.of winner = needed
  fewer : final.game.series.wins.of winner.opponent < needed

/-- A series goes on round after round, whatever may be typed; from some step on each round is drawn. -/
structure DrawsForever (solver : Payload → Solver.Answer) (s : Playing Board × Next) : Prop where
  goesOn : ∀ steps lines, run solver steps lines s = none
  rounds : ∀ steps, ∃ later ≥ steps, (state solver s later).1.game.phase = .nextRoundReady
  drawn : ∃ steps, ∀ later ≥ steps, (state solver s later).1.game.phase = .nextRoundReady →
    outcome (state solver s later).1.game.board = .draw

variable {solver : Payload → Solver.Answer} {s : Playing Board × Next} {p : Playing Board}
  {opponents : Sides Difficulty}

/-! ## Steps and runs -/

theorem state_succ (steps : Nat) : state solver s (steps + 1) = advance solver (state solver s steps) :=
  Function.iterate_succ_apply' _ _ _

theorem state_add (steps more : Nat) :
    state solver s (steps + more) = state solver (state solver s steps) more := by
  unfold state
  rw [Nat.add_comm, Function.iterate_add_apply]

theorem state_of_ne_goOn (still : s.2 ≠ .goOn) (steps : Nat) : state solver s steps = s := by
  have fixed : advance solver s = s := by
    obtain ⟨p, next⟩ := s
    cases next with
    | goOn => exact absurd rfl still
    | listen | stop => rfl
  exact Function.iterate_fixed fixed steps

theorem run_of_stop {steps : Nat} {failure : Option Failure} (lines : List String)
    (stops : state solver s steps = (p, .stop failure)) :
    run solver steps lines s = some (p, failure) := by
  induction steps generalizing s with
  | zero =>
    obtain rfl : s = (p, .stop failure) := stops
    rfl
  | succ steps of_steps =>
    obtain ⟨q, next⟩ := s
    cases next with
    | goOn => exact of_steps stops
    | listen =>
      rw [state_of_ne_goOn (by simp)] at stops
      cases stops
    | stop other =>
      rw [state_of_ne_goOn (by simp)] at stops
      cases stops
      rfl

theorem run_of_goOn {steps : Nat} (lines : List String) (goes : (state solver s steps).2 = .goOn) :
    run solver steps lines s = none := by
  induction steps generalizing s with
  | zero =>
    obtain ⟨q, next⟩ := s
    obtain rfl : next = .goOn := goes
    rfl
  | succ steps of_steps =>
    obtain ⟨q, next⟩ := s
    cases next with
    | goOn => exact of_steps goes
    | listen =>
      rw [state_of_ne_goOn (by simp)] at goes
      cases goes
    | stop other =>
      rw [state_of_ne_goOn (by simp)] at goes
      cases goes

/-! ## One step -/

theorem step_of_over {winner : Mark} (decided : p.game.phase = .seriesOver winner) :
    (p.step solver).2 = .stop none ∧ (p.step solver).1.game = { p.game with log := [] } := by
  have same : p.tellLog.game.phase = .seriesOver winner := decided
  simp only [step, same]
  exact ⟨trivial, rfl⟩

section
variable [FairRules Board]

theorem step_of_ready (between : p.game.Between opponents) (ready : p.game.phase = .nextRoundReady) :
    (p.step solver).2 = .goOn ∧ Match.Opens opponents p.game (p.step solver).1.game := by
  have same : p.tellLog.game.phase = .nextRoundReady := ready
  obtain ⟨after, handled, opens⟩ := (between.logged []).opens ready p.file
  have continued : p.tellLog.printBoard.printScore.game.handle p.tellLog.printBoard.printScore.file
      .continue = (.accepted, after, p.file) := handled
  simp only [step, same, continued]
  exact ⟨trivial, opens.board, opens.mover, opens.phase, opens.series, opens.settings, opens.between⟩

variable [PlayableRules Board]

theorem step_of_playing (between : p.game.Between opponents) (playing : p.game.phase = .playing) :
    (p.step solver).2 = .goOn ∧ Match.Plays opponents p.game (p.step solver).1.game := by
  have same : p.tellLog.game.phase = .playing := playing
  obtain ⟨report, after, saved, completed, plays⟩ := (between.logged []).plays playing p.file
  have begun : p.tellLog.game.beginTurn =
      (.ok (some (.local (opponents.of p.game.mover))), Match.atTurn opponents p.tellLog.game) :=
    (between.logged []).beginTurn playing
  have done : (Match.atTurn opponents p.tellLog.game).completeLocal p.tellLog.file =
      (.ok report, after, saved) := completed
  simp only [step, same, playTurn, begun, done, turnDone]
  exact ⟨trivial, ⟨plays.ongoing, plays.drawn, plays.won⟩, plays.move, plays.between, plays.settings⟩

end

/-- A series of local opponents that goes on, or has stopped with somebody who has taken it. -/
structure Runs (opponents : Sides Difficulty) (s : Playing Board × Next) : Prop where
  between : s.1.game.Between opponents
  next : s.2 = .goOn ∨ s.2 = .stop none ∧ ∃ winner, s.1.game.phase = .seriesOver winner

/-- What one more step can be: a turn, the opening of another round, or nothing, when the series is over. -/
inductive Advances (opponents : Sides Difficulty) (s t : Playing Board × Next) : Prop
  | turn (playing : s.1.game.phase = .playing) (goes : t.2 = .goOn)
      (plays : Match.Plays opponents s.1.game t.1.game)
  | round (ready : s.1.game.phase = .nextRoundReady) (goes : t.2 = .goOn)
      (opens : Match.Opens opponents s.1.game t.1.game)
  | finished {winner : Mark} (decided : s.1.game.phase = .seriesOver winner) (stops : t.2 = .stop none)
      (same : ∃ log, t.1.game = { s.1.game with log := log })

variable {t : Playing Board × Next} [FairRules Board] [PlayableRules Board]

theorem Runs.advances (runs : Runs opponents s) : Advances opponents s (advance solver s) := by
  obtain ⟨p, next⟩ := s
  obtain ⟨between, rfl | ⟨rfl, winner, decided⟩⟩ := runs
  · rcases between.begun with playing | ready | ⟨winner, decided⟩
    · obtain ⟨goes, plays⟩ := step_of_playing between playing
      exact .turn playing goes plays
    · obtain ⟨goes, opens⟩ := step_of_ready between ready
      exact .round ready goes opens
    · obtain ⟨stops, same⟩ := step_of_over decided
      exact .finished decided stops ⟨[], same⟩
  · exact .finished decided rfl ⟨p.game.log, rfl⟩

section
variable {result : Outcome}

omit [PlayableRules Board] in
theorem Runs.of_advances (runs : Runs opponents s) (advances : Advances opponents s t) :
    Runs opponents t := by
  cases advances with
  | turn _ goes plays => exact ⟨plays.between, .inl goes⟩
  | round _ goes opens => exact ⟨opens.between, .inl goes⟩
  | @finished winner decided stops same =>
    obtain ⟨log, same⟩ := same
    refine ⟨?_, .inr ⟨stops, winner, ?_⟩⟩
    · rw [same]
      exact runs.between.logged log
    · rw [same]
      exact decided

omit [FairRules Board] [PlayableRules Board] in
theorem Advances.settings (advances : Advances opponents s t) :
    t.1.game.settings = s.1.game.settings := by
  cases advances with
  | turn _ _ plays => exact plays.settings
  | round _ _ opens => exact opens.settings
  | finished _ _ same =>
    obtain ⟨log, same⟩ := same
    rw [same]

omit [FairRules Board] [PlayableRules Board] in
theorem Advances.wonRounds_le (advances : Advances opponents s t) :
    s.1.game.wonRounds ≤ t.1.game.wonRounds := by
  cases advances with
  | turn _ _ plays => exact plays.wonRounds_le
  | round _ _ opens => exact Nat.le_of_eq (Match.wonRounds_of_wins (congrArg Series.wins opens.series)).symm
  | finished _ _ same =>
    obtain ⟨log, same⟩ := same
    rw [same]
    exact Nat.le_refl _

omit [FairRules Board] [PlayableRules Board] in
/-- A round that was just ended without a win is drawn. -/
theorem Advances.drawn (advances : Advances opponents s t) (ready : t.1.game.phase = .nextRoundReady)
    (nobody : t.1.game.wonRounds = s.1.game.wonRounds) (goes : t.2 = .goOn) :
    outcome t.1.game.board = .draw := by
  cases advances with
  | turn _ _ plays =>
    cases result : outcome t.1.game.board with
    | ongoing => cases ready.symm.trans (plays.ongoing result).1
    | draw => rfl
    | win winner =>
      have more := Match.wonRounds_of_win (plays.won winner result).2
      omega
  | round _ _ opens => cases ready.symm.trans opens.phase
  | finished _ stops _ => cases goes.symm.trans stops

end

theorem Runs.later (runs : Runs opponents s) (solver : Payload → Solver.Answer) (steps : Nat) :
    Runs opponents (state solver s steps) := by
  induction steps with
  | zero => exact runs
  | succ steps of_steps =>
    rw [state_succ]
    exact of_steps.of_advances of_steps.advances

theorem Runs.settings_later (runs : Runs opponents s) (solver : Payload → Solver.Answer)
    (steps : Nat) :
    (state solver s steps).1.game.settings = s.1.game.settings := by
  induction steps with
  | zero => rfl
  | succ steps of_steps =>
    rw [state_succ]
    exact ((runs.later solver steps).advances.settings).trans of_steps

/-! ## Rounds end, and only so many are won -/

theorem exists_settled {f : Nat → Nat} (grows : ∀ n, f n ≤ f (n + 1)) {bound : Nat}
    (within : ∀ n, f n ≤ bound) : ∃ n, ∀ m ≥ n, f m = f n := by
  let last := Function.argmin fun n => bound - f n
  refine ⟨last, fun m later => ?_⟩
  have least : bound - f last ≤ bound - f m := Function.argmin_le (fun n => bound - f n) m
  have grown : f last ≤ f m := monotone_nat_of_le_succ grows later
  have most := within m
  omega

theorem exists_round_end [EndingRules Board] (runs : Runs opponents s) (goes : s.2 = .goOn) :
    ∃ steps, (state solver s steps).1.game.phase ≠ .playing := by
  -- each turn takes one of the moves that are left
  induction left : Rules.movesLeft s.1.game.board using Nat.strong_induction_on generalizing s with
  | _ left of_fewer =>
    by_cases playing : s.1.game.phase = .playing
    · have advances : Advances opponents s (advance solver s) := runs.advances
      cases advances with
      | turn _ goes plays =>
        obtain ⟨_, _, _, moved, _⟩ := plays.move
        have fewer := EndingRules.movesLeft_lt moved
        subst left
        obtain ⟨steps, ended⟩ := of_fewer _ fewer (runs.of_advances runs.advances) goes rfl
        refine ⟨1 + steps, ?_⟩
        rw [state_add]
        exact ended
      | round ready => cases playing.symm.trans ready
      | finished decided => cases playing.symm.trans decided
    · exact ⟨0, playing⟩

theorem seriesGoesOn_of_goesOn (runs : Runs opponents s)
    (goesOn : ∀ steps, (state solver s steps).2 = .goOn) (steps : Nat) :
    (state solver s steps).1.game.SeriesGoesOn := by
  intro winner decided
  have advances : Advances opponents _ (advance solver (state solver s steps)) :=
    (runs.later solver steps).advances
  rw [← state_succ] at advances
  have goes := goesOn (steps + 1)
  cases advances with
  | turn playing => cases decided.symm.trans playing
  | round ready => cases decided.symm.trans ready
  | finished _ stops => cases goes.symm.trans stops

theorem drawsForever [EndingRules Board] (runs : Runs opponents s)
    (goesOn : ∀ steps, (state solver s steps).2 = .goOn) : DrawsForever solver s where
  goesOn steps lines := run_of_goOn lines (goesOn steps)
  rounds steps := by
    have here : Runs opponents (state solver s steps) := runs.later solver steps
    obtain ⟨more, ended⟩ := @exists_round_end _ _ solver _ _ _ _ _ here (goesOn steps)
    rw [← state_add] at ended
    refine ⟨steps + more, Nat.le_add_right _ _, ?_⟩
    rcases (runs.later solver (steps + more)).between.begun with playing | ready | ⟨winner, decided⟩
    · exact absurd playing ended
    · exact ready
    · exact absurd decided (seriesGoesOn_of_goesOn runs goesOn _ winner)
  drawn := by
    have grows : ∀ steps, (state solver s steps).1.game.wonRounds ≤
        (state solver s (steps + 1)).1.game.wonRounds := by
      intro steps
      rw [state_succ]
      exact (runs.later solver steps).advances.wonRounds_le
    have within : ∀ steps, (state solver s steps).1.game.wonRounds ≤ 2 * s.1.game.winsNeeded := by
      intro steps
      have less := (runs.later solver steps).between.wonRounds_lt (seriesGoesOn_of_goesOn runs goesOn steps)
      unfold Match.winsNeeded at less ⊢
      rw [runs.settings_later solver] at less
      exact Nat.le_of_lt less
    -- wins can only be added and are fewer than twice those needed, so that some round is the last one won
    obtain ⟨steps, settled⟩ := exists_settled grows within
    refine ⟨steps + 1, fun later beyond ready => ?_⟩
    obtain ⟨before, rfl⟩ : ∃ before, later = before + 1 := ⟨later - 1, by omega⟩
    have advances : Advances opponents _ (advance solver (state solver s before)) :=
      (runs.later solver before).advances
    rw [← state_succ] at advances
    have nobody := (settled (before + 1) (by omega)).trans (settled before (by omega)).symm
    exact advances.drawn ready nobody (goesOn _)

/-- A series that goes on stops with somebody who has taken it, or goes on for ever. -/
theorem Runs.stops_or_draws [EndingRules Board] (runs : Runs opponents s)
    (solver : Payload → Solver.Answer) :
    (∃ steps final winner, state solver s steps = (final, .stop none) ∧
      final.game.phase = .seriesOver winner) ∨ DrawsForever solver s := by
  -- easy opponents may win or draw any round, so that no number of steps tells the two cases apart
  by_cases goesOn : ∀ steps, (state solver s steps).2 = .goOn
  · exact .inr (drawsForever runs goesOn)
  · obtain ⟨steps, stopped⟩ := not_forall.mp goesOn
    rcases (runs.later solver steps).next with goes | ⟨stops, winner, decided⟩
    · exact absurd goes stopped
    · exact .inl ⟨steps, _, winner, Prod.ext rfl stops, decided⟩

theorem Runs.isTakenBy (runs : Runs opponents s) {steps : Nat} {final : Playing Board} {winner : Mark}
    (stops : state solver s steps = (final, .stop none))
    (decided : final.game.phase = .seriesOver winner) :
    IsTakenBy solver s s.1.game.winsNeeded winner final := by
  have stopped := runs.later solver steps
  have settings := runs.settings_later solver steps
  rw [stops] at stopped settings
  obtain ⟨enough, fewer⟩ := stopped.between.taken winner decided
  unfold Match.winsNeeded at enough fewer ⊢
  rw [settings] at enough fewer
  exact ⟨⟨steps, fun lines => run_of_stop lines stops⟩, decided, enough, fewer⟩

/-! ## Opponents that leave nothing to chance -/

/-- How the round ends or has ended, if opponents go on with it who leave nothing to chance; whoever has
not won it has won no round of the series. -/
structure Repeats (opponents : Sides Difficulty) (result : Outcome) (m : Match Board) : Prop where
  tends : m.phase = .playing → ∃ bound moves, Rules.movesLeft m.board ≤ bound ∧
    ∀ streams, (playFrom opponents bound m.board streams m.mover moves).outcome = result
  ended : m.phase ≠ .playing → outcome m.board = result
  blank : ∀ winner, result = .win winner → m.series.wins.of winner.opponent = 0

section
variable {result : Outcome} {m after : Match Board}

omit [FairRules Board] [PlayableRules Board] in
theorem Repeats.opening (sure : ∀ mark, opponents.of mark ≠ .easy) (seed : UInt64)
    (board : after.board = Rules.opening) (mover : after.mover = .first) (phase : after.phase = .playing)
    (blank : ∀ winner, (playRound Board opponents seed).outcome = .win winner →
      after.series.wins.of winner.opponent = 0) :
    Repeats opponents (playRound Board opponents seed).outcome after where
  tends _ := by
    refine ⟨_, 0, Nat.le_refl _, fun streams => ?_⟩
    rw [board, mover]
    exact congrArg RoundRecord.outcome (playFrom_eq_of_ne_easy sure ..)
  ended resting := absurd phase resting
  blank := blank

omit [FairRules Board] [PlayableRules Board] in
theorem Repeats.plays [EndingRules Board] (sure : ∀ mark, opponents.of mark ≠ .easy)
    (repeats : Repeats opponents result m) (between : m.Between opponents) (playing : m.phase = .playing)
    (plays : Match.Plays opponents m after) : Repeats opponents result after := by
  obtain ⟨bound, moves, enough, tends⟩ := repeats.tends playing
  obtain ⟨position, effect, chosen, moved, mover⟩ := plays.move
  have less := EndingRules.movesLeft_lt moved
  obtain ⟨bound, rfl⟩ : ∃ fewer, bound = fewer + 1 := ⟨bound - 1, by omega⟩
  -- opponents who are not easy draw nothing, so that both may be given the match's own stream
  let streams : Sides RandomStream := ⟨m.stream, m.stream⟩
  have drawn : streams.of m.mover = m.stream := by cases m.mover <;> rfl
  rw [← drawn] at chosen
  have turn : Turn opponents ⟨m.board, streams, m.mover, moves⟩ _ :=
    .played (between.isOver_eq_false playing) (Prod.ext chosen rfl) moved
  have same := (congrArg RoundRecord.outcome (playOn_of_turn turn bound)).symm.trans (tends streams)
  have ended : after.phase ≠ .playing → outcome after.board = result := by
    intro resting
    have complete : isOver after.board = true := by
      cases complete : isOver after.board with
      | true => rfl
      | false => exact absurd (plays.ongoing (isOver_eq_false_iff.mp complete)).1 resting
    rw [playOn_of_over complete] at same
    exact same
  refine ⟨fun goes => ⟨bound, moves + 1, by omega, fun others => ?_⟩, ended, ?_⟩
  · rw [mover goes, ← same]
    exact congrArg RoundRecord.outcome (playFrom_eq_of_ne_easy sure ..)
  · intro winner won
    have blank := repeats.blank winner won
    cases ends : outcome after.board with
    | ongoing => rw [(plays.ongoing ends).2, blank]
    | draw => rw [(plays.drawn ends).2, blank]
    | win other =>
      obtain ⟨resting, wins⟩ := plays.won other ends
      have itself := (ended resting).symm.trans ends
      rw [won] at itself
      cases itself
      rw [wins, Series.wins_recordWin_opponent, blank]

omit [FairRules Board] [PlayableRules Board] in
theorem Repeats.of_advances [EndingRules Board] (sure : ∀ mark, opponents.of mark ≠ .easy)
    (seed : UInt64) (repeats : Repeats opponents (playRound Board opponents seed).outcome s.1.game)
    (between : s.1.game.Between opponents) (advances : Advances opponents s t) :
    Repeats opponents (playRound Board opponents seed).outcome t.1.game := by
  cases advances with
  | turn playing _ plays => exact repeats.plays sure between playing plays
  | round _ _ opens =>
    refine .opening sure seed opens.board opens.mover opens.phase fun winner won => ?_
    rw [opens.series]
    exact repeats.blank winner won
  | finished _ _ same =>
    obtain ⟨log, same⟩ := same
    rw [same]
    exact ⟨repeats.tends, repeats.ended, repeats.blank⟩

end

/-- A series that is played in one way goes on for ever if its round is drawn, and is won by whoever wins
its round, with no other round in it. -/
theorem Runs.repeats [EndingRules Board] (runs : Runs opponents s)
    (sure : ∀ mark, opponents.of mark ≠ .easy) (seed : UInt64)
    (repeats : Repeats opponents (playRound Board opponents seed).outcome s.1.game) :
    ((playRound Board opponents seed).outcome = .draw ∧ DrawsForever solver s) ∨
      ∃ winner final, (playRound Board opponents seed).outcome = .win winner ∧
        IsTakenBy solver s s.1.game.winsNeeded winner final ∧
        final.game.series.wins.of winner.opponent = 0 := by
  have always : ∀ steps, Repeats opponents (playRound Board opponents seed).outcome
      (state solver s steps).1.game := by
    intro steps
    induction steps with
    | zero => exact repeats
    | succ steps of_steps =>
      rw [state_succ]
      exact of_steps.of_advances sure seed (runs.later solver steps).between (runs.later solver steps).advances
  rcases runs.stops_or_draws solver with ⟨steps, final, winner, stops, decided⟩ | draws
  · have stands := always steps
    have later := runs.later solver steps
    rw [stops] at stands later
    have won := (stands.ended (by rw [decided]; simp)).symm.trans (later.between.outcome_eq decided)
    exact .inr ⟨winner, final, won, runs.isTakenBy stops decided, stands.blank winner won⟩
  · obtain ⟨steps, drawn⟩ := draws.drawn
    obtain ⟨later, beyond, ready⟩ := draws.rounds steps
    have ended := (always later).ended (by rw [ready]; simp)
    exact .inl ⟨ended.symm.trans (drawn later beyond ready), draws⟩

/-! ## Starting a series -/

omit [PlayableRules Board] [FairRules Board] in
theorem accepted_of_handleAll {event : Event} {rest : List Event}
    (goes : (handleAll p (event :: rest)).2 = .goOn) :
    ∃ game file, p.game.handle p.file event = (.accepted, game, file) ∧
      handleAll p (event :: rest) = handleAll { p with game := game, file := file } rest := by
  rcases handled : p.game.handle p.file event with ⟨_ | reason, game, file⟩
  · exact ⟨game, file, rfl, by simp only [handleAll, handled]⟩
  · simp only [handleAll, handled] at goes
    cases goes

/-- A series of local opponents that could be started is in its first round, with nobody having won. -/
structure Begins (opponents : Sides Difficulty) (options : PlayOptions) (settings : MatchSettings)
    (s : Playing Board × Next) : Prop where
  runs : Runs opponents s
  settings : s.1.game.settings = settings
  playing : s.1.game.phase = .playing
  wins : s.1.game.series.wins = ⟨0, 0⟩
  fresh : options.resume = false → s.1.game.board = Rules.opening ∧ s.1.game.mover = .first

omit [PlayableRules Board] in
theorem begins_of_start {options : PlayOptions} {settings : MatchSettings} {program : String}
    {file : SaveFile}
    (goes : (start (options.withOpponents opponents) settings program file : Playing Board × Next).2 =
      .goOn) :
    Begins opponents options settings
      (start (options.withOpponents opponents) settings program file : Playing Board × Next) := by
  unfold start at goes ⊢
  dsimp only at goes ⊢
  have leaving : ((Match.new settings : Match Board).withProgram program).phase = .modeSelect := rfl
  have sources : ((Match.new settings : Match Board).withProgram program).sources = defaultSources := rfl
  have sound : ((Match.new settings : Match Board).withProgram program).Sound settings :=
    ⟨Match.new_consistent settings, rfl⟩
  generalize (Match.new settings : Match Board).withProgram program = m at *
  -- all events were accepted, one after another
  obtain ⟨chosen, _, handled, next⟩ := accepted_of_handleAll goes
  obtain ⟨setup, entered⟩ := Match.enterSetup_accepted leaving handled
  replace sound := sound.handled handled
  rw [next] at goes ⊢
  obtain ⟨first, _, handled, next⟩ := accepted_of_handleAll goes
  obtain ⟨setup, seated⟩ := Match.configure_accepted setup handled
  replace sound := sound.handled handled
  rw [next] at goes ⊢
  obtain ⟨second, file, handled, next⟩ := accepted_of_handleAll goes
  obtain ⟨setup, both⟩ := Match.configure_accepted setup handled
  replace sound := sound.handled handled
  rw [next] at goes ⊢
  have even : second.series.wins = ⟨0, 0⟩ := by
    have consistent := sound.consistent
    simp only [Match.Consistent, setup] at consistent
    exact consistent.2.2.2
  rw [seated, entered, sources] at both
  obtain ⟨game, saved, handled, next⟩ := accepted_of_handleAll goes
  replace sound := sound.handled handled
  rw [next]
  obtain ⟨playing, sources, series, opening⟩ := Match.round_accepted setup handled
  have wins : game.series.wins = ⟨0, 0⟩ := by rw [series, even]
  have between : game.Between opponents :=
    .of_first_round sound.consistent (by rw [sources, both]; rfl) playing wins
  exact ⟨⟨between, .inl rfl⟩, sound.settings, playing, wins, opening⟩

omit [PlayableRules Board] [FairRules Board] in
/-- Without modes that lock opponents and without a saved game, nothing keeps a series from starting. -/
theorem start_goOn {options : PlayOptions} (classic : options.mode = .classic)
    (fresh : options.resume = false) (opponents : Sides Difficulty) (settings : MatchSettings)
    (program : String) (file : SaveFile) :
    (start (options.withOpponents opponents) settings program file : Playing Board × Next).2 = .goOn := by
  obtain ⟨first, second⟩ := opponents
  cases second <;>
    simp [start, PlayOptions.withOpponents, handleAll, Match.handle, Match.handleUnlocked,
      Match.enterSetup, Match.configure, Match.lockedTier?, Match.startGame, Match.lacksProgram,
      Match.isLocked, Match.new, Match.withProgram, Match.info, Match.note, Match.resetScore,
      defaultSources, Sides.of, Sides.set, Sides.toList, classic, fresh]

/-! ## All series -/

/-- What is true of a game at which two local opponents play series. -/
structure SeriesEnd (Board : Type) [StrongPlay Board] : Prop where
  starts : ∀ (opponents : Sides Difficulty) (options : PlayOptions) (settings : MatchSettings)
    (program : String) (file : SaveFile), options.mode = .classic → options.resume = false →
    (start (options.withOpponents opponents) settings program file : Playing Board × Next).2 = .goOn
  ends : ∀ (solver : Payload → Solver.Answer) (opponents : Sides Difficulty) (options : PlayOptions)
    (settings : MatchSettings) (program : String) (file : SaveFile) (started : Playing Board × Next),
    start (options.withOpponents opponents) settings program file = started → started.2 = .goOn →
    (∃ winner final, IsTakenBy solver started (max 1 settings.winsToTake) winner final) ∨
      DrawsForever solver started
  /-- Opponents that leave nothing to chance play the round that they would play in a duel. -/
  repeats : ∀ (solver : Payload → Solver.Answer) (opponents : Sides Difficulty) (options : PlayOptions)
    (settings : MatchSettings) (program : String) (file : SaveFile) (started : Playing Board × Next)
    (seed : UInt64),
    start (options.withOpponents opponents) settings program file = started → started.2 = .goOn →
    options.resume = false → (∀ mark, opponents.of mark ≠ .easy) →
    ((playRound Board opponents seed).outcome = .draw ∧ DrawsForever solver started) ∨
      ∃ winner final, (playRound Board opponents seed).outcome = .win winner ∧
        IsTakenBy solver started (max 1 settings.winsToTake) winner final ∧
        final.game.series.wins.of winner.opponent = 0

omit [FairRules Board] [PlayableRules Board] in
theorem winsNeeded_of_begins {options : PlayOptions} {settings : MatchSettings}
    (begins : Begins opponents options settings s) :
    s.1.game.winsNeeded = max 1 settings.winsToTake := by
  unfold Match.winsNeeded
  rw [begins.settings]

theorem seriesEnd [EndingRules Board] : SeriesEnd Board where
  starts opponents options settings program file classic fresh :=
    start_goOn classic fresh opponents settings program file
  ends solver opponents options settings program file started same goes := by
    subst same
    have begins := begins_of_start goes
    rw [← winsNeeded_of_begins begins]
    rcases begins.runs.stops_or_draws solver with
      ⟨steps, final, winner, stops, decided⟩ | draws
    · exact .inl ⟨winner, final, begins.runs.isTakenBy stops decided⟩
    · exact .inr draws
  repeats solver opponents options settings program file started seed same goes fresh sure := by
    subst same
    have begins := begins_of_start goes
    obtain ⟨board, mover⟩ := begins.fresh fresh
    rw [← winsNeeded_of_begins begins]
    refine begins.runs.repeats sure seed (.opening sure seed board mover begins.playing ?_)
    intro winner _
    rw [begins.wins]
    cases winner <;> rfl

end Playing

/-- In each game, whatever the seed and however many wins a series takes: two local opponents play round
after round, each to its end, until one of them has exactly the wins needed, or for ever with nothing but
draws from some round on. If neither is easy, a fresh series is one round over and over: all its rounds are
won by the same player, or it never ends. -/
theorem series_end_unless_drawn :
    Playing.SeriesEnd ThreeInARow ∧ Playing.SeriesEnd DropGame ∧ Playing.SeriesEnd SowingGame :=
  ⟨Playing.seriesEnd, Playing.seriesEnd, Playing.seriesEnd⟩

/-- A series of two medium opponents at a game. -/
def mediumSeries (Board : Type) [StrongPlay Board] (game : GameKind) : Playing Board × Next :=
  let options : PlayOptions :=
    ⟨game, .human, .human, none, none, .classic, none, none, none, none, false⟩
  Playing.start (options.withOpponents ⟨.medium, .medium⟩) {} "" .absent

theorem series_end_unless_drawn_mediums :
    (mediumSeries SowingGame .sowingGame).2 = .goOn ∧
      (playRound SowingGame ⟨.medium, .medium⟩ 0).outcome = .draw ∧
      Playing.DrawsForever (fun _ => .error .transport) (mediumSeries SowingGame .sowingGame) := by
  obtain ⟨_, _, series⟩ := series_end_unless_drawn
  have goes : (mediumSeries SowingGame .sowingGame).2 = .goOn := series.starts _ _ _ _ _ rfl rfl
  have drawn : (playRound SowingGame ⟨.medium, .medium⟩ 0).outcome = .draw := by decide +kernel
  refine ⟨goes, drawn, ?_⟩
  rcases series.repeats (fun _ => .error .transport) _ _ _ _ _ _ 0 rfl goes rfl
      (by intro mark; cases mark <;> simp [Sides.of]) with ⟨_, draws⟩ | ⟨winner, _, won, _⟩
  · exact draws
  · cases drawn.symm.trans won

/-- Medium opponents draw their round at three in a row too, so that nobody ever takes the series. -/
theorem mediums_never_end :
    (mediumSeries ThreeInARow .threeInARow).2 = .goOn ∧
      ¬ ∃ steps lines final, Playing.run (fun _ => .error .transport) steps lines
        (mediumSeries ThreeInARow .threeInARow) = some final := by
  have goes : (mediumSeries ThreeInARow .threeInARow).2 = .goOn :=
    Playing.start_goOn rfl rfl _ _ _ _
  have drawn : (playRound ThreeInARow ⟨.medium, .medium⟩ 0).outcome = .draw := by decide +kernel
  refine ⟨goes, ?_⟩
  rintro ⟨steps, lines, final, ended⟩
  rcases Playing.seriesEnd.repeats (fun _ => .error .transport) _ _ _ _ _ _ 0 rfl goes rfl
      (by intro mark; cases mark <;> simp [Sides.of]) with ⟨_, draws⟩ | ⟨winner, _, won, _⟩
  · rw [mediumSeries, draws.goesOn steps lines] at ended
    cases ended
  · cases drawn.symm.trans won

end Tabletop.Command

import Tabletop.Proofs.Match.Call

/-!
What a call can do. `Change` lists the transitions of a match with all that they need and all that they
change, the log and the random stream left open; `call_change` says that every call is one of them. What
holds of all runs of a match is read off this list.
-/

namespace Tabletop

/-- Who moves after an effect, if the game goes on. -/
def Effect.next (effect : Effect) (mover : Mark) : Mark :=
  if effect.extraTurn then mover else mover.opponent

namespace Match

variable {Board : Type} [StrongPlay Board]

/-- A match that waits for a move of this source. -/
def AwaitsMoveOf (m : Match Board) (maker : MoveSource) : Prop :=
  (m.phase = .playing ∧ maker = .human ∧ m.moverSource = .human) ∨ m.phase = .awaitingMove maker

/-- A match in the middle of a turn that is not a person's. -/
def InTurn (m : Match Board) : Prop :=
  (m.phase = .playing ∧ m.moverSource = .solver) ∨ ∃ source, m.phase = .awaitingMove source

inductive Change (m : Match Board) : Deed Board → Match Board → Prop
  | kept (program : String) (log : List Diagnostic) :
    Change m .nothing { m with program := program, log := log }
  | modeChosen {mode : GameMode} (log : List Diagnostic) (phase : m.phase = .modeSelect) :
    Change m (.modeChosen mode) { m with mode := mode, phase := .setup, log := log }
  | sourceChanged {mark : Mark} {source : MoveSource} (log : List Diagnostic)
      (phase : m.phase = .setup) (unlocked : m.lockedTier? source = none)
      (other : m.sources.of mark ≠ source) :
    Change m (.sourceChanged mark source)
      { m with
        sources := m.sources.set mark source
        series := m.series.resetScore
        log := log }
  | roundOpened (failure : Option TurnFailure) (log : List Diagnostic)
      (phase : m.phase = .setup ∨ m.phase = .nextRoundReady) :
    Change m .roundOpened
      { m with
        board := Rules.opening
        mover := .first
        phase := .playing
        lastMove := none
        lastFailure := failure
        log := log }
  | gameLoaded {saved : SavedGame Board} (log : List Diagnostic) (chosen : m.phase ≠ .modeSelect)
      (unlocked : m.isLocked = false) (unfinished : isOver saved.board = false) :
    Change m (.gameLoaded saved)
      { m with
        board := saved.board
        mover := saved.mover
        phase := .playing
        lastMove := none
        log := log }
  | turnLocked (log : List Diagnostic) (phase : m.phase = .playing)
      (source : m.moverSource ≠ .human) :
    Change m .turnLocked { m with phase := .awaitingMove m.moverSource, log := log }
  | movedOn {maker : MoveSource} {position : Nat} {board : Board} {effect : Effect}
      (stream : RandomStream) (log : List Diagnostic) (turn : m.AwaitsMoveOf maker)
      (legal : Rules.move m.board position m.mover = .ok (board, effect))
      (result : outcome board = .ongoing) :
    Change m (.moved maker ⟨m.mover, position, effect, .continue (effect.next m.mover)⟩)
      { m with
        board := board
        mover := effect.next m.mover
        phase := .playing
        lastMove := some ⟨m.mover, position, effect, .continue (effect.next m.mover)⟩
        stream := stream
        log := log }
  | drewRound {maker : MoveSource} {position : Nat} {board : Board} {effect : Effect}
      (stream : RandomStream) (log : List Diagnostic) (turn : m.AwaitsMoveOf maker)
      (legal : Rules.move m.board position m.mover = .ok (board, effect))
      (result : outcome board = .draw) :
    Change m (.moved maker ⟨m.mover, position, effect, .roundOver .draw⟩)
      { m with
        board := board
        phase := .nextRoundReady
        lastMove := some ⟨m.mover, position, effect, .roundOver .draw⟩
        stream := stream
        log := log }
  | wonRound {maker : MoveSource} {position : Nat} {board : Board} {effect : Effect}
      (winner : Mark) (stream : RandomStream) (log : List Diagnostic) (turn : m.AwaitsMoveOf maker)
      (legal : Rules.move m.board position m.mover = .ok (board, effect))
      (result : outcome board = .win winner)
      (untaken : (m.series.recordWin winner).isTaken winner m.settings.winsToTake = false) :
    Change m (.moved maker ⟨m.mover, position, effect, .roundOver (.win winner)⟩)
      { m with
        board := board
        phase := .nextRoundReady
        series := m.series.recordWin winner
        lastMove := some ⟨m.mover, position, effect, .roundOver (.win winner)⟩
        stream := stream
        log := log }
  | wonSeries {maker : MoveSource} {position : Nat} {board : Board} {effect : Effect}
      (winner : Mark) (stream : RandomStream) (log : List Diagnostic) (turn : m.AwaitsMoveOf maker)
      (legal : Rules.move m.board position m.mover = .ok (board, effect))
      (result : outcome board = .win winner)
      (taken : (m.series.recordWin winner).isTaken winner m.settings.winsToTake = true) :
    Change m (.moved maker ⟨m.mover, position, effect, .seriesOver winner⟩)
      { m with
        board := board
        phase := .seriesOver winner
        series := (m.series.recordWin winner).unlockAfter (m.sources.of winner)
          (m.sources.of winner.opponent)
        lastMove := some ⟨m.mover, position, effect, .seriesOver winner⟩
        stream := stream
        log := log }
  | roundAbandoned {failure : TurnFailure} (stream : RandomStream) (log : List Diagnostic)
      (turn : m.InTurn) :
    Change m (.roundAbandoned failure)
      { m with
        board := Rules.opening
        mover := .first
        phase := .setup
        series := m.series.resetScore
        lastMove := none
        lastFailure := some failure
        stream := stream
        log := log }
  | setupEntered (log : List Diagnostic) (chosen : m.phase ≠ .modeSelect)
      (unlocked : m.isLocked = false) :
    Change m .setupEntered
      { m with
        board := Rules.opening
        mover := .first
        phase := .setup
        series := m.series.resetScore
        lastMove := none
        log := log }
  | matchLeft (log : List Diagnostic) (unlocked : m.isLocked = false) :
    Change m .matchLeft
      { m with
        board := Rules.opening
        mover := .first
        phase := .modeSelect
        mode := .classic
        sources := defaultSources
        series := .fresh
        lastMove := none
        log := log }

/-! ## Moves -/

theorem saveGame_noted (m : Match Board) (file : SaveFile) :
    ∃ log saved, m.saveGame file = ({ m with log := log }, saved) := by
  unfold saveGame
  split
  · exact ⟨m.log, file, rfl⟩
  · split
    · exact ⟨m.log, _, rfl⟩
    · exact ⟨_, file, rfl⟩

theorem goOn_ongoing (m : Match Board) (effect : Effect) (result : outcome m.board = .ongoing) :
    ∃ log, m.goOn m.mover effect = (.continue (effect.next m.mover),
      { m with mover := effect.next m.mover, phase := .playing, log := log }) := by
  cases extra : effect.extraTurn
  · exact ⟨m.log, by simp [goOn, result, Effect.next, extra]⟩
  · exact ⟨_, by simp [goOn, result, Effect.next, extra, info, note]; rfl⟩

theorem goOn_draw (m : Match Board) (effect : Effect) (result : outcome m.board = .draw) :
    ∃ log, m.goOn m.mover effect =
      (.roundOver .draw, { m with phase := .nextRoundReady, log := log }) :=
  ⟨_, by simp [goOn, result, info, note]; rfl⟩

theorem goOn_won_round (m : Match Board) (effect : Effect) {winner : Mark}
    (result : outcome m.board = .win winner)
    (untaken : (m.series.recordWin winner).isTaken winner m.settings.winsToTake = false) :
    ∃ log, m.goOn m.mover effect = (.roundOver (.win winner),
      { m with
        phase := .nextRoundReady
        series := m.series.recordWin winner
        log := log }) :=
  ⟨_, by simp [goOn, result, finishRound, untaken, info, note]; rfl⟩

theorem goOn_won_series (m : Match Board) (effect : Effect) {winner : Mark}
    (result : outcome m.board = .win winner)
    (taken : (m.series.recordWin winner).isTaken winner m.settings.winsToTake = true) :
    ∃ log, m.goOn m.mover effect = (.seriesOver winner,
      { m with
        phase := .seriesOver winner
        series := (m.series.recordWin winner).unlockAfter (m.sources.of winner)
          (m.sources.of winner.opponent)
        log := log }) := by
  simp only [goOn, result, finishRound, info, note, taken, ite_true, finishSeries]
  split
  · exact ⟨_, rfl⟩
  · exact ⟨_, rfl⟩

/-- A report is given of a move that the board accepts, and tells how the match goes on with it. -/
theorem playAt_ok {m : Match Board} {file saved : SaveFile} {position : Nat} {report : MoveReport}
    {after : Match Board} (played : m.playAt file position = .ok (report, after, saved)) :
    ∃ board effect noted log, Rules.move m.board position m.mover = .ok (board, effect) ∧
      report = ⟨m.mover, position, effect,
        (goOn { m with board := board, log := noted } m.mover effect).1⟩ ∧
      after = { (goOn { m with board := board, log := noted } m.mover effect).2 with
        lastMove := some report, log := log } := by
  unfold playAt at played
  split at played
  · cases played
  · rename_i board effect legal
    have announced : ∃ noted,
        (if 0 < effect.captured then
          (({ m with board := board }.info s!"{m.mover.title} played {position}").info
            s!"{m.mover.title} captured {effect.captured} seeds")
        else { m with board := board }.info s!"{m.mover.title} played {position}") =
          { m with board := board, log := noted } := by
      split
      · exact ⟨_, rfl⟩
      · exact ⟨_, rfl⟩
    obtain ⟨noted, announced⟩ := announced
    obtain ⟨log, kept, saving⟩ := saveGame_noted
      (goOn { m with board := board, log := noted } m.mover effect).2 file
    simp only [afterMove, announced, saving, Except.ok.injEq, Prod.mk.injEq] at played
    obtain ⟨rfl, rfl, rfl⟩ := played
    exact ⟨board, effect, noted, log, legal, rfl, rfl⟩

/-- An accepted move, whatever was logged and drawn before it was played. -/
theorem Change.of_playAt {m after : Match Board} {maker : MoveSource} {file saved : SaveFile}
    {position : Nat} {report : MoveReport} (turn : m.AwaitsMoveOf maker) (stream : RandomStream)
    (log : List Diagnostic)
    (played : playAt { m with stream := stream, log := log } file position =
      .ok (report, after, saved)) :
    Change m (.moved maker report) after := by
  obtain ⟨board, effect, noted, last, legal, rfl, rfl⟩ := playAt_ok played
  let played : Match Board := { m with stream := stream, board := board, log := noted }
  cases result : outcome board with
  | ongoing =>
    obtain ⟨log, went⟩ := goOn_ongoing played effect result
    simp only [played] at went
    simp only [went]
    exact .movedOn stream last turn legal result
  | draw =>
    obtain ⟨log, went⟩ := goOn_draw played effect result
    simp only [played] at went
    simp only [went]
    exact .drewRound stream last turn legal result
  | win winner =>
    cases taken : (m.series.recordWin winner).isTaken winner m.settings.winsToTake with
    | false =>
      obtain ⟨log, went⟩ := goOn_won_round played effect result taken
      simp only [played] at went
      simp only [went]
      exact .wonRound winner stream last turn legal result taken
    | true =>
      obtain ⟨log, went⟩ := goOn_won_series played effect result taken
      simp only [played] at went
      simp only [went]
      exact .wonSeries winner stream last turn legal result taken

/-- What a move leaves, however the match goes on after it. -/
theorem Change.of_moved {m after : Match Board} {maker : MoveSource} {report : MoveReport}
    (change : Change m (.moved maker report) after) :
    Rules.move m.board report.position m.mover = .ok (after.board, report.effect) ∧
      report.mark = m.mover ∧ m.AwaitsMoveOf maker ∧ after.sources = m.sources ∧
      after.isLocked = false ∧
      (after.phase = .playing → after.mover = report.effect.next m.mover) := by
  cases change with
  | movedOn stream log turn legal result => exact ⟨legal, rfl, turn, rfl, rfl, fun _ => rfl⟩
  | drewRound stream log turn legal result => exact ⟨legal, rfl, turn, rfl, rfl, nofun⟩
  | wonRound winner stream log turn legal result untaken =>
    exact ⟨legal, rfl, turn, rfl, rfl, nofun⟩
  | wonSeries winner stream log turn legal result taken =>
    exact ⟨legal, rfl, turn, rfl, rfl, nofun⟩

end Match
end Tabletop

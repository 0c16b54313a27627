import Tabletop.Proofs.Board.Saved
import Tabletop.Proofs.Match.Change.Turn

/-!
Matches that go on with a saved game. Every move that is played leaves the game in the saved file, if it
can be written, and each match that saves its games in the same place can go on with it: with this board
and this player to move, and with everything else as it was.
-/

namespace Tabletop.Match

/-- What stands in the place of the saved file at a call that may write it. -/
def Call.file? : Call → Option SaveFile
  | .event file _ => some file
  | .completeLocal file => some file
  | .completeRemote file _ => some file
  | _ => none

section Saving
variable {Board : Type} [StrongPlay Board]

def fileAfter? (m : Match Board) : Call → Option SaveFile
  | .event file event => some (m.handle file event).2.2
  | .completeLocal file => some (m.completeLocal file).2.2
  | .completeRemote file answer => some (m.completeRemote file answer).2.2
  | _ => none

def current (m : Match Board) : SavedGame Board := ⟨m.board, m.mover⟩

/-- A call that plays a move, after which the game can be written to a file that then is `file`. -/
structure Saves (m : Match Board) (call : Call) (file : SaveFile) : Prop where
  moved : ∃ maker report, m.deed call = .moved maker report
  written : ∃ place before, m.savePlace? = some place ∧ call.file? = some before ∧
    before.save place (m.call call).2.current.text = .ok file

theorem saveGame_file_congr {m other : Match Board} (settings : other.settings = m.settings)
    (current : other.current = m.current) (file : SaveFile) :
    (other.saveGame file).2 = (m.saveGame file).2 := by
  obtain ⟨board, mover⟩ := SavedGame.mk.inj current
  unfold saveGame savePlace?
  rw [settings, board, mover]
  split
  · rfl
  · split <;> rfl

theorem saveGame_of_save {m : Match Board} {place : SavePlace} {file saved : SaveFile}
    (placed : m.savePlace? = some place) (written : file.save place m.current.text = .ok saved) :
    m.saveGame file = (m, saved) := by
  unfold current at written
  simp only [saveGame, placed, written]

theorem file_of_playAt {m after : Match Board} {file saved : SaveFile} {position : Nat}
    {report : MoveReport} (played : m.playAt file position = .ok (report, after, saved)) :
    saved = (after.saveGame file).2 := by
  unfold playAt at played
  split at played
  · cases played
  · simp only [afterMove, Except.ok.injEq, Prod.mk.injEq] at played
    obtain ⟨_, rfl, rfl⟩ := played
    -- after the game is saved only the log and the last move change
    generalize (goOn (_ : Match Board) _ _).2 = gone
    obtain ⟨log, kept, saving⟩ := gone.saveGame_noted file
    rw [saving]
    refine (congrArg Prod.snd saving).symm.trans (saveGame_file_congr ?_ ?_ file).symm
    · rfl
    · rfl

theorem playAt_of_playChosen {m after : Match Board} {file saved : SaveFile} {position : Nat}
    {report : MoveReport} (completed : m.playChosen file position = (.ok report, after, saved)) :
    m.playAt file position = .ok (report, after, saved) := by
  unfold playChosen at completed
  split at completed
  · rename_i played
    cases completed
    exact played
  · cases completed

theorem playAt_of_completeLocal {m after : Match Board} {file saved : SaveFile} {report : MoveReport}
    (completed : m.completeLocal file = (.ok report, after, saved)) :
    ∃ (before : Match Board) (position : Nat),
      before.playAt file position = .ok (report, after, saved) := by
  unfold completeLocal at completed
  split at completed
  · split at completed
    · cases completed
    · exact ⟨_, _, playAt_of_playChosen completed⟩
  · cases completed

theorem playAt_of_completeRemote {m after : Match Board} {file saved : SaveFile}
    {answer : Solver.Answer} {report : MoveReport}
    (completed : m.completeRemote file answer = (.ok report, after, saved)) :
    ∃ (before : Match Board) (position : Nat),
      before.playAt file position = .ok (report, after, saved) := by
  unfold completeRemote at completed
  split at completed
  · split at completed
    · cases completed
    · split at completed
      · rename_i selected
        cases completed
        exact ⟨m, _, (playSelected_eq_ok_iff.mp selected).2⟩
      · simp only at completed
        split at completed
        · cases completed
        · unfold substitute at completed
          split at completed
          · cases completed
          · exact ⟨_, _, playAt_of_playChosen completed⟩
  · cases completed

theorem playAt_of_handle {m : Match Board} {file : SaveFile} {event : Event} {maker : MoveSource}
    {report : MoveReport} (moved : m.deed (.event file event) = .moved maker report) :
    ∃ (position : Nat) (told : MoveReport),
      m.playAt file position = .ok (told, (m.handle file event).2) := by
  cases answer : (m.handle file event).1 with
  | ignored reason => simp [deed, call, answer] at moved
  | accepted =>
    simp only [deed, call, answer] at moved
    cases event with
    | select position =>
      cases locked : m.isLocked with
      | true => simp [handle, locked, ignore] at answer
      | false =>
        simp only [handle, locked, Bool.false_eq_true, ite_false, handleUnlocked] at answer ⊢
        unfold select at answer ⊢
        dsimp only at answer ⊢
        split at answer
        · cases answer
        · split at answer
          · cases answer
          · rename_i phase human
            rw [if_neg phase, if_neg human]
            split at answer
            · rename_i told after saved played
              exact ⟨position, told, by simp only [played]⟩
            · cases answer
    -- no other event plays a move
    | enterSetup | startGame | returnToSetup | returnToModeSelect | clearSaved => cases moved
    | configure | «continue» | loadGame =>
      simp only [eventDeed] at moved
      split at moved <;> cases moved

omit [StrongPlay Board] in
theorem ok_of_turnDeed {maker other : MoveSource} {result : Except TurnFailure MoveReport}
    {report : MoveReport} (moved : (turnDeed maker result : Deed Board) = .moved other report) :
    result = .ok report := by
  cases result with
  | ok told =>
    cases moved
    rfl
  | error failure => cases failure <;> cases moved

theorem fileAfter?_of_moved {m : Match Board} {call : Call} {maker : MoveSource} {report : MoveReport}
    {before : SaveFile} (moved : m.deed call = .moved maker report) (file : call.file? = some before) :
    m.fileAfter? call = some ((m.call call).2.saveGame before).2 := by
  cases call with
  | event file event =>
    obtain ⟨position, told, played⟩ := playAt_of_handle moved
    cases file
    exact congrArg some (file_of_playAt played)
  | completeLocal file =>
    cases file
    obtain ⟨earlier, position, played⟩ :=
      playAt_of_completeLocal (Prod.ext (ok_of_turnDeed moved) rfl)
    exact congrArg some (file_of_playAt played)
  | completeRemote file answer =>
    cases file
    obtain ⟨earlier, position, played⟩ :=
      playAt_of_completeRemote (Prod.ext (ok_of_turnDeed moved) rfl)
    exact congrArg some (file_of_playAt played)
  | beginTurn | setProgram | drainLog => cases file

theorem Saves.fileAfter? {m : Match Board} {call : Call} {file : SaveFile}
    (saves : m.Saves call file) : m.fileAfter? call = some file := by
  obtain ⟨maker, report, moved⟩ := saves.moved
  obtain ⟨place, before, placed, given, written⟩ := saves.written
  have settings := (m.call_change call).settings_eq
  have placed_after : (m.call call).2.savePlace? = some place := by
    unfold savePlace? at placed ⊢
    rwa [settings]
  rw [fileAfter?_of_moved moved given, saveGame_of_save placed_after written]

theorem Saves.eq_text {m : Match Board} {call : Call} {file : SaveFile} (saves : m.Saves call file) :
    file = .text (m.call call).2.current.text := by
  obtain ⟨place, before, _, _, written⟩ := saves.written
  cases before with
  | absent => exact (Except.ok.inj written).symm
  | text content => exact (Except.ok.inj written).symm
  | unusable => cases written
  | blocked => cases written

theorem saves_of_select (m : Match Board) (position : Nat) (placed : m.savePlace?.isSome)
    (accepted : (m.handle .absent (.select position)).1 = .accepted)
    (played : (m.handle .absent (.select position)).2.1.lastMove.isSome) :
    m.Saves (.event .absent (.select position))
      (.text (m.call (.event .absent (.select position))).2.current.text) := by
  obtain ⟨place, placed⟩ := Option.isSome_iff_exists.mp placed
  obtain ⟨report, told⟩ := Option.isSome_iff_exists.mp played
  refine ⟨⟨.human, { report with mark := m.mover, position := position }, ?_⟩, place, .absent, placed,
    rfl, rfl⟩
  simp only [deed, call, accepted, eventDeed, told]

end Saving

section Loading
variable {Board : Type} [StrongPlay Board]

/-- A match in which a saved game is played; nothing else in it has changed but the log. -/
structure GoesOnWith (m : Match Board) (saved : SavedGame Board) (after : Match Board) : Prop where
  phase : after.phase = .playing
  board : after.board = saved.board
  mover : after.mover = saved.mover
  lastMove : after.lastMove = none
  mode : after.mode = m.mode
  sources : after.sources = m.sources
  program : after.program = m.program
  series : after.series = m.series
  settings : after.settings = m.settings
  stream : after.stream = m.stream
  lastFailure : after.lastFailure = m.lastFailure

/-- Loading succeeds if the saved game is not over, and then the match goes on with it. -/
structure Restores (m : Match Board) (file : SaveFile) (saved : SavedGame Board) : Prop where
  accepted_iff : (m.handle file .loadGame).1 = .accepted ↔ isOver saved.board = false
  goesOn : (m.handle file .loadGame).1 = .accepted → m.GoesOnWith saved (m.handle file .loadGame).2.1
  file_kept : (m.handle file .loadGame).2.2 = file

/-- The game of a match stands in a file: every match with the same place for saved games can load it, and
for this one that is to go on as before. -/
structure SavedIn (m : Match Board) (file : SaveFile) : Prop where
  others : ∀ other : Match Board, other.settings.saveDirectory = m.settings.saveDirectory →
    other.phase ≠ .modeSelect → other.isLocked = false → other.Restores file m.current
  itself : m.Restores file m.current
  stays : (m.handle file .loadGame).1 = .accepted →
    (m.handle file .loadGame).2.1.board = m.board ∧ (m.handle file .loadGame).2.1.mover = m.mover ∧
      (m.handle file .loadGame).2.1.phase = m.phase

theorem Change.phase_of_moved {m after : Match Board} {maker : MoveSource} {report : MoveReport}
    (change : Change m (.moved maker report) after) :
    after.phase ≠ .modeSelect ∧ (isOver after.board = false → after.phase = .playing) := by
  cases change with
  | movedOn stream log turn legal result => exact ⟨nofun, fun _ => rfl⟩
  | drewRound stream log turn legal result =>
    exact ⟨nofun, fun unfinished => by simp [isOver, result] at unfinished⟩
  | wonRound winner stream log turn legal result untaken =>
    exact ⟨nofun, fun unfinished => by simp [isOver, result] at unfinished⟩
  | wonSeries winner stream log turn legal result taken =>
    exact ⟨nofun, fun unfinished => by simp [isOver, result] at unfinished⟩

def resumed (m : Match Board) (saved : SavedGame Board) : Match Board :=
  { m with
    board := saved.board
    mover := saved.mover
    lastMove := none
    phase := .playing }.info s!"saved game loaded, {saved.mover.title} to move"

omit [StrongPlay Board] in
theorem resumed_goesOn (m : Match Board) (saved : SavedGame Board) :
    m.GoesOnWith saved (m.resumed saved) :=
  ⟨rfl, rfl, rfl, rfl, rfl, rfl, rfl, rfl, rfl, rfl, rfl⟩

variable [SavableRules Board]

theorem handle_loadGame {m : Match Board} {saved : SavedGame Board} (chosen : m.phase ≠ .modeSelect)
    (unlocked : m.isLocked = false) (placed : m.savePlace?.isSome)
    (fits : SavableRules.Fits saved.board) :
    m.handle (.text saved.text) .loadGame =
      if isOver saved.board then
        (.ignored .savedGameOver, m.warn Refusal.savedGameOver.message, .text saved.text)
      else (.accepted, m.resumed saved, .text saved.text) := by
  obtain ⟨place, placed⟩ := Option.isSome_iff_exists.mp placed
  have loaded : (SaveFile.text saved.text).load place = .ok (some saved) := by
    simp only [SaveFile.load, SavedGame.read?_text fits]
  have going : m.loadGame (.text saved.text) =
      if isOver saved.board then m.ignore .savedGameOver else (.accepted, m.resumed saved) := by
    rw [loadGame, if_neg chosen]
    simp only [placed, loaded]
    rfl
  simp only [handle, unlocked, Bool.false_eq_true, ite_false, handleUnlocked, going]
  cases isOver saved.board with
  | true => rfl
  | false => rfl

theorem call_loadGame {m : Match Board} {saved : SavedGame Board} (chosen : m.phase ≠ .modeSelect)
    (unlocked : m.isLocked = false) (placed : m.savePlace?.isSome)
    (fits : SavableRules.Fits saved.board) (unfinished : isOver saved.board = false) :
    (m.call (.event (.text saved.text) .loadGame)).2 = m.resumed saved := by
  have handled := handle_loadGame chosen unlocked placed fits
  rw [unfinished, if_neg nofun] at handled
  simp only [call, handled]

theorem restores_text {m : Match Board} {saved : SavedGame Board} (chosen : m.phase ≠ .modeSelect)
    (unlocked : m.isLocked = false) (placed : m.savePlace?.isSome)
    (fits : SavableRules.Fits saved.board) : m.Restores (.text saved.text) saved := by
  have handled := handle_loadGame chosen unlocked placed fits
  cases ended : isOver saved.board with
  | true =>
    rw [ended, if_pos rfl] at handled
    exact {
      accepted_iff := by simp [handled, ended]
      goesOn := fun accepted => by simp [handled] at accepted
      file_kept := by rw [handled] }
  | false =>
    rw [ended, if_neg nofun] at handled
    exact {
      accepted_iff := by simp [handled, ended]
      goesOn := fun _ => by
        rw [handled]
        exact m.resumed_goesOn saved
      file_kept := by rw [handled] }

theorem Saves.savedIn {m : Match Board} {call : Call} {file : SaveFile} (saves : m.Saves call file)
    (fits : SavableRules.Fits (m.call call).2.board) : (m.call call).2.SavedIn file := by
  obtain ⟨maker, report, moved⟩ := saves.moved
  obtain ⟨place, _, placed, _⟩ := saves.written
  have change := m.call_change call
  rw [moved] at change
  obtain ⟨_, _, _, _, unlocked, _⟩ := change.of_moved
  obtain ⟨chosen, playing⟩ := change.phase_of_moved
  rw [saves.eq_text]
  generalize (m.call call).2 = after at *
  have same_place {other : Match Board}
      (directory : other.settings.saveDirectory = after.settings.saveDirectory) :
      other.savePlace?.isSome := by
    unfold savePlace? at placed ⊢
    rw [directory, change.settings_eq, placed]
    rfl
  have itself : after.Restores (.text after.current.text) after.current :=
    restores_text chosen unlocked (same_place rfl) fits
  exact {
    others := fun other directory chosen unlocked =>
      restores_text chosen unlocked (same_place directory) fits
    itself := itself
    stays := fun accepted => by
      have goesOn := itself.goesOn accepted
      have same := playing (itself.accepted_iff.mp accepted)
      exact ⟨goesOn.board, goesOn.mover, goesOn.phase.trans same.symm⟩ }

end Loading

section Words

/-- Each game that is loaded has fewer than 2^32 seeds. -/
def LoadsFew (m : Match SowingGame) (calls : List Call) : Prop :=
  m.account (fun m call few => few ∧ ∀ saved, m.deed call = .gameLoaded saved →
    saved.board.total < 2 ^ 32) calls True

theorem opening_few : (Rules.opening : SowingGame).total < 2 ^ 32 := by decide

theorem Change.few {m after : Match SowingGame} {deed : Deed SowingGame} (change : Change m deed after)
    (few : m.board.total < 2 ^ 32)
    (loaded : ∀ saved, deed = .gameLoaded saved → saved.board.total < 2 ^ 32) :
    after.board.total < 2 ^ 32 := by
  cases change with
  | kept | modeChosen | sourceChanged | turnLocked => exact few
  | roundOpened | roundAbandoned | setupEntered | matchLeft => exact opening_few
  | gameLoaded => exact loaded _ rfl
  | movedOn _ _ _ legal | drewRound _ _ _ legal | wonRound _ _ _ _ legal | wonSeries _ _ _ _ legal =>
    rw [(SowingGame.total_move legal).1]
    exact few

theorem run_inWords (settings : MatchSettings) (calls : List Call)
    (few : (new settings).LoadsFew calls) :
    ((new settings : Match SowingGame).run calls).board.InWords := by
  refine SowingGame.inWords_of_total (run_account (fun m kept => kept → m.board.total < 2 ^ 32) ?_ _
    calls _ (fun _ => opening_few) few)
  rintro m call kept of_kept ⟨earlier, loaded⟩
  exact (m.call_change call).few (of_kept earlier) loaded

end Words

/-- In each game, whatever the match: the file that a move is saved to holds the game as it then stands, its
numbers of seeds being words. A match of the same game that saves in the same directory, if a mode is chosen
and no move is awaited, can go on with it unless it is over, and has the saved board and player to move
then, its mode, players, program and series as before; the match that has saved it goes on as it was. -/
theorem saved_games_resume (call : Call) (file : SaveFile) :
    (∀ m : Match ThreeInARow, m.Saves call file →
      m.fileAfter? call = some file ∧ (m.call call).2.SavedIn file) ∧
    (∀ m : Match DropGame, m.Saves call file →
      m.fileAfter? call = some file ∧ (m.call call).2.SavedIn file) ∧
    ∀ m : Match SowingGame, m.Saves call file → (m.call call).2.board.InWords →
      m.fileAfter? call = some file ∧ (m.call call).2.SavedIn file :=
  ⟨fun _ saves => ⟨saves.fileAfter?, saves.savedIn trivial⟩,
    fun _ saves => ⟨saves.fileAfter?, saves.savedIn trivial⟩,
    fun _ saves words => ⟨saves.fileAfter?, saves.savedIn words⟩⟩

/-- A person is to open a game in a match that saves its games. -/
def opened {Board : Type} [StrongPlay Board] : Match Board :=
  (new { saveDirectory := some "saves" }).run
    [.event .absent (.enterSetup .classic), .event .absent .startGame]

def inSetup {Board : Type} [StrongPlay Board] : Match Board :=
  (new { saveDirectory := some "saves" }).run [.event .absent (.enterSetup .unlock)]

/-- The first player's last seed has come into the store. -/
def extraTurn : SavedGame SowingGame := ⟨⟨⟨#v[4, 4, 0, 5, 5, 5], 1⟩, ⟨#v[4, 4, 4, 4, 4, 4], 0⟩⟩, .first⟩

/-- Each game is saved after a move; the player who goes again in the third also does after loading. -/
theorem saved_games_resume_opened :
    (∃ file, (opened : Match ThreeInARow).Saves (.event .absent (.select 2)) file ∧
      ((opened : Match ThreeInARow).call (.event .absent (.select 2))).2.SavedIn file) ∧
    (∃ file, (opened : Match DropGame).Saves (.event .absent (.select 2)) file ∧
      ((opened : Match DropGame).call (.event .absent (.select 2))).2.SavedIn file) ∧
    ((opened : Match SowingGame).Saves (.event .absent (.select 2)) (.text extraTurn.text) ∧
      ((opened : Match SowingGame).call (.event .absent (.select 2))).2.board.InWords ∧
      ((inSetup : Match SowingGame).handle (.text extraTurn.text) .loadGame).1 = .accepted ∧
      ((inSetup : Match SowingGame).handle (.text extraTurn.text) .loadGame).2.1.mover = .first) := by
  have saves := saves_of_select (opened : Match ThreeInARow) 2
    (by decide +kernel) (by decide +kernel) (by decide +kernel)
  have saves_drop := saves_of_select (opened : Match DropGame) 2
    (by decide +kernel) (by decide +kernel) (by decide +kernel)
  have saves_seeds := saves_of_select (opened : Match SowingGame) 2
    (by decide +kernel) (by decide +kernel) (by decide +kernel)
  have board : ((opened : Match SowingGame).call (.event .absent (.select 2))).2.board =
      extraTurn.board := by decide +kernel
  have mover : ((opened : Match SowingGame).call (.event .absent (.select 2))).2.mover =
      extraTurn.mover := by decide +kernel
  have game : ((opened : Match SowingGame).call (.event .absent (.select 2))).2.current =
      extraTurn := by rw [current, board, mover]
  have words : ((opened : Match SowingGame).call (.event .absent (.select 2))).2.board.InWords := by
    rw [board]
    intro mark
    cases mark with
    | first => decide
    | second => decide
  have stored := ((saved_games_resume _ _).1 _ saves).2
  have stored_drop := ((saved_games_resume _ _).2.1 _ saves_drop).2
  have stored_seeds := ((saved_games_resume _ _).2.2 _ saves_seeds words).2
  have other := stored_seeds.others inSetup (by decide +kernel) nofun rfl
  rw [game] at saves_seeds other
  have loaded := other.accepted_iff.mpr (by decide +kernel)
  refine ⟨⟨_, saves, stored⟩, ⟨_, saves_drop, stored_drop⟩, saves_seeds, words, loaded, ?_⟩
  rw [(other.goesOn loaded).mover]
  rfl

end Tabletop.Match

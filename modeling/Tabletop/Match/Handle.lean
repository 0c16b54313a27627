import Tabletop.Match.Play

/-!
Events. An event is accepted or ignored; ignoring it logs a warning and does nothing else, and while a
move is awaited every event is ignored.
-/

namespace Tabletop.Match

variable {Board : Type} [StrongPlay Board]

def ignore (m : Match Board) (reason : Refusal) : Response × Match Board :=
  (.ignored reason, m.warn reason.message)

def enterSetup (m : Match Board) (mode : GameMode) : Response × Match Board :=
  if m.phase ≠ .modeSelect then m.ignore .modeAlreadyChosen
  else (.accepted, { m with mode := mode, phase := .setup }.info s!"{mode.name} mode selected")

/-- Whether a source is a local opponent that is not unlocked in a mode where it has to be. -/
def lockedTier? (m : Match Board) (source : MoveSource) : Option Difficulty :=
  match m.mode, source with
  | .unlock, .local difficulty =>
    if m.series.isUnlocked difficulty then none else some difficulty
  | _, _ => none

/-- Chooses who plays for a mark; a change resets the score. -/
def configure (m : Match Board) (mark : Mark) (source : MoveSource) : Response × Match Board :=
  if m.phase ≠ .setup then m.ignore .notSettingUp
  else match m.lockedTier? source with
    | some difficulty => m.ignore (.tierLocked difficulty)
    | none =>
      if m.sources.of mark = source then (.accepted, m)
      else
        (.accepted, { m with sources := m.sources.set mark source }.resetScore.info
          s!"{mark.title} is now {source.text}")

/-- The opening position of another round. -/
def newRound (m : Match Board) : Match Board :=
  let m := { m.clearBoard with phase := .playing }
  let players := s!"{m.sources.first.text} vs {m.sources.second.text}"
  m.info s!"round started: {players} (score {m.series.wins.first}-{m.series.wins.second})"

/-- Whether a solver is to play but there is no program to ask it with. -/
def lacksProgram (m : Match Board) : Bool :=
  m.sources.toList.contains .solver && Text.trimmed m.program == ""

def startGame (m : Match Board) : Response × Match Board :=
  if m.phase ≠ .setup then m.ignore .notStartable
  else if m.lacksProgram then m.ignore .noProgram
  else (.accepted, { m with lastFailure := none }.newRound)

/-- A person's move. -/
def select (m : Match Board) (file : SaveFile) (position : Nat) :
    Response × Match Board × SaveFile :=
  let refuse := fun reason =>
    let (response, m) := m.ignore reason
    (response, m, file)
  if m.phase ≠ .playing then refuse .noGame
  else if m.moverSource ≠ .human then refuse (.notHuman m.mover m.moverSource)
  else match m.playAt file position with
    | .ok (_, m, file) => (.accepted, m, file)
    | .error reason => refuse (.illegal m.mover position reason)

/-- Another round, or back to the setup after a series. -/
def continueSeries (m : Match Board) : Response × Match Board :=
  match m.phase with
  | .nextRoundReady => (.accepted, m.newRound)
  | .seriesOver _ => (.accepted, { m.resetScore.clearBoard with phase := .setup })
  | _ => m.ignore .nothingToContinue

def returnToSetup (m : Match Board) : Response × Match Board :=
  if m.phase = .modeSelect then m.ignore .noMode
  else (.accepted, { m.resetScore.clearBoard with phase := .setup })

/-- Forgets everything but the program. -/
def returnToModeSelect (m : Match Board) : Response × Match Board :=
  (.accepted, { m.clearBoard with
    sources := defaultSources
    series := .fresh
    mode := .classic
    phase := .modeSelect })

/-- Goes on with the saved game, if there is one that is not over. -/
def loadGame (m : Match Board) (file : SaveFile) : Response × Match Board :=
  if m.phase = .modeSelect then m.ignore .noMode
  else match m.savePlace? with
    | none => m.ignore .savingDisabled
    | some place =>
      let loaded : Except FileProblem (Option (SavedGame Board)) := file.load place
      match loaded with
      | .error problem => m.ignore (.notLoaded problem)
      | .ok none => m.ignore .noSavedGame
      | .ok (some saved) =>
        if isOver saved.board then m.ignore .savedGameOver
        else
          (.accepted, { m with
            board := saved.board
            mover := saved.mover
            lastMove := none
            phase := .playing }.info s!"saved game loaded, {saved.mover.title} to move")

def clearSaved (m : Match Board) (file : SaveFile) : Response × Match Board × SaveFile :=
  let refuse := fun reason =>
    let (response, m) := m.ignore reason
    (response, m, file)
  match m.savePlace? with
  | none => refuse .savingDisabled
  | some place => match file.clear place with
    | .error problem => refuse (.notCleared problem)
    | .ok (_, false) => refuse .noSavedGame
    | .ok (file, true) => (.accepted, m.info "saved game cleared", file)

/-- What an event does to a match that is not locked. -/
def handleUnlocked (m : Match Board) (file : SaveFile) (event : Event) :
    Response × Match Board × SaveFile :=
  let keepFile := fun ((response, m) : Response × Match Board) => (response, m, file)
  match event with
  | .enterSetup mode => keepFile (m.enterSetup mode)
  | .configure mark source => keepFile (m.configure mark source)
  | .startGame => keepFile m.startGame
  | .select position => m.select file position
  | .continue => keepFile m.continueSeries
  | .returnToSetup => keepFile m.returnToSetup
  | .returnToModeSelect => keepFile m.returnToModeSelect
  | .loadGame => keepFile (m.loadGame file)
  | .clearSaved => m.clearSaved file

/-- What an event does, given what stands in the place of the saved file. -/
def handle (m : Match Board) (file : SaveFile) (event : Event) :
    Response × Match Board × SaveFile :=
  if m.isLocked then
    let (response, m) := m.ignore (.locked event)
    (response, m, file)
  else m.handleUnlocked file event

end Tabletop.Match

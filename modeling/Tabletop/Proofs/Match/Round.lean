import Tabletop.Board.SowingGame.Search
import Tabletop.Proofs.Match.Change.Turn

/-!
The moves of a round. From the calls on a match one can tell where its round began and which moves were
accepted since; playing these moves again, by the rules alone, leads to the board of the match.
-/

namespace Tabletop

section
variable {Board : Type} [Rules Board]

/-- Plays reported moves again. Each must be the turn of its mark, be accepted, and have its effect. -/
def replay : Board → Mark → List MoveReport → Option (Board × Mark)
  | board, mover, [] => some (board, mover)
  | board, mover, report :: rest =>
    match Rules.move board report.position mover with
    | .ok (after, effect) =>
      if report.mark = mover ∧ report.effect = effect then replay after (effect.next mover) rest
      else none
    | .error _ => none

theorem replay_append (board : Board) (mover : Mark) (earlier later : List MoveReport) :
    replay board mover (earlier ++ later) =
      (replay board mover earlier).bind fun reached => replay reached.1 reached.2 later := by
  induction earlier generalizing board mover with
  | nil => rfl
  | cons report rest ih =>
    simp only [List.cons_append, replay]
    split
    · split
      · exact ih _ _
      · rfl
    · rfl

/-- One more move after those that were played again. -/
theorem replay_concat {start board after : Board} {opener mover : Mark} {earlier : List MoveReport}
    {report : MoveReport} (reached : replay start opener earlier = some (board, mover))
    (mark : report.mark = mover)
    (legal : Rules.move board report.position mover = .ok (after, report.effect)) :
    replay start opener (earlier ++ [report]) = some (after, report.effect.next mover) := by
  rw [replay_append, reached]
  simp [replay, legal, mark]

end

/-- A move of a round: in whose name it was made, the source of its mark at that time, and its report. -/
structure Played where
  maker : MoveSource
  configured : MoveSource
  report : MoveReport

/-- Where a round began, and its moves, the first one first. -/
structure Round (Board : Type) where
  start : Board
  opener : Mark
  moves : List Played

namespace Match
variable {Board : Type}

/-- A match between the start of a round and the next visit to its setup. -/
def InRound (m : Match Board) : Prop := m.phase ≠ .modeSelect ∧ m.phase ≠ .setup

/-- The source that a locked match waits for is the mover's. -/
def LockedForMover (m : Match Board) : Prop :=
  ∀ source, m.phase = .awaitingMove source → source = m.moverSource

theorem AwaitsMoveOf.inRound {m : Match Board} {maker : MoveSource} (turn : m.AwaitsMoveOf maker) :
    m.InRound := by
  rcases turn with ⟨phase, _, _⟩ | locked
  · simp [InRound, phase]
  · simp [InRound, locked]

theorem AwaitsMoveOf.maker_eq {m : Match Board} {maker : MoveSource} (turn : m.AwaitsMoveOf maker)
    (lock : m.LockedForMover) : maker = m.moverSource := by
  rcases turn with ⟨_, rfl, human⟩ | locked
  · exact human.symm
  · exact lock maker locked

theorem AwaitsMoveOf.unfinished {m : Match Board} {maker : MoveSource} (turn : m.AwaitsMoveOf maker) :
    m.phase = .playing ∨ m.isLocked = true := by
  rcases turn with ⟨phase, _, _⟩ | locked
  · exact .inl phase
  · exact .inr (by simp [isLocked, locked])

end Match

variable {Board : Type} [StrongPlay Board]

namespace Round

def opening : Round Board := ⟨Rules.opening, .first, []⟩

/-- A round after a deed, told from the match before it. -/
def follow (m : Match Board) (round : Round Board) : Match.Deed Board → Round Board
  | .roundOpened => opening
  | .gameLoaded saved => ⟨saved.board, saved.mover, []⟩
  | .moved maker report =>
    { round with moves := round.moves ++ [⟨maker, m.sources.of report.mark, report⟩] }
  | _ => round

def replay (round : Round Board) : Option (Board × Mark) :=
  Tabletop.replay round.start round.opener (round.moves.map (·.report))

/-- The moves of the round lead to the board of a match, and to its mover as long as there is one to
move; each was made in the name of its mark's source, which the match still has. -/
def LeadsTo (round : Round Board) (m : Match Board) : Prop :=
  (∃ next, round.replay = some (m.board, next) ∧
    (m.phase = .playing ∨ m.isLocked = true → m.mover = next)) ∧
  ∀ move ∈ round.moves,
    move.maker = move.configured ∧ move.configured = m.sources.of move.report.mark

end Round

namespace Match

/-- The round that a match is in after some calls, as the calls tell it. -/
def roundAfter (settings : MatchSettings) (calls : List Call) : Round Board :=
  (new settings).account (fun m call round => round.follow m (m.deed call)) calls Round.opening

theorem Change.lockedForMover {m after : Match Board} {deed : Deed Board}
    (change : Change m deed after) (lock : m.LockedForMover) : after.LockedForMover := by
  intro source locked
  cases change with
  | kept program log => exact lock source locked
  | sourceChanged log phase unlocked other => simp [phase] at locked
  | turnLocked log phase other => exact (Phase.awaitingMove.inj locked).symm
  | _ => cases locked

theorem Change.moved_leadsTo {m after : Match Board} {maker : MoveSource} {report : MoveReport}
    {round : Round Board} (change : Change m (.moved maker report) after) (lock : m.LockedForMover)
    (told : m.InRound → round.LeadsTo m) : (round.follow m (.moved maker report)).LeadsTo after := by
  obtain ⟨legal, mark, turn, sources, unlocked, mover⟩ := change.of_moved
  obtain ⟨⟨next, replayed, toMove⟩, made⟩ := told turn.inRound
  obtain rfl : m.mover = next := toMove turn.unfinished
  refine ⟨⟨report.effect.next m.mover, ?_, ?_⟩, ?_⟩
  · simp only [Round.replay, Round.follow, List.map_append, List.map_cons, List.map_nil]
    exact replay_concat replayed mark legal
  · rintro (phase | locked)
    · exact mover phase
    · simp [unlocked] at locked
  · intro move member
    rw [sources]
    rcases List.mem_append.mp member with earlier | last
    · exact made move earlier
    · obtain rfl := List.mem_singleton.mp last
      have own : m.sources.of report.mark = m.moverSource := by rw [mark]; rfl
      exact ⟨(turn.maker_eq lock).trans own.symm, rfl⟩

/-- Any other deed begins a round, leaves it, or does not touch it. -/
theorem Change.leadsTo {m after : Match Board} {deed : Deed Board} {round : Round Board}
    (change : Change m deed after) (lock : m.LockedForMover) (told : m.InRound → round.LeadsTo m)
    (inRound : after.InRound) : (round.follow m deed).LeadsTo after := by
  cases deed with
  | moved maker report => exact change.moved_leadsTo lock told
  | nothing =>
    cases change
    exact told inRound
  | roundOpened =>
    cases change
    exact ⟨⟨.first, rfl, fun _ => rfl⟩, by simp [Round.follow, Round.opening]⟩
  | gameLoaded saved =>
    cases change
    exact ⟨⟨saved.mover, rfl, fun _ => rfl⟩, by simp [Round.follow]⟩
  | turnLocked =>
    cases change with
    | turnLocked log phase source =>
      obtain ⟨⟨next, replayed, toMove⟩, made⟩ := told ⟨by simp [phase], by simp [phase]⟩
      exact ⟨⟨next, replayed, fun _ => toMove (.inl phase)⟩, made⟩
  | sourceChanged mark source =>
    cases change with
    | sourceChanged log phase unlocked other => exact absurd phase inRound.2
  | modeChosen mode =>
    cases change
    exact absurd rfl inRound.2
  | roundAbandoned failure =>
    cases change
    exact absurd rfl inRound.2
  | setupEntered =>
    cases change
    exact absurd rfl inRound.2
  | matchLeft =>
    cases change
    exact absurd rfl inRound.1

/-- What a round tells of a match. -/
def Told (m : Match Board) (round : Round Board) : Prop :=
  m.LockedForMover ∧ (m.InRound → round.LeadsTo m)

theorem new_told {settings : MatchSettings} : (new settings : Match Board).Told Round.opening :=
  ⟨nofun, fun inRound => absurd rfl inRound.1⟩

theorem call_told (m : Match Board) (call : Call) (round : Round Board) (told : m.Told round) :
    (m.call call).2.Told (round.follow m (m.deed call)) := by
  have change := m.call_change call
  exact ⟨change.lockedForMover told.1, change.leadsTo told.1 told.2⟩

/-- In the middle of a round, whatever calls were made before and whatever stood in the saved file at
each of them, playing again the moves accepted since the round was opened or a game was loaded leads
from the board of that moment to the board of the match: each is accepted and has the reported effect,
the first is the opener's, and the turn passes after each that grants no other. Each was made in the
name of the source that its mark had, a person's by selection, a local opponent's at its difficulty, a
solver's with its answer. -/
theorem round_leadsTo_board (settings : MatchSettings) (calls : List Call)
    (inRound : ((new settings : Match Board).run calls).InRound) :
    (roundAfter settings calls).LeadsTo ((new settings : Match Board).run calls) := by
  have told : ((new settings : Match Board).run calls).Told (roundAfter settings calls) :=
    run_account Told call_told _ calls _ new_told
  exact told.2 inRound

/-- Two people play; the first pit sown grants another turn, and a refused pit is no move. -/
def threePits : List Call :=
  ([.enterSetup .classic, .configure .second .human, .startGame, .select 2, .select 2, .select 1,
    .select 0] : List Event).map (.event .absent)

theorem round_leadsTo_threePits :
    ((new {} : Match SowingGame).run threePits).InRound ∧
      (roundAfter {} threePits : Round SowingGame).moves.length = 3 ∧
      (roundAfter {} threePits).LeadsTo ((new {} : Match SowingGame).run threePits) := by
  have inRound : ((new {} : Match SowingGame).run threePits).InRound :=
    ⟨by decide +kernel, by decide +kernel⟩
  exact ⟨inRound, by decide +kernel, round_leadsTo_board {} threePits inRound⟩

end Match
end Tabletop

import Tabletop.Proofs.Board.Choice
import Tabletop.Proofs.Match.Failure
import Tabletop.Proofs.Match.Phase

/-!
Locked matches. A match is locked only while its game goes on, so there is a legal position; a local
opponent plays one, and so does a match that replaces what a solver may not play. A solver's own position
is played if the board accepts it, which in the drop game may be any cell of a column with room.
-/

namespace Tabletop.Match

section
variable {Board : Type} [StrongPlay Board]

/-! ## Where a completed turn has played -/

theorem playChosen_ok {m : Match Board} {file : SaveFile} {position : Nat} {report : MoveReport}
    (told : (m.playChosen file position).1 = .ok report) : report.position = position := by
  unfold playChosen at told
  split at told
  · rename_i played
    cases told
    obtain ⟨_, _, _, _, _, rfl, _⟩ := playAt_ok played
    rfl
  · cases told

theorem completeLocal_ok {m : Match Board} {file : SaveFile} {difficulty : Difficulty}
    {report : MoveReport} (locked : m.phase = .awaitingMove (.local difficulty))
    (told : (m.completeLocal file).1 = .ok report) :
    (choose m.stream m.board m.mover difficulty).1 = some report.position := by
  cases drawn : choose m.stream m.board m.mover difficulty with
  | mk choice stream =>
    simp only [completeLocal, locked, drawn] at told
    cases choice with
    | none => cases told
    | some position => exact congrArg some (playChosen_ok told).symm

theorem playSelected_ok {m after : Match Board} {file saved : SaveFile} {selected : Int}
    {report : MoveReport} (told : m.playSelected file selected = .ok (report, after, saved)) :
    (report.position : Int) = selected := by
  obtain ⟨natural, played⟩ := playSelected_eq_ok_iff.mp told
  obtain ⟨_, _, _, _, _, rfl, _⟩ := playAt_ok played
  exact Int.toNat_of_nonneg natural

theorem substitute_ok {m : Match Board} {file : SaveFile} {failure : TurnFailure} {report : MoveReport}
    (told : (m.substitute file failure).1 = .ok report) :
    (randomChoice m.stream m.board m.mover).1 = some report.position := by
  unfold substitute at told
  split at told
  · cases told
  · rename_i position stream drawn
    rw [drawn]
    exact congrArg some (playChosen_ok told).symm

/-- A solver's turn is played where the solver says, or at random. -/
theorem completeRemote_ok {m : Match Board} {file : SaveFile} {reply : Solver.Reply}
    {report : MoveReport} (told : (m.completeRemote file (.ok reply)).1 = .ok report) :
    (report.position : Int) = reply.position ∨
      (randomChoice m.stream m.board m.mover).1 = some report.position := by
  unfold completeRemote at told
  split at told
  · simp only at told
    split at told
    · rename_i selected
      cases told
      exact .inl (playSelected_ok selected)
    · split at told
      · cases told
      · exact .inr (substitute_ok told)
  · cases told

/-! ## Locked turns give moves -/

/-- A completion that has made a move on the board as it was, at a position that fits. -/
def HasPlayed (m : Match Board) (Fits : Nat → Prop) (completed : Completed Board) : Prop :=
  ∃ report, completed.1 = .ok report ∧ Fits report.position ∧ report.mark = m.mover ∧
    Rules.move m.board report.position m.mover = .ok (completed.2.1.board, report.effect)

theorem HasPlayed.imp {m : Match Board} {Fits Allowed : Nat → Prop} {completed : Completed Board}
    (played : m.HasPlayed Fits completed) (weaker : ∀ position, Fits position → Allowed position) :
    m.HasPlayed Allowed completed := by
  obtain ⟨report, told, fits, mark, moved⟩ := played
  exact ⟨report, told, weaker _ fits, mark, moved⟩

variable [PlayableRules Board]

theorem completeLocal_hasPlayed {m : Match Board} {difficulty : Difficulty} (file : SaveFile)
    (locked : m.phase = .awaitingMove (.local difficulty))
    (playable : Rules.legal m.board m.mover ≠ []) :
    m.HasPlayed (· ∈ Rules.legal m.board m.mover) (m.completeLocal file) := by
  obtain ⟨position, member, chosen⟩ :=
    (choose_chooses m.stream m.board m.mover difficulty).exists playable
  cases told : (m.completeLocal file).1 with
  | error failure =>
    -- each way to fail goes against the legal position that was chosen
    cases completeLocal_fails told with
    | noChoice again none_ =>
      obtain rfl : difficulty = _ := MoveSource.local.inj (Phase.awaitingMove.inj (locked.symm.trans again))
      simp [chosen] at none_
    | illegalChoice again other refused =>
      obtain rfl : difficulty = _ := MoveSource.local.inj (Phase.awaitingMove.inj (locked.symm.trans again))
      obtain rfl : position = _ := Option.some.inj (chosen.symm.trans other)
      obtain ⟨played, accepted⟩ := PlayableRules.move_of_legal member
      simp [accepted] at refused
    | notLocal unawaited => exact absurd locked (unawaited difficulty)
  | ok report =>
    have same := completeLocal_ok locked told
    rw [chosen] at same
    obtain rfl : position = report.position := Option.some.inj same
    have change := m.change_of_completeLocal file
    simp only [deed, call, told, turnDeed] at change
    obtain ⟨moved, mark, _⟩ := change.of_moved
    exact ⟨report, told, member, mark, moved⟩

theorem completeRemote_hasPlayed {m : Match Board} (file : SaveFile) (reply : Solver.Reply)
    (locked : m.phase = .awaitingMove .solver) (policy : m.settings.occupied = .substituteLegal)
    (ongoing : outcome m.board = .ongoing) (playable : Rules.legal m.board m.mover ≠ []) :
    m.HasPlayed (fun position => position ∈ Rules.legal m.board m.mover ∨
        (position = reply.position ∧
          PlayableRules.standsFor Board position ∈ Rules.legal m.board m.mover))
      (m.completeRemote file (.ok reply)) := by
  obtain ⟨position, member, chosen⟩ :=
    (randomChoice_chooses m.stream m.board m.mover).exists playable
  cases told : (m.completeRemote file (.ok reply)).1 with
  | error failure =>
    cases completeRemote_fails told with
    | rejected again reject => simp [policy] at reject
    | noSubstitute again substitutes refused drawn => simp [chosen] at drawn
    | illegalSubstitute again substitutes refused drawn illegal =>
      obtain rfl : position = _ := Option.some.inj (chosen.symm.trans drawn)
      obtain ⟨played, accepted⟩ := PlayableRules.move_of_legal member
      simp [accepted] at illegal
    | notRemote unawaited => exact absurd locked unawaited
  | ok report =>
    have change := m.change_of_completeRemote file (.ok reply)
    simp only [deed, call, told, turnDeed] at change
    obtain ⟨moved, mark, _⟩ := change.of_moved
    refine ⟨report, told, ?_, mark, moved⟩
    rcases completeRemote_ok told with selected | drawn
    · exact .inr ⟨selected, PlayableRules.legal_of_move ongoing moved⟩
    · obtain rfl : position = report.position := Option.some.inj (chosen.symm.trans drawn)
      exact .inl member

/-- What the turns of a match give while it is locked. `Fits` says at which positions a reply that selects
a position may lead to a move. -/
structure PlaysLocked (m : Match Board) (Fits : Int → Nat → Prop) : Prop where
  chosen : ∀ difficulty file, m.phase = .awaitingMove (.local difficulty) →
    m.HasPlayed (· ∈ Rules.legal m.board m.mover) (m.completeLocal file)
  answered : m.phase = .awaitingMove .solver → m.settings.occupied = .substituteLegal →
    ∀ file reply, m.HasPlayed (Fits reply.position) (m.completeRemote file (.ok reply))

omit [PlayableRules Board] in
theorem Consistent.underway {m : Match Board} {source : MoveSource} (consistent : m.Consistent)
    (locked : m.phase = .awaitingMove source) : m.Underway := by
  simp only [Consistent, locked] at consistent
  exact consistent.1

theorem Consistent.playsLocked {m : Match Board} (consistent : m.Consistent) :
    m.PlaysLocked fun selected position => position ∈ Rules.legal m.board m.mover ∨
      (position = selected ∧
        PlayableRules.standsFor Board position ∈ Rules.legal m.board m.mover) where
  chosen difficulty file locked := by
    obtain ⟨_, playable, _⟩ := consistent.underway locked
    exact completeLocal_hasPlayed file locked playable
  answered locked policy file reply := by
    obtain ⟨ongoing, playable, _⟩ := consistent.underway locked
    exact completeRemote_hasPlayed file reply locked policy ongoing playable

omit [PlayableRules Board] in
theorem PlaysLocked.imp {m : Match Board} {Fits Allowed : Int → Nat → Prop}
    (plays : m.PlaysLocked Fits)
    (weaker : ∀ selected position, Fits selected position → Allowed selected position) :
    m.PlaysLocked Allowed where
  chosen := plays.chosen
  answered locked policy file reply :=
    (plays.answered locked policy file reply).imp (weaker reply.position)

end

/-- A match after calls, its local opponents drawing from any stream. -/
def reached (Board : Type) [StrongPlay Board] (settings : MatchSettings) (calls : List Call)
    (stream : RandomStream) : Match Board :=
  { (new settings : Match Board).run calls with stream := stream }

theorem reached_consistent {Board : Type} [StrongPlay Board] [FairRules Board]
    (settings : MatchSettings) (calls : List Call) (stream : RandomStream) :
    (reached Board settings calls stream).Consistent :=
  run_consistent settings calls

/-- In each game, whatever calls were made, whatever stood in the saved file at each of them and whatever
is drawn: a match that is locked for a local opponent plays a legal position of its board, and so does one
that is locked for a solver and replaces what the board refuses, whatever position the solver selects. In
the drop game a solver may also select any other cell of a legal column. -/
theorem locked_turns_play (settings : MatchSettings) (calls : List Call) (stream : RandomStream) :
    (reached ThreeInARow settings calls stream).PlaysLocked
        (fun _ position => position ∈ Rules.legal (reached ThreeInARow settings calls stream).board
          (reached ThreeInARow settings calls stream).mover) ∧
      (reached DropGame settings calls stream).PlaysLocked
        (fun selected position =>
          position ∈ Rules.legal (reached DropGame settings calls stream).board
            (reached DropGame settings calls stream).mover ∨
          (position = selected ∧
            DropGame.columnOf position ∈ Rules.legal (reached DropGame settings calls stream).board
              (reached DropGame settings calls stream).mover)) ∧
      (reached SowingGame settings calls stream).PlaysLocked
        (fun _ position => position ∈ Rules.legal (reached SowingGame settings calls stream).board
          (reached SowingGame settings calls stream).mover) := by
  refine ⟨?_, (reached_consistent settings calls stream).playsLocked, ?_⟩
  · refine (reached_consistent settings calls stream).playsLocked.imp ?_
    rintro selected position (member | ⟨_, member⟩)
    · exact member
    · exact member
  · refine (reached_consistent settings calls stream).playsLocked.imp ?_
    rintro selected position (member | ⟨_, member⟩)
    · exact member
    · exact member

/-! ## A cell for a column -/

/-- What a solver may not play is replaced. -/
def substituting : MatchSettings := { occupied := .substituteLegal }

/-- A solver is to make the first move of a round. -/
def solverOpens : List Call :=
  [.setProgram "function createQuboForSingleMove() \x7b return \x7blinear: \x7b\x7d\x7d \x7d",
    .event .absent (.enterSetup .classic), .event .absent (.configure .first .solver),
    .event .absent .startGame, .beginTurn]

/-- A solver that selects a cell of the second row. -/
def selectsTen : Solver.Reply := ⟨10, none, none⟩

/-- The cell is played, although only columns are legal. -/
theorem cell_of_column_played :
    ((new substituting : Match DropGame).run solverOpens).phase = .awaitingMove .solver ∧
      ((new substituting : Match DropGame).run solverOpens).settings.occupied = .substituteLegal ∧
      ¬ ((new substituting : Match DropGame).run solverOpens).HasPlayed
        (· ∈ Rules.legal ((new substituting : Match DropGame).run solverOpens).board
          ((new substituting : Match DropGame).run solverOpens).mover)
        (((new substituting : Match DropGame).run solverOpens).completeRemote .absent
          (.ok selectsTen)) := by
  refine ⟨by decide +kernel, by rw [run_settings]; rfl, ?_⟩
  rintro ⟨report, told, member, _⟩
  have ten : (((new substituting : Match DropGame).run solverOpens).completeRemote .absent
      (.ok selectsTen)).1.toOption.map (·.position) = some 10 := by decide +kernel
  have columns : Rules.legal ((new substituting : Match DropGame).run solverOpens).board
      ((new substituting : Match DropGame).run solverOpens).mover = [0, 1, 2, 3, 4, 5, 6] := by
    decide +kernel
  rw [told] at ten
  obtain position : report.position = 10 := by simpa [Except.toOption] using ten
  rw [columns, position] at member
  exact absurd member (by decide)

end Tabletop.Match

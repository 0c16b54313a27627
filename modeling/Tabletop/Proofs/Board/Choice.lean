import Tabletop.Board.DropGame.Score
import Tabletop.Board.Opponent
import Tabletop.Board.SowingGame.Search
import Tabletop.Board.ThreeInARow.Search
import Tabletop.Proofs.Board.Moves
import Tabletop.Proofs.Board.Ongoing
import Tabletop.Proofs.Board.Seeds

/-!
What opponents choose. Of any difficulty and with any stream, an opponent chooses a legal position
exactly if there is one, and a board accepts every legal position. What a board accepts besides are, in
the drop game alone, the other cells of a legal column.
-/

namespace Tabletop

/-! ## Random draws -/

namespace RandomStream

theorem indexBelow_lt {count : Nat} (positive : 0 < count) (attempts : Nat) (stream : RandomStream) :
    (indexBelow count attempts stream).1 < count := by
  -- The high half of a product with a 32-bit word.
  have high (word : UInt32) : word.toNat * count / 2 ^ 32 < count := by
    have small : word.toNat < 2 ^ 32 := word.toNat_lt
    rw [Nat.div_lt_iff_lt_mul (by decide), Nat.mul_comm]
    exact Nat.mul_lt_mul_of_pos_left small positive
  induction attempts generalizing stream with
  | zero => exact high _
  | succ attempts ih =>
    simp only [indexBelow]
    split
    · exact high _
    · exact ih _

theorem choose_nil {α : Type} (stream : RandomStream) : (choose ([] : List α) stream).1 = none := rfl

theorem exists_choose {α : Type} {items : List α} (some_ : items ≠ []) (stream : RandomStream) :
    ∃ item ∈ items, (choose items stream).1 = some item := by
  have positive : 0 < items.length := List.length_pos_iff.mpr some_
  have inside := indexBelow_lt positive 1000 stream
  refine ⟨_, List.getElem_mem inside, ?_⟩
  simp [choose, some_, List.getElem?_eq_getElem inside]

end RandomStream

/-! ## The best of a list -/

section
variable {value : Nat → Option Int}

theorem bestOf_eq_none_iff {best : Option (Int × Nat)} {positions : List Nat} :
    bestOf value best positions = none ↔
      best = none ∧ ∀ position ∈ positions, value position = none := by
  induction positions generalizing best with
  | nil => simp [bestOf]
  | cons position rest ih =>
    simp only [bestOf]
    cases worth : value position with
    | none => simp [ih, worth]
    | some score =>
      simp only [ih, List.forall_mem_cons, worth, reduceCtorEq, false_and, and_false, iff_false]
      intro ⟨kept, _⟩
      split at kept
      · cases kept
      · split at kept
        · cases kept
        · cases kept

theorem mem_of_bestOf {best : Option (Int × Nat)} {positions : List Nat} {found : Int × Nat}
    (chosen : bestOf value best positions = some found) :
    found.2 ∈ positions ∨ best = some found := by
  induction positions generalizing best with
  | nil => exact .inr chosen
  | cons position rest ih =>
    simp only [bestOf] at chosen
    split at chosen
    · exact (ih chosen).imp_left (List.mem_cons_of_mem _)
    · rcases ih chosen with later | here
      · exact .inl (List.mem_cons_of_mem _ later)
      · split at here
        · cases here
          exact .inl List.mem_cons_self
        · split at here
          · cases here
            exact .inl List.mem_cons_self
          · exact .inr here

/-- The best of positions that all have a value is none exactly if there are none. -/
theorem bestOf_chooses {positions : List Nat}
    (valued : ∀ position ∈ positions, (value position).isSome) (some_ : positions ≠ []) :
    ∃ position ∈ positions, (bestOf value none positions).map (·.2) = some position := by
  cases chosen : bestOf value none positions with
  | none =>
    obtain ⟨position, member⟩ := List.exists_mem_of_ne_nil positions some_
    have worthless := (bestOf_eq_none_iff.mp chosen).2 position member
    have worth := valued position member
    simp [worthless] at worth
  | some found =>
    rcases mem_of_bestOf chosen with member | impossible
    · exact ⟨found.2, member, rfl⟩
    · cases impossible

end

/-! ## Opponents -/

/-- Whether a choice is a legal position, or none because there is none. -/
def Chooses {Board : Type} [Rules Board] (board : Board) (mover : Mark) (choice : Option Nat) : Prop :=
  match choice with
  | some position => position ∈ Rules.legal board mover
  | none => Rules.legal board mover = []

theorem Chooses.exists {Board : Type} [Rules Board] {board : Board} {mover : Mark}
    {choice : Option Nat} (chooses : Chooses board mover choice)
    (playable : Rules.legal board mover ≠ []) :
    ∃ position ∈ Rules.legal board mover, choice = some position := by
  cases choice with
  | none => exact absurd chooses playable
  | some position => exact ⟨position, chooses, rfl⟩

/-- Rules whose legal positions are all accepted and whose strongest choice is one of them. Whatever else
is accepted while the game goes on is another name of a legal position. -/
class PlayableRules (Board : Type) [StrongPlay Board] where
  /-- The legal position that a position stands for, if it stands for any. -/
  standsFor : Nat → Nat
  move_of_legal : ∀ {board : Board} {mover : Mark} {position : Nat},
    position ∈ Rules.legal board mover → ∃ played, Rules.move board position mover = .ok played
  legal_of_move : ∀ {board : Board} {mover : Mark} {position : Nat} {played : Board × Effect},
    outcome board = .ongoing → Rules.move board position mover = .ok played →
      standsFor position ∈ Rules.legal board mover
  strongest_chooses : ∀ (board : Board) (mover : Mark),
    Chooses board mover (StrongPlay.strongest board mover)

section
variable {Board : Type} [StrongPlay Board]

theorem winningMove_mem {board : Board} {mover : Mark} {position : Nat}
    (found : winningMove board mover = some position) : position ∈ Rules.legal board mover :=
  List.mem_of_find?_eq_some found

theorem blockingMove_mem {board : Board} {mover : Mark} {position : Nat}
    (found : blockingMove board mover = some position) : position ∈ Rules.legal board mover :=
  List.mem_of_find?_eq_some found

theorem strategicChoice_chooses (board : Board) (mover : Mark) :
    Chooses board mover (strategicChoice board mover) := by
  unfold strategicChoice
  split
  · rename_i winning
    exact winningMove_mem winning
  · split
    · rename_i blocking
      exact blockingMove_mem blocking
    · simp only
      split
      · rename_i preferred
        have legal := List.find?_some preferred
        exact List.contains_iff_mem.mp legal
      · cases legal : Rules.legal board mover with
        | nil => exact legal
        | cons first rest =>
          change first ∈ Rules.legal board mover
          rw [legal]
          exact List.mem_cons_self

theorem randomChoice_chooses (stream : RandomStream) (board : Board) (mover : Mark) :
    Chooses board mover (randomChoice stream board mover).1 := by
  by_cases empty : Rules.legal board mover = []
  · rw [randomChoice, empty, RandomStream.choose_nil]
    exact empty
  · obtain ⟨position, member, chosen⟩ := RandomStream.exists_choose empty stream
    rw [randomChoice, chosen]
    exact member

/-- An opponent chooses a legal position if there is one. -/
theorem choose_chooses [PlayableRules Board] (stream : RandomStream) (board : Board) (mover : Mark)
    (difficulty : Difficulty) : Chooses board mover (choose stream board mover difficulty).1 := by
  cases difficulty with
  | easy => exact randomChoice_chooses stream board mover
  | medium => exact strategicChoice_chooses board mover
  | hard => exact PlayableRules.strongest_chooses board mover

theorem Chooses.of_bestOf {value : Nat → Option Int} {board : Board} {mover : Mark}
    {positions : List Nat} (same : ∀ position, position ∈ positions ↔ position ∈ Rules.legal board mover)
    (valued : ∀ position ∈ positions, (value position).isSome) :
    Chooses board mover ((bestOf value none positions).map (·.2)) := by
  by_cases empty : positions = []
  · subst empty
    refine List.eq_nil_iff_forall_not_mem.mpr fun position member => ?_
    exact List.not_mem_nil ((same position).mpr member)
  · obtain ⟨position, member, chosen⟩ := bestOf_chooses valued empty
    rw [chosen]
    exact (same position).mp member

end

/-! ## The three games -/

namespace ThreeInARow

theorem mem_legal_iff {board : ThreeInARow} {mover : Mark} {position : Nat} :
    position ∈ board.legal mover ↔ board.isWin .first = false ∧ board.isWin .second = false ∧
      position < 9 ∧ board.cells.at? position = none := by
  cases first : board.isWin .first <;> cases second : board.isWin .second <;>
    simp [legal, first, second, emptyCells]

theorem move_accepted_iff {board : ThreeInARow} {mover : Mark} {position : Nat} :
    (∃ played, board.move position mover = .ok played) ↔
      position < 9 ∧ board.cells.at? position = none := by
  constructor
  · rintro ⟨played, accepted⟩
    obtain ⟨inside, empty, -⟩ := move_eq_ok_iff.mp accepted
    exact ⟨inside, empty⟩
  · rintro ⟨inside, empty⟩
    exact ⟨_, move_eq_ok_iff.mpr ⟨inside, empty, rfl, rfl⟩⟩

instance : PlayableRules ThreeInARow where
  standsFor position := position
  move_of_legal {board mover position} member := by
    obtain ⟨_, _, inside, empty⟩ := mem_legal_iff.mp member
    exact move_accepted_iff.mpr ⟨inside, empty⟩
  legal_of_move {board mover position played} ongoing accepted := by
    obtain ⟨first, second, _⟩ := outcome_eq_ongoing_iff.mp ongoing
    obtain ⟨inside, empty⟩ := move_accepted_iff.mp ⟨played, accepted⟩
    exact mem_legal_iff.mpr ⟨first, second, inside, empty⟩
  strongest_chooses board mover := .of_bestOf (fun _ => Iff.rfl) fun _ _ => rfl

end ThreeInARow

namespace DropGame

theorem mem_legal_iff {board : DropGame} {mover : Mark} {position : Nat} :
    position ∈ board.legal mover ↔ board.isWin .first = false ∧ board.isWin .second = false ∧
      position < columns ∧ (board.landingRow position).isSome := by
  cases first : board.isWin .first <;> cases second : board.isWin .second <;>
    simp [legal, first, second]

/-- The column of a cell. -/
def columnOf (position : Nat) : Nat := position % columns

theorem columnOf_mem_legal {board : DropGame} {mover : Mark} {position : Nat}
    {played : DropGame × Effect} (accepted : board.move position mover = .ok played) :
    columnOf position ∈ board.legal mover := by
  obtain ⟨-, ⟨first, second⟩, row, lands, -⟩ := drop_eq_ok_iff.mp accepted
  exact mem_legal_iff.mpr ⟨first, second, Nat.mod_lt _ (by decide), Option.isSome_of_eq_some lands⟩

theorem bestColumn_chooses (board : DropGame) (mover : Mark) :
    Chooses board mover (board.bestColumn mover) := by
  unfold bestColumn
  split
  · rename_i forced
    cases winning : winningMove board mover with
    | some position =>
      rw [winning] at forced
      cases forced
      exact winningMove_mem winning
    | none =>
      rw [winning] at forced
      exact blockingMove_mem forced
  · refine .of_bestOf (fun _ => Iff.rfl) fun column member => ?_
    obtain ⟨_, _, _, room⟩ := mem_legal_iff.mp member
    simpa [columnScore] using room

instance : PlayableRules DropGame where
  standsFor := columnOf
  move_of_legal {board mover position} member := by
    obtain ⟨first, second, inside, room⟩ := mem_legal_iff.mp member
    obtain ⟨row, lands⟩ := Option.isSome_iff_exists.mp room
    have column : position % columns = position := Nat.mod_eq_of_lt inside
    have near : position < 42 := Nat.lt_trans inside (by decide)
    exact ⟨_, drop_eq_ok_iff.mpr ⟨near, ⟨first, second⟩, row, by rwa [column], rfl, rfl⟩⟩
  legal_of_move _ accepted := columnOf_mem_legal accepted
  strongest_chooses := bestColumn_chooses

end DropGame

namespace SowingGame

theorem mem_legal_iff {board : SowingGame} {mover : Mark} {position : Nat} :
    position ∈ board.legal mover ↔
      board.isFinished = false ∧ position < 6 ∧ 0 < (board.row mover).pit position := by
  cases finished : board.isFinished <;> simp [legal, finished]

theorem move_eq_ok {board : SowingGame} {mover : Mark} {position : Nat}
    (member : position ∈ board.legal mover) : ∃ played, board.move position mover = .ok played := by
  obtain ⟨unfinished, inside, filled⟩ := mem_legal_iff.mp member
  exact ⟨_, move_eq_ok_iff.mpr ⟨inside, unfinished, filled, rfl, rfl⟩⟩

theorem mem_legal_of_move {board : SowingGame} {mover : Mark} {position : Nat}
    {played : SowingGame × Effect} (accepted : board.move position mover = .ok played) :
    position ∈ board.legal mover := by
  obtain ⟨inside, unfinished, filled, -⟩ := move_eq_ok_iff.mp accepted
  exact mem_legal_iff.mpr ⟨unfinished, inside, filled⟩

theorem mem_preference {board : SowingGame} {mover : Mark} {position : Nat} :
    position ∈ preference.filter (board.legal mover).contains ↔ position ∈ board.legal mover := by
  simp only [List.mem_filter, List.contains_iff_mem, and_iff_right_iff_imp]
  intro member
  obtain ⟨_, inside, _⟩ := mem_legal_iff.mp member
  simp only [preference, List.mem_cons, List.not_mem_nil, or_false]
  omega

instance : PlayableRules SowingGame where
  standsFor position := position
  move_of_legal member := move_eq_ok member
  legal_of_move _ accepted := mem_legal_of_move accepted
  strongest_chooses board mover := by
    refine .of_bestOf (fun _ => mem_preference) fun pit member => ?_
    obtain ⟨played, accepted⟩ := move_eq_ok (mem_preference.mp member)
    simp [pitValue, accepted]

end SowingGame
end Tabletop

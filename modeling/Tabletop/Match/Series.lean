import Tabletop.Match.Source

/-!
The score of a series of rounds, and the difficulties unlocked by winning series.
-/

namespace Tabletop

structure Series where
  wins : Sides Nat
  /-- The difficulties unlocked, the easiest first. -/
  unlocked : List Difficulty
  deriving DecidableEq, Repr

namespace Series

/-- Nobody has won, and only the easiest opponent is unlocked. -/
def fresh : Series := ⟨⟨0, 0⟩, [.easy]⟩

/-- Counts a round won. -/
def recordWin (series : Series) (winner : Mark) : Series :=
  { series with wins := series.wins.set winner (series.wins.of winner + 1) }

/-- Whether a player has won the rounds that take the series. -/
def isTaken (series : Series) (winner : Mark) (threshold : Nat) : Bool :=
  threshold ≤ series.wins.of winner

/-- Nobody has won; what is unlocked stays. -/
def resetScore (series : Series) : Series := { series with wins := ⟨0, 0⟩ }

def isUnlocked (series : Series) (difficulty : Difficulty) : Bool :=
  series.unlocked.contains difficulty

/-- Puts a difficulty in its place. -/
def insertTier (tier : Difficulty) : List Difficulty → List Difficulty
  | [] => [tier]
  | first :: rest =>
    if tier.rank < first.rank then tier :: first :: rest
    else if tier = first then first :: rest
    else first :: insertTier tier rest

/-- The difficulty that a won series unlocks: the one above the loser's, if a person or a solver beat
a local opponent and it is not unlocked yet. -/
def newTier? (series : Series) (winner loser : MoveSource) : Option Difficulty :=
  match winner, loser with
  | .local _, _ => none
  | _, .local difficulty => match difficulty.next with
    | some tier => if series.isUnlocked tier then none else some tier
    | none => none
  | _, _ => none

/-- Unlocks what a won series unlocks. -/
def unlockAfter (series : Series) (winner loser : MoveSource) : Series :=
  match series.newTier? winner loser with
  | some tier => { series with unlocked := insertTier tier series.unlocked }
  | none => series

@[simp] theorem wins_resetScore (series : Series) : series.resetScore.wins = ⟨0, 0⟩ := rfl

@[simp] theorem wins_recordWin (series : Series) (winner : Mark) :
    (series.recordWin winner).wins.of winner = series.wins.of winner + 1 := by
  simp [recordWin]

@[simp] theorem wins_recordWin_opponent (series : Series) (winner : Mark) :
    (series.recordWin winner).wins.of winner.opponent = series.wins.of winner.opponent := by
  simp [recordWin]

theorem wins_le_recordWin (series : Series) (winner mark : Mark) :
    series.wins.of mark ≤ (series.recordWin winner).wins.of mark := by
  rcases mark.eq_or_eq_opponent winner with rfl | rfl
  · rw [wins_recordWin]
    exact Nat.le_succ _
  · exact Nat.le_of_eq (wins_recordWin_opponent series winner).symm

@[simp] theorem wins_unlockAfter (series : Series) (winner loser : MoveSource) :
    (series.unlockAfter winner loser).wins = series.wins := by
  unfold unlockAfter
  split
  · rfl
  · rfl

theorem isTaken_iff {series : Series} {winner : Mark} {threshold : Nat} :
    series.isTaken winner threshold = true ↔ threshold ≤ series.wins.of winner := by
  simp [isTaken]

def toJson (series : Series) : Json :=
  .obj [("wins", .arr [.int series.wins.first, .int series.wins.second]),
    ("unlocked", .arr (series.unlocked.map fun tier => .str tier.name))]

end Series
end Tabletop

import Tabletop.Board.ThreeInARow.Search
import Tabletop.Proofs.Match.Saved
import Tabletop.Proofs.Match.Score

/-!
The difficulties unlocked. A tier is unlocked only by the move that wins a series against the tier below
it, and locked again only by leaving the match. Where tiers have to be unlocked before they are chosen,
every opponent that is chosen is unlocked, so tiers are unlocked one above another.
-/

namespace Tabletop

namespace Series

theorem mem_insertTier {tier added : Difficulty} {tiers : List Difficulty} :
    tier ∈ insertTier added tiers ↔ tier = added ∨ tier ∈ tiers := by
  induction tiers with
  | nil => simp [insertTier]
  | cons first rest of_rest =>
    unfold insertTier
    split
    · simp
    · split
      · rename_i same
        subst same
        simp
      · simp only [List.mem_cons, of_rest]
        exact or_left_comm

theorem isUnlocked_iff {series : Series} {tier : Difficulty} :
    series.isUnlocked tier = true ↔ tier ∈ series.unlocked := by
  simp [isUnlocked]

@[simp] theorem unlocked_recordWin (series : Series) (winner : Mark) :
    (series.recordWin winner).unlocked = series.unlocked := rfl

@[simp] theorem unlocked_resetScore (series : Series) :
    series.resetScore.unlocked = series.unlocked := rfl

theorem mem_unlockAfter {series : Series} {winner loser : MoveSource} {tier : Difficulty} :
    tier ∈ (series.unlockAfter winner loser).unlocked ↔
      tier ∈ series.unlocked ∨ series.newTier? winner loser = some tier := by
  unfold unlockAfter
  split
  · rename_i added new
    rw [new, mem_insertTier, or_comm, Option.some.injEq, eq_comm (a := tier)]
  · rename_i nothing
    simp [nothing]

theorem newTier?_eq_some {series : Series} {winner loser : MoveSource} {tier : Difficulty}
    (new : series.newTier? winner loser = some tier) :
    (winner = .human ∨ winner = .solver) ∧
      ∃ beaten, loser = .local beaten ∧ beaten.next = some tier := by
  unfold newTier? at new
  split at new
  · cases new
  · rename_i beaten other
    have person : winner = .human ∨ winner = .solver := by
      cases winner with
      | human => exact .inl rfl
      | solver => exact .inr rfl
      | «local» difficulty => exact absurd rfl (other difficulty)
    split at new
    · rename_i above next
      split at new
      · cases new
      · cases new
        exact ⟨person, beaten, rfl, next⟩
    · cases new
  · cases new

end Series

theorem Difficulty.next_injective {lower other tier : Difficulty} (first : lower.next = some tier)
    (second : other.next = some tier) : lower = other := by
  cases lower <;> cases other <;> cases first <;> cases second <;> rfl

namespace Match

/-- Every opponent that is chosen is unlocked, and so is every tier below an unlocked one. -/
structure Gated {Board : Type} (m : Match Board) : Prop where
  easy : .easy ∈ m.series.unlocked
  below : ∀ {lower tier : Difficulty}, lower.next = some tier → tier ∈ m.series.unlocked →
    lower ∈ m.series.unlocked
  chosen : ∀ {mark difficulty}, m.sources.of mark = .local difficulty →
    difficulty ∈ m.series.unlocked

namespace Gated
variable {Board : Type} {m after : Match Board}

theorem carried (gated : m.Gated) (sources : after.sources = m.sources)
    (unlocked : after.series.unlocked = m.series.unlocked) : after.Gated where
  easy := by
    rw [unlocked]
    exact gated.easy
  below next above := by
    rw [unlocked] at above ⊢
    exact gated.below next above
  chosen source := by
    rw [sources] at source
    rw [unlocked]
    exact gated.chosen source

/-- A person against the easiest opponent, with nothing else unlocked. -/
theorem of_fresh (sources : m.sources = defaultSources) (fresh : m.series.unlocked = [.easy]) :
    m.Gated where
  easy := by simp [fresh]
  below {lower tier} next above := by
    rw [fresh, List.mem_singleton] at above
    subst above
    cases lower <;> cases next
  chosen {mark difficulty} source := by
    rw [sources] at source
    rw [fresh, List.mem_singleton]
    cases mark with
    | first => cases source
    | second => exact (MoveSource.local.inj source).symm

theorem configured {mark : Mark} {source : MoveSource} (gated : m.Gated) (mode : m.mode = .unlock)
    (free : m.lockedTier? source = none) (sources : after.sources = m.sources.set mark source)
    (unlocked : after.series.unlocked = m.series.unlocked) : after.Gated where
  easy := by
    rw [unlocked]
    exact gated.easy
  below next above := by
    rw [unlocked] at above ⊢
    exact gated.below next above
  chosen {other difficulty} of_other := by
    rw [sources] at of_other
    rw [unlocked]
    rcases other.eq_or_eq_opponent mark with rfl | rfl
    · rw [Sides.of_set_self] at of_other
      subst of_other
      cases open_tier : m.series.isUnlocked difficulty with
      | true => exact Series.isUnlocked_iff.mp open_tier
      | false => simp [lockedTier?, mode, open_tier] at free
    · rw [Sides.of_set_opponent] at of_other
      exact gated.chosen of_other

theorem wonSeries {winner : Mark} (gated : m.Gated) (sources : after.sources = m.sources)
    (unlocked : ∀ tier, tier ∈ after.series.unlocked ↔ tier ∈ m.series.unlocked ∨
      (m.series.recordWin winner).newTier? (m.sources.of winner) (m.sources.of winner.opponent) =
        some tier) : after.Gated where
  easy := (unlocked _).mpr (.inl gated.easy)
  below {lower tier} next above := by
    refine (unlocked _).mpr (.inl ?_)
    rcases (unlocked _).mp above with earlier | new
    · exact gated.below next earlier
    · -- the new tier is above that of the loser, whose own was unlocked when it was chosen
      obtain ⟨_, beaten, loser, above_beaten⟩ := Series.newTier?_eq_some new
      obtain rfl := Difficulty.next_injective next above_beaten
      exact gated.chosen loser
  chosen source := by
    rw [sources] at source
    exact (unlocked _).mpr (.inl (gated.chosen source))

end Gated

section
variable {Board : Type}

/-- What a match keeps to whatever is called: before a mode is chosen nothing is chosen or unlocked
either, and in the mode where tiers have to be unlocked they are. -/
structure KeepsGate (m : Match Board) : Prop where
  easy : .easy ∈ m.series.unlocked
  fresh : m.phase = .modeSelect → m.sources = defaultSources ∧ m.series.unlocked = [.easy]
  gated : m.mode = .unlock → m.Gated

theorem KeepsGate.carried {m after : Match Board} (keeps : m.KeepsGate)
    (phase : after.phase ≠ .modeSelect) (mode : after.mode = m.mode)
    (sources : after.sources = m.sources) (unlocked : after.series.unlocked = m.series.unlocked) :
    after.KeepsGate where
  easy := by
    rw [unlocked]
    exact keeps.easy
  fresh leaving := absurd leaving phase
  gated gate := (keeps.gated (mode.symm.trans gate)).carried sources unlocked

end

variable {Board : Type} [StrongPlay Board]

theorem new_keepsGate (settings : MatchSettings) : (new settings : Match Board).KeepsGate where
  easy := List.mem_singleton.mpr rfl
  fresh _ := ⟨rfl, rfl⟩
  gated := nofun

theorem Change.keepsGate {m after : Match Board} {deed : Deed Board} (change : Change m deed after)
    (keeps : m.KeepsGate) : after.KeepsGate := by
  cases change with
  | kept program log => exact ⟨keeps.easy, keeps.fresh, fun mode => (keeps.gated mode).carried rfl rfl⟩
  | modeChosen log phase =>
    obtain ⟨sources, unlocked⟩ := keeps.fresh phase
    exact ⟨keeps.easy, nofun, fun _ => .of_fresh sources unlocked⟩
  | sourceChanged log phase free other =>
    refine ⟨keeps.easy, fun leaving => ?_, fun mode => ?_⟩
    · exact absurd (phase.symm.trans leaving) nofun
    · exact (keeps.gated mode).configured mode free rfl rfl
  | wonSeries winner stream log turn legal result taken =>
    refine ⟨Series.mem_unlockAfter.mpr (.inl keeps.easy), nofun, fun mode => ?_⟩
    exact (keeps.gated mode).wonSeries rfl fun tier => Series.mem_unlockAfter
  | matchLeft log unlocked => exact ⟨List.mem_singleton.mpr rfl, fun _ => ⟨rfl, rfl⟩, nofun⟩
  -- all others leave the players and the tiers as they are
  | roundOpened failure log phase => exact keeps.carried nofun rfl rfl rfl
  | gameLoaded log chosen unlocked unfinished => exact keeps.carried nofun rfl rfl rfl
  | turnLocked log phase source => exact keeps.carried nofun rfl rfl rfl
  | movedOn stream log turn legal result => exact keeps.carried nofun rfl rfl rfl
  | drewRound stream log turn legal result => exact keeps.carried nofun rfl rfl rfl
  | wonRound winner stream log turn legal result untaken => exact keeps.carried nofun rfl rfl rfl
  | roundAbandoned stream log turn => exact keeps.carried nofun rfl rfl rfl
  | setupEntered log chosen unlocked => exact keeps.carried nofun rfl rfl rfl

theorem run_keepsGate (settings : MatchSettings) (calls : List Call) :
    ((new settings : Match Board).run calls).KeepsGate :=
  run_preserves KeepsGate (fun m call => (m.call_change call).keepsGate) _ calls
    (new_keepsGate settings)

/-! ## Tiers that a call unlocks or locks -/

def Unlocks (m : Match Board) (call : Call) (tier : Difficulty) : Prop :=
  tier ∉ m.series.unlocked ∧ tier ∈ (m.call call).2.series.unlocked

def Locks (m : Match Board) (call : Call) (tier : Difficulty) : Prop :=
  tier ∈ m.series.unlocked ∧ tier ∉ (m.call call).2.series.unlocked

/-- A call that ends a series which a person or a solver has won against the tier below. -/
def Earns (m : Match Board) (call : Call) (tier : Difficulty) : Prop :=
  m.SeriesGoesOn ∧ ∃ winner beaten, (m.call call).2.phase = .seriesOver winner ∧
    (m.sources.of winner = .human ∨ m.sources.of winner = .solver) ∧
    m.sources.of winner.opponent = .local beaten ∧ beaten.next = some tier

theorem Earns.unique {m : Match Board} {call : Call} {tier other : Difficulty}
    (first : m.Earns call tier) (second : m.Earns call other) : tier = other := by
  obtain ⟨_, winner, beaten, decided, _, loser, next⟩ := first
  obtain ⟨_, again, same, decided_again, _, loser_again, next_again⟩ := second
  obtain rfl : winner = again := Phase.seriesOver.inj (decided.symm.trans decided_again)
  obtain rfl : beaten = same := MoveSource.local.inj (loser.symm.trans loser_again)
  exact Option.some.inj (next.symm.trans next_again)

theorem earns_of_unlocks {m : Match Board} {call : Call} {tier : Difficulty} (keeps : m.KeepsGate)
    (unlocks : m.Unlocks call tier) : m.Earns call tier := by
  obtain ⟨locked, unlocked⟩ := unlocks
  have change := m.call_change call
  generalize m.deed call = deed at change
  unfold Earns
  generalize (m.call call).2 = after at change unlocked
  cases change with
  | wonSeries winner stream log turn legal result taken =>
    rcases Series.mem_unlockAfter.mp unlocked with earlier | new
    · exact absurd earlier locked
    · obtain ⟨person, beaten, loser, next⟩ := Series.newTier?_eq_some new
      exact ⟨turn.seriesGoesOn, winner, beaten, rfl, person, loser, next⟩
  | matchLeft log free =>
    obtain rfl := List.mem_singleton.mp unlocked
    exact absurd keeps.easy locked
  | _ => exact absurd unlocked locked

omit [StrongPlay Board] in
theorem turnDeed_ne_matchLeft {maker : MoveSource} {result : Except TurnFailure MoveReport} :
    (turnDeed maker result : Deed Board) ≠ .matchLeft := by
  cases result with
  | ok report => nofun
  | error failure => cases failure <;> nofun

theorem call_of_matchLeft {m : Match Board} {call : Call} (left : m.deed call = .matchLeft) :
    ∃ file, call = .event file .returnToModeSelect ∧ (m.call call).1 = .response .accepted := by
  cases call with
  | event file event =>
    cases answer : (m.handle file event).1 with
    | ignored reason => simp [deed, Match.call, answer] at left
    | accepted =>
      simp only [deed, Match.call, answer] at left
      refine ⟨file, ?_, by simp only [Match.call, answer]⟩
      cases event with
      | returnToModeSelect => rfl
      | enterSetup | startGame | returnToSetup | clearSaved => cases left
      | configure | select | «continue» | loadGame =>
        simp only [eventDeed] at left
        split at left <;> cases left
  | beginTurn =>
    cases begun : m.beginTurn.1 with
    | error failure => simp [deed, Match.call, begun] at left
    | ok job => cases job <;> simp [deed, Match.call, begun] at left
  | completeLocal file => exact absurd left turnDeed_ne_matchLeft
  | completeRemote file answer => exact absurd left turnDeed_ne_matchLeft
  | setProgram | drainLog => cases left

theorem matchLeft_of_locks {m : Match Board} {call : Call} {tier : Difficulty}
    (locks : m.Locks call tier) : m.deed call = .matchLeft := by
  obtain ⟨unlocked, locked⟩ := locks
  have change := m.call_change call
  generalize m.deed call = deed at change ⊢
  generalize (m.call call).2 = after at change locked
  cases change with
  | matchLeft log free => rfl
  | wonSeries winner stream log turn legal result taken =>
    have kept : tier ∈ (m.series.recordWin winner).unlocked := unlocked
    exact absurd (Series.mem_unlockAfter.mpr (.inl kept)) locked
  | _ => exact absurd unlocked locked

/-- Whatever calls were made before: in the mode where tiers have to be unlocked the easiest is, a tier is
only with the one below it, and every local opponent that is chosen is unlocked. In either mode a call
unlocks one tier at most, and only by ending a series that a person or a solver has won against the tier
below; and tiers are locked again only when the match is left. -/
theorem tiers_are_earned (settings : MatchSettings) (calls : List Call) (call : Call) :
    (((new settings : Match Board).run calls).mode = .unlock →
      ((new settings : Match Board).run calls).Gated) ∧
    (∀ tier, ((new settings : Match Board).run calls).Unlocks call tier →
      ((new settings : Match Board).run calls).Earns call tier ∧
      ∀ other, ((new settings : Match Board).run calls).Unlocks call other → tier = other) ∧
    ∀ tier, ((new settings : Match Board).run calls).Locks call tier →
      ∃ file, call = .event file .returnToModeSelect ∧
        (((new settings : Match Board).run calls).call call).1 = .response .accepted := by
  have keeps : ((new settings : Match Board).run calls).KeepsGate := run_keepsGate settings calls
  refine ⟨keeps.gated, ?_, ?_⟩
  · intro tier unlocks
    have earns := earns_of_unlocks keeps unlocks
    refine ⟨earns, ?_⟩
    intro other unlocks_other
    exact earns.unique (earns_of_unlocks keeps unlocks_other)
  · intro tier locks
    exact call_of_matchLeft (matchLeft_of_locks locks)

/-- A person is to take the last cell of the top row. -/
def lastCell : SavedGame ThreeInARow := ⟨.ofPicture "XX. OO. ...", .first⟩

def untilLastCell : List Call :=
  [.event .absent (.enterSetup .unlock), .event (.text lastCell.text) .loadGame]

theorem run_untilLastCell : (new oneWin).run untilLastCell =
    ((new oneWin).call (.event .absent (.enterSetup .unlock))).2.resumed lastCell := by
  rw [untilLastCell, run_cons, run_cons, run_nil]
  refine call_loadGame ?_ ?_ ?_ trivial ?_
  all_goals decide +kernel

/-- It takes the series and unlocks a tier, which leaving the match locks again. -/
theorem tiers_are_earned_lastCell :
    ((new oneWin).run untilLastCell : Match ThreeInARow).mode = .unlock ∧
      ((new oneWin).run untilLastCell : Match ThreeInARow).Gated ∧
      ((new oneWin).run untilLastCell : Match ThreeInARow).Unlocks
        (.event .absent (.select 2)) .medium ∧
      ((new oneWin).run untilLastCell : Match ThreeInARow).Earns
        (.event .absent (.select 2)) .medium ∧
      ((new oneWin).run (untilLastCell ++ [.event .absent (.select 2)]) : Match ThreeInARow).Locks
        (.event .absent .returnToModeSelect) .medium ∧
      (((new oneWin).run (untilLastCell ++ [.event .absent (.select 2)]) : Match ThreeInARow).call
        (.event .absent .returnToModeSelect)).1 = .response .accepted := by
  have mode : ((new oneWin).run untilLastCell : Match ThreeInARow).mode = .unlock := by
    rw [run_untilLastCell]
    rfl
  have unlocks : ((new oneWin).run untilLastCell : Match ThreeInARow).Unlocks
      (.event .absent (.select 2)) .medium := by
    rw [run_untilLastCell]
    exact ⟨by decide +kernel, by decide +kernel⟩
  have locks : ((new oneWin).run
      (untilLastCell ++ [.event .absent (.select 2)]) : Match ThreeInARow).Locks
        (.event .absent .returnToModeSelect) .medium := by
    rw [run_append, run_untilLastCell]
    exact ⟨by decide +kernel, by decide +kernel⟩
  obtain ⟨gated, earned, _⟩ :=
    @tiers_are_earned ThreeInARow _ oneWin untilLastCell (.event .absent (.select 2))
  obtain ⟨_, _, left⟩ := @tiers_are_earned ThreeInARow _ oneWin
    (untilLastCell ++ [.event .absent (.select 2)]) (.event .absent .returnToModeSelect)
  obtain ⟨_, _, accepted⟩ := left .medium locks
  exact ⟨mode, gated mode, unlocks, (earned .medium unlocks).1, locks, accepted⟩

end Match
end Tabletop

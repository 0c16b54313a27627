import Tabletop.Proofs.Match.Failure
import Tabletop.Proofs.Match.Saved

/-!
Refusals. An event that is ignored leaves the match and the saved file as they are, with one more warning
in the log. While a move is awaited that is what every event does, and only the completion of this very
move does more.
-/

namespace Tabletop.Match

section
variable {Board : Type} [StrongPlay Board] {m : Match Board} {file : SaveFile} {reason : Refusal}

theorem select_file_of_ignored {position : Nat}
    (ignored : (m.select file position).1 = .ignored reason) : (m.select file position).2.2 = file := by
  unfold select at ignored ⊢
  dsimp only at ignored ⊢
  split
  · rfl
  · rename_i playing
    rw [if_neg playing] at ignored
    split
    · rfl
    · rename_i human
      rw [if_neg human] at ignored
      split
      · rename_i played
        rw [played] at ignored
        cases ignored
      · rfl

theorem clearSaved_file_of_ignored (ignored : (m.clearSaved file).1 = .ignored reason) :
    (m.clearSaved file).2.2 = file := by
  unfold clearSaved at ignored ⊢
  dsimp only at ignored ⊢
  split
  · rfl
  · rename_i place placed
    split
    · rfl
    · rfl
    · rename_i cleared
      rw [placed] at ignored
      dsimp only at ignored
      rw [cleared] at ignored
      cases ignored

theorem file_of_ignored {event : Event} (ignored : (m.handle file event).1 = .ignored reason) :
    (m.handle file event).2.2 = file := by
  cases locked : m.isLocked with
  | true => simp only [handle, locked, ite_true]
  | false =>
    simp only [handle, locked, Bool.false_eq_true, ite_false] at ignored ⊢
    -- of all events only these two are given the file to change
    cases event with
    | select position => exact select_file_of_ignored ignored
    | clearSaved => exact clearSaved_file_of_ignored ignored
    | _ => rfl

theorem warn_of_ignored {event : Event} (ignored : (m.handle file event).1 = .ignored reason) :
    (m.handle file event).2.1 = m.warn reason.message := by
  cases locked : m.isLocked with
  | true =>
    simp only [handle, locked, ite_true, ignore] at ignored ⊢
    cases ignored
    rfl
  | false =>
    rcases handle_answers file event locked with ⟨given, answer⟩ | ⟨after, answer, _⟩
    · obtain ⟨response, same⟩ := Prod.mk.inj answer
      obtain rfl : given = reason := Response.ignored.inj (response.symm.trans ignored)
      exact same
    · obtain ⟨response, _⟩ := Prod.mk.inj answer
      cases response.symm.trans ignored

omit [StrongPlay Board] in
theorem isLocked_of_phase {source : MoveSource} (awaiting : m.phase = .awaitingMove source) :
    m.isLocked = true := by
  simp only [isLocked, awaiting]

theorem beginTurn_of_not_playing (resting : m.phase ≠ .playing) : m.beginTurn = (.ok none, m) :=
  if_pos resting

/-- Whatever a match has come to and whatever stands in the place of its saved file: an event that is
ignored only logs a warning with its reason. While a move is awaited every event is ignored and no turn
begins, and completing a turn of another kind than the one that is awaited does nothing at all. -/
theorem refusals_change_nothing (m : Match Board) (file : SaveFile) :
    (∀ event reason, (m.handle file event).1 = .ignored reason →
      (m.handle file event).2 = ({ m with log := m.log ++ [⟨.warning, reason.message⟩] }, file)) ∧
    (∀ source, m.phase = .awaitingMove source →
      (∀ event, (m.handle file event).1 = .ignored (.locked event)) ∧ m.beginTurn = (.ok none, m)) ∧
    ((∀ difficulty, m.phase ≠ .awaitingMove (.local difficulty)) →
      m.completeLocal file = (.error .notAwaiting, m, file)) ∧
    (m.phase ≠ .awaitingMove .solver →
      ∀ answer, m.completeRemote file answer = (.error .notAwaiting, m, file)) := by
  refine ⟨fun event reason ignored => ?_, fun source awaiting => ⟨fun event => ?_, ?_⟩, ?_, ?_⟩
  · exact Prod.ext (warn_of_ignored ignored) (file_of_ignored ignored)
  · simp only [handle, isLocked_of_phase awaiting, ite_true, ignore]
  · exact beginTurn_of_not_playing (by simp [awaiting])
  · exact fun unawaited => completeLocal_of_unawaited unawaited file
  · exact fun unawaited => completeRemote_of_unawaited unawaited file

end

/-- A person has opened, and the local opponent is awaited. -/
def answering : Match ThreeInARow := opened.run [.event .absent (.select 2), .beginTurn]

/-- A cell outside of the board is refused, and everything is while the opponent is awaited. -/
theorem refusals_change_nothing_answering :
    ((opened : Match ThreeInARow).handle .unusable (.select 9)).1 =
      .ignored (.illegal .first 9 (.outOfRange 9)) ∧
    ((opened : Match ThreeInARow).handle .unusable (.select 9)).2.2 = .unusable ∧
    answering.phase = .awaitingMove (.local .easy) ∧
    (answering.handle .absent .returnToModeSelect).1 = .ignored (.locked .returnToModeSelect) ∧
    answering.beginTurn = (.ok none, answering) ∧
    answering.completeRemote .absent (.error .transport) = (.error .notAwaiting, answering, .absent) ∧
    (opened : Match ThreeInARow).completeLocal .absent = (.error .notAwaiting, opened, .absent) := by
  have outside : ((opened : Match ThreeInARow).handle .unusable (.select 9)).1 =
      .ignored (.illegal .first 9 (.outOfRange 9)) := by decide +kernel
  have awaiting : answering.phase = .awaitingMove (.local .easy) := by decide +kernel
  have playing : (opened : Match ThreeInARow).phase = .playing := by decide +kernel
  obtain ⟨kept, _⟩ := refusals_change_nothing (opened : Match ThreeInARow) .unusable
  obtain ⟨_, _, unplayed, _⟩ := refusals_change_nothing (opened : Match ThreeInARow) .absent
  obtain ⟨_, locked, _, unanswered⟩ := refusals_change_nothing answering .absent
  obtain ⟨everything, idle⟩ := locked _ awaiting
  exact ⟨outside, by rw [kept _ _ outside], awaiting, everything _, idle,
    unanswered (by simp [awaiting]) _, unplayed (by simp [playing])⟩

end Tabletop.Match

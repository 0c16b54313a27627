import Tabletop.Proofs.Payload.Value
import Tabletop.Match.Turn

/-!
The payloads that turns hand to solvers. They are in normal form whatever program made them, so a
reply's sample can always be checked against them.
-/

namespace Tabletop

namespace Match

variable {Board : Type} [StrongPlay Board]

theorem normalize_of_buildPayload {m after : Match Board} {payload : Payload}
    (built : m.buildPayload = (.ok payload, after)) : payload.normalize = .ok payload := by
  unfold buildPayload at built
  split at built
  · cases built
  · dsimp only at built
    split at built
    · rename_i accepted
      cases built
      exact Payload.normalize_of_normalize accepted
    · cases built

theorem normalize_of_beginTurn {m after : Match Board} {payload : Payload}
    (begun : m.beginTurn = (.ok (some (.remote payload)), after)) :
    payload.normalize = .ok payload := by
  unfold beginTurn at begun
  split at begun
  · cases begun
  · dsimp only at begun
    split at begun
    · cases begun
    · cases begun
    · split at begun
      · rename_i built
        cases begun
        exact normalize_of_buildPayload built
      · cases begun

/-- What a turn sends to a solver is its own normal form, and a payload that has a normal form, like
that form, has values for its objective, its answer and its constraints under every sample, so that a
reply to it is at most told to disagree. -/
theorem sent_payloads_have_values :
    (∀ (m after : Match Board) (payload : Payload),
      m.beginTurn = (.ok (some (.remote payload)), after) → payload.normalize = .ok payload) ∧
      ∀ payload normal : Payload, payload.normalize = .ok normal →
        ∀ accepted ∈ [payload, normal], accepted.HasValues ∧ ∀ reply : Solver.Reply,
          reply.warning? accepted = none ∨ reply.warning? accepted = some .disagreement := by
  refine ⟨fun m after payload begun => normalize_of_beginTurn begun, ?_⟩
  intro payload normal normalized accepted is_accepted
  have good : Payload.Acceptable payload := ((Payload.normalize_ok_iff _ _).mp normalized).1
  have good_normal : Payload.Acceptable normal :=
    ((Payload.normalize_ok_iff _ _).mp (Payload.normalize_of_normalize normalized)).1
  have has_values : accepted.HasValues := by
    simp only [List.mem_cons, List.not_mem_nil, or_false] at is_accepted
    rcases is_accepted with rfl | rfl
    · exact good.hasValues
    · exact good_normal.hasValues
  exact ⟨has_values, has_values.warning⟩

end Match
end Tabletop

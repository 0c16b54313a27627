import Tabletop.Proofs.Script.Render

/-!
Limits on sizes in two runs side by side, the second with no less room than the first. A check that the
first run passes the second passes too. Where the second has more room, a check that fails in the first
excuses it; where both have the same room, they fail together.
-/

namespace Tabletop.Script

/-- How much a string or an array may hold. -/
def Limits.room (limits : Limits) : Measure → Nat
  | .stringLength => limits.maxStringLength
  | .arrayLength => limits.maxArrayLength

namespace Link

variable {link : Link} {limits limits' : Limits}

/-- Runs whose pairing does not look at their consoles may both write a line, whatever becomes of it. -/
theorem carries_log_of_unseen
    (unseen : ∀ {memory memory'} lines size lines' size', link.Paired memory memory' →
      link.Paired (memory.withTrace lines size) (memory'.withTrace lines' size'))
    (line : String) : link.Carries (limits.log line) (limits'.log line) := by
  intro memory memory' paired
  obtain ⟨lines, size, logged⟩ := log_apply limits line memory
  obtain ⟨lines', size', logged'⟩ := log_apply limits' line memory'
  rw [logged, logged']
  exact ⟨_, rfl, unseen lines size lines' size' paired⟩

/-- What a link needs in order that checks of sizes go together. -/
structure Rooms (link : Link) (limits limits' : Limits) : Prop where
  alike : ∀ {memory memory'}, link.Paired memory memory' →
    ∃ lines size, memory' = memory.withTrace lines size
  more : ∀ measure, limits.room measure ≤ limits'.room measure
  excused : ∀ measure, limits.room measure < limits'.room measure →
    link.Excused (.sizeLimit measure (limits.room measure))
  failed : ∀ {memory memory'} measure, link.Paired memory memory' →
    link.Failed (.sizeLimit measure (limits.room measure)) memory memory'

namespace Rooms

variable (rooms : link.Rooms limits limits')

include rooms

theorem check (measure : Measure) (size : Nat) : link.Carries
    (if limits.room measure < size then throw (.sizeLimit measure (limits.room measure))
      else pure () : Run Unit)
    (if limits'.room measure < size then throw (.sizeLimit measure (limits'.room measure))
      else pure ()) := by
  split
  · rcases Nat.lt_or_eq_of_le (rooms.more measure) with narrower | same
    · exact .excused (rooms.excused measure narrower) _
    · rename_i long
      rw [← same, if_pos long]
      exact fun _ memory' paired => .inr ⟨memory', rfl, rooms.failed measure paired⟩
  · rename_i fits
    have more := rooms.more measure
    rw [if_neg (by omega)]
    exact .pure ()

theorem checkString (size : Nat) :
    link.Carries (limits.checkString size) (limits'.checkString size) :=
  rooms.check .stringLength size

theorem checkArray (length : Nat) :
    link.Carries (limits.checkArray length) (limits'.checkArray length) :=
  rooms.check .arrayLength length

/-- A text that fits is the whole, so it is the same where there is more room. -/
theorem text (value : Value) : link.Carries (limits.text value) (limits'.text value) := by
  intro memory memory' paired
  obtain ⟨lines, size, rfl⟩ := rooms.alike paired
  have more : limits.maxStringLength ≤ limits'.maxStringLength := rooms.more .stringLength
  rw [text_apply, text_apply, Memory.render_withTrace]
  split
  · rename_i long
    rcases Nat.lt_or_eq_of_le more with narrower | same
    · exact .inl (rooms.excused .stringLength narrower)
    · rw [← same, if_pos long]
      exact .inr ⟨_, rfl, rooms.failed .stringLength paired⟩
  · rename_i fits
    rw [memory.render_wider more value (Nat.le_of_not_lt fits), if_neg (by omega)]
    exact ⟨_, rfl, paired⟩

end Rooms

end Link

end Tabletop.Script

import Tabletop.Proofs.Script.Invariant.Evaluation
import Tabletop.Proofs.Script.Lengths.Library
import Tabletop.Proofs.Script.Room
import Tabletop.Proofs.Scoring.Limits

/-!
No array outgrows the limit on arrays, in whole runs of scoring programs and in all their parts, but for
the arrays that are made without a look at the limit: literals, what is read from JSON text, and what
lists an object.
-/

namespace Tabletop.Scoring

open Script

/-- A run leaves no array longer than it may be. Where it would, were longer arrays allowed, it fails for
that reason. -/
structure LimitsArrays {α : Type} (limits : Limits) (allowed : Part → Prop) (limit : Nat)
    (run : Limits → Run α) (memory : Memory) : Prop where
  fits : (arraysFit allowed limit).EndsIn memory (fun _ => True) (run limits memory)
  refuses : ∀ longer, limits.maxArrayLength ≤ longer →
    ¬ (arraysFit allowed limit).EndsIn memory (fun _ => True)
      (run { limits with maxArrayLength := longer } memory) →
    ∃ after, run limits memory = .error (.sizeLimit .arrayLength limits.maxArrayLength) after

variable {limits : Limits} {allowed : Part → Prop} {limit : Nat}

theorem arraysFit_withTrace {memory after : Memory} (lines : List String) (size : Option Nat)
    (ended : after.ArraysFit allowed limit ∧ (arraysFit allowed limit).later memory after) :
    (after.withTrace lines size).ArraysFit allowed limit ∧
      (arraysFit allowed limit).later memory (after.withTrace lines size) :=
  ⟨⟨ended.1.arrays, ended.1.closures⟩, ended.2⟩

/-- Runs that keep arrays within the limit, and go along with ones that have more room, refuse to make
longer arrays. -/
theorem limitsArrays_of_carries {α : Type} {run : Limits → Run α}
    (keeps : (arraysFit allowed limit).KeepsMemory (run limits))
    (carried : ∀ limits', limits.Roomier limits' →
      (Link.roomier limits limits').Carries (run limits) (run limits'))
    {memory : Memory} (fits : memory.ArraysFit allowed limit) :
    LimitsArrays limits allowed limit run memory := by
  refine ⟨keeps memory fits, fun longer wider outgrown => ?_⟩
  have only : ∀ other, limits.room other <
      Limits.room { limits with maxArrayLength := longer } other → other = .arrayLength := by
    intro other narrower
    cases other with
    | stringLength => exact absurd narrower (Nat.lt_irrefl _)
    | arrayLength => rfl
  exact outgrown_of_carries (fun lines size ended => ⟨trivial, arraysFit_withTrace lines size ended.2⟩)
    (fun lines size ended => arraysFit_withTrace lines size ended) only
    (carried _ (Limits.roomier_larger wider)) (keeps memory fits) outgrown

/-- The parts of runs, where so many calls may still stand inside one another, limit arrays. -/
structure PartsLimitArrays (limits : Limits) (allowed : Part → Prop) (limit depth : Nat)
    (memory : Memory) : Prop where
  expr : ∀ scope expr, (∀ part ∈ Expr.parts expr, allowed part) →
    LimitsArrays limits allowed limit (fun limits => eval (.allowing limits depth) scope expr) memory
  stmt : ∀ scope stmt, (∀ part ∈ Stmt.parts stmt, allowed part) →
    LimitsArrays limits allowed limit (fun limits => exec (.allowing limits depth) scope stmt) memory
  call : ∀ callee arguments, LimitsArrays limits allowed limit
    (fun limits => (Machine.allowing limits depth).call callee arguments) memory
  member : ∀ receiver name arguments, allowed (.method name) → LimitsArrays limits allowed limit
    (fun limits => (Machine.allowing limits depth).callMember receiver name arguments) memory

theorem parts_limit_arrays (covers : Covers limits allowed limit) (depth : Nat) {memory : Memory}
    (fits : memory.ArraysFit allowed limit) : PartsLimitArrays limits allowed limit depth memory := by
  have drives := (Lengths.arraysFit_lawful covers).drives depth
  refine ⟨fun scope expr admits => ?_, fun scope stmt admits => ?_, fun callee arguments => ?_,
    fun receiver name arguments named => ?_⟩
  · exact limitsArrays_of_carries (drives.eval scope expr admits)
      (fun _ roomier => (roomier_machines roomier depth).eval scope expr) fits
  · exact limitsArrays_of_carries ((drives.exec scope stmt admits).mono fun _ _ => trivial)
      (fun _ roomier => (roomier_machines roomier depth).exec scope stmt) fits
  · exact limitsArrays_of_carries (drives.call callee arguments fun _ _ => trivial)
      (fun _ roomier => (roomier_machines roomier depth).call callee arguments) fits
  · exact limitsArrays_of_carries (drives.callMember trivial named fun _ _ => trivial)
      (fun _ roomier => (roomier_machines roomier depth).callMember receiver name arguments) fits

/-- Whether a run leaves an array with more items than a limit. -/
def holdsLonger {α : Type} (limit : Nat) : EStateM.Result Fault Memory α → Bool
  | .ok _ after | .error _ after => after.arrays.any fun items => limit < items.size

theorem not_endsIn_of_longer {α : Type} {good : α → Prop} {start : Memory}
    {ended : EStateM.Result Fault Memory α} (longer : holdsLonger limit ended = true) :
    ¬ (arraysFit (Part.Checked limit) limit).EndsIn start good ended := by
  have absurd_of_fits : ∀ {after : Memory}, after.ArraysFit (Part.Checked limit) limit →
      (after.arrays.any fun items => limit < items.size) ≠ true := by
    intro after fits found
    obtain ⟨items, is_one, long⟩ := Array.any_eq_true'.mp found
    have short := Memory.mayHold_checked.mp (fits.arrays items is_one)
    exact absurd short (Nat.not_le_of_lt (of_decide_eq_true long))
  intro ends
  cases ended with
  | ok value after => exact absurd_of_fits ends.2.1 longer
  | error fault after => exact absurd_of_fits ends.1 longer

theorem fresh_arraysFit (allowed : Part → Prop) (limit : Nat) :
    Memory.fresh.ArraysFit allowed limit where
  arrays := by simp [Memory.fresh]
  closures := by simp [Memory.fresh]

theorem entry_limits_arrays (settings : Settings) (covers : Covers settings.toLimits allowed limit)
    {program : Program} (parts : ∀ part ∈ program.parts, allowed part) {board : Json}
    (board_fits : board.ArraysFit limit) :
    LimitsArrays settings.toLimits allowed limit
      (fun limits => callEntry { settings with toLimits := limits } program board) Memory.fresh := by
  have drives := (Lengths.arraysFit_lawful covers).drives settings.maxCallDepth
  refine limitsArrays_of_carries ?_ (fun limits' roomier => ?_) (fresh_arraysFit _ _)
  · rw [callEntry_eq_session]
    exact drives.session parts settings.entry (Lengths.copies_arraysFit allowed limit)
      (List.forall_mem_singleton.mpr board_fits) (fun _ _ => trivial)
  · exact callEntry_carries (roomier_outermost roomier) program board

/-- Where nothing is made without a check, no array that a run holds is longer than the limit on arrays,
wherever the run stops for want of steps. -/
theorem not_holdsLonger_of_checked (settings : Settings) {program : Program}
    (checked : ∀ part ∈ program.parts, part.Checked settings.maxArrayLength) {board : Json}
    (board_fits : board.ArraysFit settings.maxArrayLength) (budget : Nat) :
    holdsLonger settings.maxArrayLength
      (callEntry { settings with stepBudget := budget } program board Memory.fresh) = false := by
  have within := entry_limits_arrays { settings with stepBudget := budget }
    (covers_checked { settings.toLimits with stepBudget := budget }) checked board_fits
  exact Bool.eq_false_iff.mpr fun longer => not_endsIn_of_longer longer within.fits

/-- A limit is no less than the one on arrays, and the arrays of a board and those that a program makes
without a check are within it. Then no array that a run holds has more items, wherever the run stops for
want of steps, unless the program may list what objects have: a list is as long as an object has
properties. The same goes for each part of a run, from whatever memory of such arrays and however deep in
calls. What would make a longer array fails. -/
theorem arrays_stay_within (settings : Settings) (covers : Covers settings.toLimits allowed limit)
    {program : Program} (parts : ∀ part ∈ program.parts, allowed part) {board : Json}
    (board_fits : board.ArraysFit limit) :
    (∀ budget, LimitsArrays { settings.toLimits with stepBudget := budget } allowed limit
      (fun limits => callEntry { settings with toLimits := limits } program board) Memory.fresh) ∧
    ∀ depth memory, memory.ArraysFit allowed limit →
      PartsLimitArrays settings.toLimits allowed limit depth memory := by
  refine ⟨fun budget => ?_, fun depth memory fits => parts_limit_arrays covers depth fits⟩
  have within_budget : Covers { settings.toLimits with stepBudget := budget } allowed limit :=
    ⟨covers.checked, covers.literals, covers.read, covers.pairs, covers.whole⟩
  exact entry_limits_arrays
    { settings with toLimits := { settings.toLimits with stepBudget := budget } } within_budget parts
    board_fits

/-- A board of two cells fits where arrays of two are allowed. A third is not put there. -/
theorem third_cell_is_refused :
    let settings : Settings := { maxArrayLength := 2 }
    let source := "function createQuboForSingleMove(board) \x7b board.cells.push(0); return board; \x7d"
    let board : Json := .obj [("cells", .arr [.null, .null])]
    Covers settings.toLimits (Part.Checked 2) 2 ∧ board.ArraysFit 2 ∧
    ∃ program after, Program.read source = .ok program ∧ (∀ part ∈ program.parts, part.Checked 2) ∧
      callEntry settings program board Memory.fresh = .error (.sizeLimit .arrayLength 2) after := by
  intro settings source board
  have covers : Covers settings.toLimits (Part.Checked 2) 2 := covers_checked settings.toLimits
  have board_fits : board.ArraysFit 2 :=
    .obj (List.forall_mem_singleton.mpr (.arr (by decide) (by simp [Json.ArraysFit.null])))
  have checked : (Program.read source).toOption.any
      (fun program => decide (∀ part ∈ program.parts, part.Checked 2)) = true := by
    decide +kernel
  have long : (Program.read source).toOption.any (fun program => holdsLonger 2
      (callEntry { settings with maxArrayLength := 3 } program board Memory.fresh)) = true := by
    decide +kernel
  refine ⟨covers, board_fits, ?_⟩
  cases read : Program.read source with
  | error e =>
    rw [read] at long
    cases long
  | ok program =>
    rw [read] at long checked
    have parts := of_decide_eq_true checked
    have whole := (arrays_stay_within settings covers parts board_fits).1
    obtain ⟨after, refused⟩ := (whole settings.stepBudget).refuses 3 (by decide)
      (not_endsIn_of_longer long)
    exact ⟨program, after, rfl, parts, refused⟩

/-- Text that is read makes an array of three items where two are allowed. -/
theorem parsed_array_outgrows :
    let settings : Settings := { maxArrayLength := 2, entry := "main" }
    let source := "function main() \x7b return JSON.parse(\"[1,2,3]\") \x7d"
    ∃ program, Program.read source = .ok program ∧
      (∀ length, Part.array length ∈ program.parts → length ≤ 2) ∧ Json.null.ArraysFit 2 ∧
      ∃ value after items, callEntry settings program .null Memory.fresh = .ok value after ∧
        items ∈ after.arrays ∧ items.size = 3 := by
  intro settings source
  have runs : (Program.read source).toOption.any (fun program =>
      decide (program.parts = [.method "parse", .text "[1,2,3]"]) &&
        match callEntry settings program .null Memory.fresh with
        | .ok _ after => after.arrays.any (·.size == 3)
        | .error _ _ => false) = true := by
    decide +kernel
  cases read : Program.read source with
  | error e =>
    rw [read] at runs
    cases runs
  | ok program =>
    rw [read] at runs
    obtain ⟨parts, ended⟩ := Bool.and_eq_true_iff.mp runs
    refine ⟨program, rfl, fun length is_part => ?_, .null, ?_⟩
    · rw [of_decide_eq_true parts] at is_part
      simp at is_part
    · cases of_run : callEntry settings program .null Memory.fresh with
      | ok value after =>
        rw [of_run] at ended
        obtain ⟨items, is_one, three⟩ := Array.any_eq_true'.mp ended
        exact ⟨value, after, items, rfl, is_one, beq_iff_eq.mp three⟩
      | error fault after =>
        rw [of_run] at ended
        cases ended

end Tabletop.Scoring

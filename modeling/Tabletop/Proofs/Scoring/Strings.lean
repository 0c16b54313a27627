import Tabletop.Proofs.Script.Fits.Library
import Tabletop.Proofs.Script.Invariant.Evaluation
import Tabletop.Proofs.Script.Room
import Tabletop.Proofs.Scoring.Limits

/-!
No string outgrows the limit on strings, in whole runs of scoring programs and in all their parts.
-/

namespace Tabletop.Scoring

open Script

/-- A run leaves no string longer than its limits allow. Where it would, were longer strings allowed, it
fails for that reason. -/
structure LimitsStrings {α : Type} (limits : Limits) (good : α → Prop) (run : Limits → Run α)
    (memory : Memory) : Prop where
  fits : EndsFitting limits.maxStringLength good (run limits memory)
  refuses : ∀ longer, limits.maxStringLength ≤ longer →
    ¬ EndsFitting limits.maxStringLength good (run { limits with maxStringLength := longer } memory) →
    ∃ after, run limits memory = .error (.sizeLimit .stringLength limits.maxStringLength) after

variable {limits : Limits}

theorem fits_withTrace {limit : Nat} {memory : Memory} {lines : List String} {size : Option Nat}
    (fits : memory.Fits limit) : (memory.withTrace lines size).Fits limit :=
  ⟨fits.arrays, fits.objects, fits.frames, fits.closures⟩

/-- Runs that keep memory within the limit, and go along with ones that have more room, refuse to make
longer strings. -/
theorem limitsStrings_of_carries {α : Type} {good : α → Prop} {run : Limits → Run α}
    (keeps : Keeps limits.maxStringLength good (run limits))
    (carried : ∀ limits', limits.Roomier limits' →
      (Link.roomier limits limits').Carries (run limits) (run limits'))
    {memory : Memory} (memory_fits : memory.Fits limits.maxStringLength) :
    LimitsStrings limits good run memory := by
  have ended := EndsFitting.of_endsIn (keeps memory memory_fits)
  refine ⟨ended, fun longer wider outgrown => ?_⟩
  have only : ∀ other, limits.room other <
      Limits.room { limits with maxStringLength := longer } other → other = .stringLength := by
    intro other narrower
    cases other with
    | stringLength => rfl
    | arrayLength => exact absurd narrower (Nat.lt_irrefl _)
  exact outgrown_of_carries (fun _ _ ended => ⟨ended.1, fits_withTrace ended.2⟩)
    (fun _ _ ended => fits_withTrace ended) only (carried _ (Limits.roomier_longer wider))
    ended outgrown

theorem not_endsFitting {limit : Nat} {run : Run Value} {memory : Memory}
    (long : (run.run' memory).any (fun value => !decide (value.Fits limit)) = true) :
    ¬ EndsFitting limit (Value.Fits limit) (run memory) := by
  intro ended
  unfold EStateM.run' EStateM.run at long
  cases of_run : run memory with
  | error fault after =>
    rw [of_run] at long
    cases long
  | ok value after =>
    rw [of_run] at long ended
    simp [ended.1] at long

/-- The parts of runs, where so many calls may still stand inside one another, limit strings. -/
structure PartsLimitStrings (limits : Limits) (depth : Nat) (memory : Memory) : Prop where
  expr : ∀ scope expr, expr.Fits limits.maxStringLength →
    LimitsStrings limits (Value.Fits limits.maxStringLength)
      (fun limits => eval (.allowing limits depth) scope expr) memory
  stmt : ∀ scope stmt, stmt.Fits limits.maxStringLength →
    LimitsStrings limits (Flow.Fits limits.maxStringLength)
      (fun limits => exec (.allowing limits depth) scope stmt) memory
  call : ∀ callee arguments, (∀ argument ∈ arguments, Value.Fits limits.maxStringLength argument) →
    LimitsStrings limits (Value.Fits limits.maxStringLength)
      (fun limits => (Machine.allowing limits depth).call callee arguments) memory
  member : ∀ receiver name arguments, Value.Fits limits.maxStringLength receiver →
    (∀ argument ∈ arguments, Value.Fits limits.maxStringLength argument) →
    LimitsStrings limits (Value.Fits limits.maxStringLength)
      (fun limits => (Machine.allowing limits depth).callMember receiver name arguments) memory

theorem parts_limit_strings (enough : Number.textBound ≤ limits.maxStringLength) (depth : Nat)
    {memory : Memory} (fits : memory.Fits limits.maxStringLength) :
    PartsLimitStrings limits depth memory := by
  have drives := (stringsFit_lawful enough).drives depth
  refine ⟨fun scope expr expr_fits => ?_, fun scope stmt stmt_fits => ?_,
    fun callee arguments arguments_fit => ?_,
    fun receiver name arguments receiver_fits arguments_fit => ?_⟩
  · exact limitsStrings_of_carries (drives.eval scope expr (expr.fits_iff.mp expr_fits))
      (fun _ roomier => (roomier_machines roomier depth).eval scope expr) fits
  · have executed := (drives.exec scope stmt (stmt.fits_iff.mp stmt_fits)).mono fun flow flow_fits =>
      show flow.Fits limits.maxStringLength by cases flow <;> exact flow_fits
    exact limitsStrings_of_carries executed
      (fun _ roomier => (roomier_machines roomier depth).exec scope stmt) fits
  · exact limitsStrings_of_carries (drives.call callee arguments arguments_fit)
      (fun _ roomier => (roomier_machines roomier depth).call callee arguments) fits
  · exact limitsStrings_of_carries (drives.callMember receiver_fits trivial arguments_fit)
      (fun _ roomier => (roomier_machines roomier depth).callMember receiver name arguments) fits

theorem entry_limits_strings (settings : Settings)
    (enough : Number.textBound ≤ settings.maxStringLength) {program : Program}
    (program_fits : program.Fits settings.maxStringLength) {board : Json}
    (board_fits : board.Fits settings.maxStringLength) :
    LimitsStrings settings.toLimits (Value.Fits settings.maxStringLength)
      (fun limits => callEntry { settings with toLimits := limits } program board) Memory.fresh := by
  have boards_fit : ∀ tree ∈ [board], tree.Fits settings.maxStringLength := by simpa using board_fits
  have none_longer : ∀ value ∈ ([] : List Value), value.Fits settings.maxStringLength := by simp
  refine limitsStrings_of_carries ?_ (fun limits' roomier => ?_) (fresh_fits _)
  · rw [callEntry_eq_session]
    exact ((stringsFit_lawful enough).drives settings.maxCallDepth).session
      ((stmts_fit_iff program).mp program_fits) settings.entry (copies_fits _) boards_fit none_longer
  · exact callEntry_carries (roomier_outermost roomier) program board

/-- A program's text and a board take no more bytes than the limit on strings, which is no less than
the longest text of a number. Then no string and no key that a run holds or returns takes more, wherever
the run stops for want of steps, and the same goes for each part of a run, from whatever memory that fits
and however deep in calls. What would make a longer string fails. -/
theorem strings_stay_within (settings : Settings) (enough : 400 ≤ settings.maxStringLength)
    {source : String} (source_fits : source.utf8ByteSize ≤ settings.maxStringLength)
    {program : Program} (read : Program.read source = .ok program)
    {board : Json} (board_fits : board.Fits settings.maxStringLength) :
    (∀ budget, LimitsStrings { settings.toLimits with stepBudget := budget }
      (Value.Fits settings.maxStringLength)
      (fun limits => callEntry { settings with toLimits := limits } program board) Memory.fresh) ∧
    program.Fits settings.maxStringLength ∧
    ∀ depth memory, memory.Fits settings.maxStringLength →
      PartsLimitStrings settings.toLimits depth memory := by
  have program_fits := Program.read_fits enough source_fits read
  refine ⟨fun budget => ?_, program_fits, fun depth memory fits => parts_limit_strings enough depth fits⟩
  exact entry_limits_strings
    { settings with toLimits := { settings.toLimits with stepBudget := budget } } enough program_fits
    board_fits

/-- A name of three hundred bytes fits where four hundred are allowed. Joined to itself it does not, and
the program that joins it fails. -/
theorem joined_name_is_refused :
    let settings : Settings := { maxStringLength := 400 }
    let source := "function createQuboForSingleMove(board) \x7b return board.name + board.name; \x7d"
    let board : Json := .obj [("name", .str (String.ofList (List.replicate 300 'a')))]
    400 ≤ settings.maxStringLength ∧ source.utf8ByteSize ≤ settings.maxStringLength ∧
    board.Fits settings.maxStringLength ∧
    ∃ program after, Program.read source = .ok program ∧
      callEntry settings program board Memory.fresh =
        .error (.sizeLimit .stringLength settings.maxStringLength) after := by
  intro settings source board
  have enough : 400 ≤ settings.maxStringLength := by decide
  have source_fits : source.utf8ByteSize ≤ settings.maxStringLength := by decide +kernel
  have name_fits : (String.ofList (List.replicate 300 'a')).utf8ByteSize ≤
      settings.maxStringLength := by decide +kernel
  have board_fits : board.Fits settings.maxStringLength :=
    .obj (List.forall_mem_singleton.mpr (by decide +kernel))
      (List.forall_mem_singleton.mpr (.str name_fits))
  have long : ((Program.read source).toOption.bind fun program =>
      (callEntry { settings with maxStringLength := 600 } program board).run' Memory.fresh).any
        (fun value => !decide (value.Fits settings.maxStringLength)) = true := by
    decide +kernel
  refine ⟨enough, source_fits, board_fits, ?_⟩
  cases read : Program.read source with
  | error e =>
    rw [read] at long
    cases long
  | ok program =>
    rw [read] at long
    have whole := (strings_stay_within settings enough source_fits read board_fits).1
    obtain ⟨after, refused⟩ := (whole settings.stepBudget).refuses 600 (by decide)
      (not_endsFitting long)
    exact ⟨program, after, rfl, refused⟩

end Tabletop.Scoring

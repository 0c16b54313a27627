import Tabletop.Proofs.Script.Termination

/-!
What the console keeps of the lines written to it: each line that still fits, whatever was dropped
before it. The lines written are those of the same run on a console that does not count.
-/

namespace Tabletop.Script

/-! ## Lines that fit -/

/-- The bytes of lines. -/
def totalSize : List String → Nat
  | [] => 0
  | line :: rest => line.utf8ByteSize + totalSize rest

@[simp] theorem totalSize_append (lines more : List String) :
    totalSize (lines ++ more) = totalSize lines + totalSize more := by
  induction lines with
  | nil => simp [totalSize]
  | cons line rest of_rest => simp [totalSize, of_rest, Nat.add_assoc]

@[simp] theorem totalSize_singleton (line : String) : totalSize [line] = line.utf8ByteSize := by
  simp [totalSize]

/-- The lines, taken in turn, that fit beside those that were taken before them. -/
def fittingLines (limit : Nat) (lines : List String) : List String :=
  lines.foldl (fun kept line =>
    if totalSize kept + line.utf8ByteSize ≤ limit then kept ++ [line] else kept) []

variable {limit : Nat}

theorem fittingLines_concat (limit : Nat) (lines : List String) (line : String) :
    fittingLines limit (lines ++ [line]) =
      if totalSize (fittingLines limit lines) + line.utf8ByteSize ≤ limit then
        fittingLines limit lines ++ [line]
      else fittingLines limit lines :=
  List.foldl_concat ..

theorem fittingLines_sublist (limit : Nat) (lines : List String) :
    (fittingLines limit lines).Sublist lines := by
  induction lines using List.reverseRecOn with
  | nil => exact .slnil
  | append_singleton lines line of_lines =>
    rw [fittingLines_concat]
    split
    · exact of_lines.append_right [line]
    · exact of_lines.trans (List.sublist_append_left lines [line])

theorem totalSize_fittingLines (limit : Nat) (lines : List String) :
    totalSize (fittingLines limit lines) ≤ limit := by
  induction lines using List.reverseRecOn with
  | nil => exact Nat.zero_le limit
  | append_singleton lines line of_lines =>
    rw [fittingLines_concat]
    split
    · rw [totalSize_append, totalSize_singleton]
      assumption
    · exact of_lines

/-- What was kept stays. -/
theorem fittingLines_append (limit : Nat) (lines more : List String) :
    fittingLines limit lines <+: fittingLines limit (lines ++ more) := by
  induction more using List.reverseRecOn with
  | nil => rw [List.append_nil]
  | append_singleton more line of_more =>
    rw [← List.append_assoc, fittingLines_concat]
    split
    · exact of_more.trans (List.prefix_append _ [line])
    · exact of_more

/-- Nothing is kept that comes after a line that was dropped. -/
def Unbroken (limit : Nat) (lines : List String) : Prop :=
  ∀ before line after, lines = before ++ line :: after →
    limit < totalSize (fittingLines limit before) + line.utf8ByteSize →
    fittingLines limit lines = fittingLines limit before

theorem fittingLines_of_drops {before : List String} {line : String} (after : List String)
    (all : fittingLines limit before = before)
    (dropped : limit < totalSize before + line.utf8ByteSize)
    (starts : fittingLines limit (before ++ line :: after) <+: before ++ line :: after) :
    fittingLines limit (before ++ line :: after) = before := by
  -- what came next would be `line`, as the kept lines start all lines, and `line` is too long
  obtain ⟨kept, of_kept⟩ := fittingLines_append limit before (line :: after)
  rw [all] at of_kept
  rw [← of_kept, List.prefix_append_right_inj] at starts
  cases kept with
  | nil => rw [← of_kept, List.append_nil]
  | cons next kept =>
    obtain ⟨rfl, -⟩ := List.cons_prefix_cons.mp starts
    have within := totalSize_fittingLines limit (before ++ next :: after)
    rw [← of_kept, totalSize_append, totalSize] at within
    omega

/-- All lines fit, or there is a first one that does not. -/
theorem fittingLines_cases (limit : Nat) (lines : List String) :
    fittingLines limit lines = lines ∨ ∃ before line after, lines = before ++ line :: after ∧
      fittingLines limit before = before ∧ limit < totalSize before + line.utf8ByteSize := by
  induction lines using List.reverseRecOn with
  | nil => exact .inl rfl
  | append_singleton lines last of_lines =>
    obtain all | ⟨before, line, after, rfl, all, dropped⟩ := of_lines
    · by_cases fits : totalSize lines + last.utf8ByteSize ≤ limit
      · left
        rw [fittingLines_concat, all, if_pos fits]
      · exact .inr ⟨lines, last, [], rfl, all, by omega⟩
    · exact .inr ⟨before, line, after ++ [last], by simp, all, dropped⟩

/-- The lines kept are the first ones exactly if nothing is kept after a line that was dropped. -/
theorem fittingLines_prefix_iff (limit : Nat) (lines : List String) :
    fittingLines limit lines <+: lines ↔ Unbroken limit lines := by
  constructor
  · rintro starts before line after rfl dropped
    obtain all | ⟨first, long, rest, rfl, all, too_long⟩ := fittingLines_cases limit before
    · rw [all] at dropped ⊢
      exact fittingLines_of_drops after all dropped starts
    · -- `long` was dropped even before
      have kept : fittingLines limit (first ++ long :: rest ++ line :: after) = first := by
        rw [List.append_assoc, List.cons_append] at starts ⊢
        exact fittingLines_of_drops _ all too_long starts
      have later := fittingLines_append limit (first ++ long :: rest) (line :: after)
      have sooner := fittingLines_append limit first (long :: rest)
      rw [kept] at later ⊢
      rw [all] at sooner
      exact sooner.eq_of_length_le later.length_le
  · intro unbroken
    obtain all | ⟨before, line, after, rfl, all, too_long⟩ := fittingLines_cases limit lines
    · rw [all]
    · rw [unbroken before line after rfl (by rwa [all]), all]
      exact List.prefix_append before (line :: after)

/-! ## Two consoles -/

namespace Memory

/-- A memory whose console counts, and the same one whose console takes every line: the first holds the
lines of the second that fit. -/
structure Keeps (limit : Nat) (memory every : Memory) : Prop where
  same : every = memory.withTrace every.trace none
  lines : memory.lines = fittingLines limit every.lines
  size : memory.traceSize = some (totalSize memory.lines)

/-- The same memory with a console that takes every line. -/
def uncounted (memory : Memory) : Memory := memory.withTrace memory.trace none

theorem fresh_keeps (limit : Nat) : fresh.Keeps limit fresh.uncounted := ⟨rfl, rfl, rfl⟩

theorem lines_cons (memory : Memory) (line : String) (size : Option Nat) :
    (memory.withTrace (line :: memory.trace) size).lines = memory.lines ++ [line] :=
  List.reverse_cons

end Memory

open Memory

/-- Two runs end alike, the first one with the lines of the second that fit. -/
def EndsKeeping {α : Type} (limit : Nat) :
    EStateM.Result Fault Memory α → EStateM.Result Fault Memory α → Prop
  | .ok value memory, .ok value' every => value' = value ∧ memory.Keeps limit every
  | .error fault memory, .error fault' every => fault' = fault ∧ memory.Keeps limit every
  | _, _ => False

/-- Runs on the two consoles. -/
def Link.keeping (limit : Nat) : Link where
  Paired memory every := memory.Keeps limit every
  Failed _ memory every := memory.Keeps limit every
  Excused _ := False

variable {limits : Limits}

theorem EndsKeeping.of_ends {α : Type} {ended ended' : EStateM.Result Fault Memory α}
    (ends : (Link.keeping limit).Ends ended ended') : EndsKeeping limit ended ended' := by
  cases ended with
  | ok value memory =>
    obtain ⟨every, rfl, keeps⟩ := ends
    exact ⟨rfl, keeps⟩
  | error fault memory =>
    obtain ⟨⟨⟩⟩ | ⟨every, rfl, keeps⟩ := ends
    exact ⟨rfl, keeps⟩

/-- A line is written to both consoles, and the first one keeps it if it fits. -/
theorem carries_log (limits : Limits) (line : String) :
    (Link.keeping limits.maxStringLength).Carries (limits.log line) (limits.log line) := by
  rintro memory every ⟨same, lines, size⟩
  have written : limits.log line every =
      .ok () (memory.withTrace (line :: every.trace) none) := by
    rw [same]
    rfl
  have all : (memory.withTrace (line :: every.trace) none).lines = every.lines ++ [line] :=
    List.reverse_cons
  rw [written]
  unfold Limits.log
  rw [size]
  dsimp only
  split
  · rename_i fits
    have kept := memory.lines_cons line (some (totalSize memory.lines + line.utf8ByteSize))
    refine ⟨_, rfl, rfl, ?_, ?_⟩
    · rw [all, fittingLines_concat, ← lines, if_pos fits]
      exact kept
    · change some _ = some (totalSize (Memory.lines (memory.withTrace (line :: memory.trace) _)))
      rw [kept, totalSize_append, totalSize_singleton]
  · rename_i long
    refine ⟨_, rfl, rfl, ?_, size⟩
    rw [all, fittingLines_concat, ← lines, if_neg long]

theorem keeping_rooms (limits : Limits) :
    (Link.keeping limits.maxStringLength).Rooms limits limits where
  alike paired := ⟨_, _, paired.same⟩
  more _ := Nat.le_refl _
  excused _ narrower := absurd narrower (Nat.lt_irrefl _)
  failed _ paired := paired

theorem keeping_lawful (limits : Limits) :
    (Link.keeping limits.maxStringLength).Lawful limits limits where
  alike paired := ⟨_, _, paired.same⟩
  heap := by
    rintro memory every arrays objects closures frames ⟨same, lines, size⟩
    refine ⟨?_, lines, size⟩
    rw [same]
    rfl
  runtime _ paired := paired
  endless paired _ := paired
  tick := by
    rintro memory every ⟨same, lines, size⟩
    have steps : every.steps = memory.steps := by
      rw [same]
      rfl
    have spent : Memory.Keeps limits.maxStringLength { memory with steps := memory.steps + 1 }
        { every with steps := memory.steps + 1 } := by
      refine ⟨?_, lines, size⟩
      rw [same]
      rfl
    rw [tick_apply, tick_apply, steps]
    split
    · exact .inr ⟨_, rfl, spent⟩
    · exact ⟨_, rfl, spent⟩
  log := carries_log limits
  checkString := (keeping_rooms limits).checkString
  checkArray := (keeping_rooms limits).checkArray
  text := (keeping_rooms limits).text

theorem keeping_machines (limits : Limits) (depth : Nat) :
    (Link.keeping limits.maxStringLength).Machines (.allowing limits depth)
      (.allowing limits depth) :=
  (keeping_lawful limits).lockstep rfl rfl (fun paired => paired) (fun paired => paired) depth

/-! ## Whole runs and their parts -/

/-- The parts of runs, where so many calls may still stand inside one another, do the same on both
consoles. -/
structure PartsKeep (limits : Limits) (depth : Nat) (memory every : Memory) : Prop where
  expr : ∀ scope expr, EndsKeeping limits.maxStringLength
    (eval (.allowing limits depth) scope expr memory)
    (eval (.allowing limits depth) scope expr every)
  stmt : ∀ scope stmt, EndsKeeping limits.maxStringLength
    (exec (.allowing limits depth) scope stmt memory)
    (exec (.allowing limits depth) scope stmt every)
  call : ∀ callee arguments, EndsKeeping limits.maxStringLength
    ((Machine.allowing limits depth).call callee arguments memory)
    ((Machine.allowing limits depth).call callee arguments every)
  member : ∀ receiver name arguments, EndsKeeping limits.maxStringLength
    ((Machine.allowing limits depth).callMember receiver name arguments memory)
    ((Machine.allowing limits depth).callMember receiver name arguments every)

theorem parts_keep (limits : Limits) (depth : Nat) {memory every : Memory}
    (paired : memory.Keeps limits.maxStringLength every) : PartsKeep limits depth memory every := by
  have machines := keeping_machines limits depth
  exact ⟨fun scope expr => .of_ends (machines.eval scope expr memory every paired),
    fun scope stmt => .of_ends (machines.exec scope stmt memory every paired),
    fun callee arguments => .of_ends (machines.call callee arguments memory every paired),
    fun receiver name arguments =>
      .of_ends (machines.callMember receiver name arguments memory every paired)⟩

/-- What a console has kept of the lines written to it: they come in order, no more bytes than a string
may have, and are the first ones exactly if nothing is kept after a line that was dropped. -/
theorem Memory.Keeps.told {memory every : Memory} (keeps : memory.Keeps limit every) :
    memory.lines.Sublist every.lines ∧ totalSize memory.lines ≤ limit ∧
      (memory.lines <+: every.lines ↔ Unbroken limit every.lines) := by
  rw [keeps.lines]
  exact ⟨fittingLines_sublist limit every.lines, totalSize_fittingLines limit every.lines,
    fittingLines_prefix_iff limit every.lines⟩

/-- A session goes on as it would if its console took every line, up to wherever it ends, and each part
of a session does, however deep in calls. Of all lines written so far the console holds those that fit
beside the ones held before them; so it holds the first lines, and no others, exactly as long as nothing
is kept after a line that was dropped. -/
theorem console_keeps_what_fits (limits : Limits) (program : Program) (name : String)
    (trees : List Json) (values : List Value) :
    EndsKeeping limits.maxStringLength
      ((Machine.outermost limits).session program name trees values Memory.fresh)
      ((Machine.outermost limits).session program name trees values Memory.fresh.uncounted) ∧
    (∀ depth (memory every : Memory), memory.Keeps limits.maxStringLength every →
      PartsKeep limits depth memory every) ∧
    ∀ memory every : Memory, memory.Keeps limits.maxStringLength every →
      memory.lines = fittingLines limits.maxStringLength every.lines ∧
      memory.lines.Sublist every.lines ∧ totalSize memory.lines ≤ limits.maxStringLength ∧
      (memory.lines <+: every.lines ↔ Unbroken limits.maxStringLength every.lines) := by
  have whole := (keeping_machines limits limits.maxCallDepth).session program name trees values
    Memory.fresh Memory.fresh.uncounted (fresh_keeps _)
  exact ⟨.of_ends whole, fun depth _ _ keeps => parts_keep limits depth keeps,
    fun _ _ keeps => ⟨keeps.lines, keeps.told⟩⟩

/-- The lines on the console where a run ends. -/
def linesAt {α : Type} : EStateM.Result Fault Memory α → List String
  | .ok _ memory | .error _ memory => memory.lines

/-- With three bytes to spend, the second line is dropped and the shorter third one kept. -/
theorem shorter_line_follows :
    let limits : Limits := { maxStringLength := 3 }
    let source := "function main() \x7b console.log('ab'); console.log('cd'); console.log('e'); \x7d"
    ∃ program, Program.read source = .ok program ∧
      let kept := linesAt
        ((Machine.outermost limits).session program "main" [] [] Memory.fresh)
      let every := linesAt
        ((Machine.outermost limits).session program "main" [] [] Memory.fresh.uncounted)
      kept = ["ab", "e"] ∧ every = ["ab", "cd", "e"] ∧ ¬ kept <+: every := by
  intro limits source
  have lines : (Program.read source).toOption.map (fun program =>
      (linesAt ((Machine.outermost limits).session program "main" [] [] Memory.fresh),
        linesAt ((Machine.outermost limits).session program "main" [] []
          Memory.fresh.uncounted))) = some (["ab", "e"], ["ab", "cd", "e"]) := by
    decide +kernel
  cases read : Program.read source with
  | error e =>
    rw [read] at lines
    cases lines
  | ok program =>
    rw [read] at lines
    obtain ⟨kept, every⟩ := Prod.mk.inj (Option.some.inj lines)
    refine ⟨program, rfl, kept, every, ?_⟩
    rw [kept, every]
    decide

end Tabletop.Script

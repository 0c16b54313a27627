import Tabletop.Proofs.Script.Grading
import Mathlib.Order.Monotone.Basic
import Mathlib.Tactic.Ring

/-!
Whatever is read under a number of levels has a grade that depends on that number alone. Six chains of
operators start at one level and every link takes one, so the grade grows with the square of the levels.
-/

namespace Tabletop.Script

namespace Reader

variable {α : Type} {limit : Nat} (grading : Grading limit)

/-! ## Grades of levels -/

/-- The grade of an expression that is read with a number of levels below it. -/
def deepest (levels : Nat) : Nat := 2 * levels * (levels + 2)

theorem deepest_succ (levels : Nat) : deepest (levels + 1) = deepest levels + 4 * levels + 6 := by
  unfold deepest
  ring

theorem deepest_monotone : Monotone deepest := by
  refine monotone_nat_of_le_succ fun levels => ?_
  rw [deepest_succ]
  omega

/-- The readers of a level give what has the grade of that level. -/
structure LevelGraded (below : Nat) (level : Level) : Prop where
  statement : level.statement.Gives limit (grading.stmt (deepest (below + 1) + 1))
  assignment : level.assignment.Gives limit (grading.expr (deepest (below + 1)))
  operand : level.operand.Gives limit (grading.expr (deepest below + below + 3))
  power : level.power.Gives limit (grading.expr (deepest below + below + 3))

def LevelsGraded : Levels → Prop
  | [] => True
  | level :: deeper => LevelGraded grading deeper.length level ∧ LevelsGraded deeper

section Levels

variable {grading} {levels : Levels} (graded : LevelsGraded grading levels)

include graded

theorem gives_statement :
    (statement levels).Gives limit (grading.stmt (deepest levels.length + 1)) := by
  refine gives_nested fun level deeper same => ?_
  subst same
  exact graded.1.statement

theorem gives_assignment :
    (assignment levels).Gives limit (grading.expr (deepest levels.length)) := by
  refine gives_nested fun level deeper same => ?_
  subst same
  exact graded.1.assignment

theorem gives_operand : (operand levels).Gives limit
    (grading.expr (deepest (levels.length - 1) + levels.length + 2)) := by
  refine gives_nested fun level deeper same => ?_
  subst same
  exact graded.1.operand

theorem gives_powerBody : (powerBody levels).Gives limit
    (grading.expr (deepest (levels.length - 1) + levels.length + 3)) := by
  have exponent : (nested levels Level.power).Gives limit
      (grading.expr (deepest (levels.length - 1) + levels.length + 2)) := by
    refine gives_nested fun level deeper same => ?_
    subst same
    exact graded.1.power
  refine (gives_operand graded).bind fun base base_graded => (passes_take "**").bind fun more _ => ?_
  split
  · exact exponent.map fun _ is_graded => grading.binary .pow base_graded is_graded
  · exact .pure (grading.raise_expr (Nat.le_succ _) base_graded)

/-- Every suffix is a node over all before it, with the levels below it for what stands inside. -/
theorem gives_suffixes {expr : Expr} {grade : Nat} (is_graded : grading.expr grade expr)
    (enough : deepest levels.length ≤ grade) :
    (suffixes levels expr).Gives limit (grading.expr (grade + levels.length)) := by
  induction levels generalizing expr grade with
  | nil =>
    refine gives_peek.bind fun kind _ => ?_
    split
    · exact passes_fail _
    · exact .pure is_graded
  | cons level deeper of_deeper =>
    have fewer : deepest deeper.length ≤ grade :=
      (deepest_monotone (Nat.le_succ deeper.length)).trans enough
    have inside : (assignment deeper).Gives limit (grading.expr grade) :=
      (gives_assignment graded.2).mono fun _ => grading.raise_expr fewer
    have around : ∀ expr, grading.expr (grade + 1) expr →
        (suffixes deeper expr).Gives limit (grading.expr (grade + (level :: deeper).length)) := by
      intro expr above
      have rest := of_deeper graded.2 above (fewer.trans (Nat.le_succ grade))
      rwa [Nat.add_assoc, Nat.add_comm 1] at rest
    have whole : grading.expr (grade + (level :: deeper).length) expr :=
      grading.raise_expr (Nat.le_add_right _ _) is_graded
    unfold suffixes
    refine (passes_take ".").bind fun dot _ => ?_
    split
    · exact passes_identifier.bind fun name _ => around _ (grading.member name is_graded)
    · refine (passes_take "[").bind fun bracket _ => ?_
      split
      · exact inside.bind fun key key_graded => (passes_expect "]").bind fun _ _ =>
          around _ (grading.index is_graded key_graded)
      · refine (passes_take "(").bind fun parenthesis _ => ?_
        split
        · exact (gives_separated ")" inside).bind fun arguments all =>
            around _ (grading.call is_graded all)
        · exact .pure whole

section Operands

variable (enough : Number.textBound ≤ limit)

include enough

theorem gives_callee :
    (callee levels).Gives limit (grading.expr (deepest levels.length + levels.length + 2)) := by
  have primary := gives_primary grading (gives_assignment graded) (gives_statement graded) enough
  refine primary.bind fun _ is_graded => ?_
  have suffixed := gives_suffixes graded is_graded (Nat.le_add_right _ 2)
  rwa [Nat.add_right_comm] at suffixed

theorem gives_stepped :
    (stepped levels).Gives limit (grading.expr (deepest levels.length + levels.length + 3)) := by
  refine passes_position.bind fun start _ => (gives_callee graded enough).bind fun expr is_graded =>
    passes_position.bind fun here _ => ?_
  have whole := grading.raise_expr (Nat.le_succ _) is_graded
  split
  · refine (passes_take "++").bind fun up _ => ?_
    split
    · exact .pure (grading.update true false is_graded)
    · refine (passes_take "--").bind fun down _ => ?_
      split
      · exact .pure (grading.update false false is_graded)
      · exact .pure whole
  · exact .pure whole

theorem gives_operandBody :
    (operandBody levels).Gives limit (grading.expr (deepest levels.length + levels.length + 3)) := by
  have smaller : deepest (levels.length - 1) ≤ deepest levels.length :=
    deepest_monotone (Nat.sub_le _ 1)
  have inside : (operand levels).Gives limit
      (grading.expr (deepest levels.length + levels.length + 2)) :=
    (gives_operand graded).mono fun _ => grading.raise_expr (by omega)
  unfold operandBody
  refine (passes_take "!").bind fun _ _ => ?_
  split
  · exact inside.map fun _ => grading.unary .not
  refine (passes_take "-").bind fun _ _ => ?_
  split
  · exact inside.map fun _ => grading.unary .neg
  refine (passes_take "+").bind fun _ _ => ?_
  split
  · exact inside.map fun _ => grading.unary .plus
  refine (passes_takeWord "typeof").bind fun _ _ => ?_
  split
  · exact inside.map fun _ => grading.unary .typeof
  refine (passes_take "++").bind fun _ _ => ?_
  split
  · exact inside.map fun _ => grading.update true true
  refine (passes_take "--").bind fun _ _ => ?_
  split
  · exact inside.map fun _ => grading.update false true
  · exact gives_stepped graded enough

end Operands

end Levels

/-! ## Chains of operators -/

/-- The grade of what is read by some chains that stand over one another. A chain gives the levels of its
links back, so all of them start at one level. -/
def chained (chains levels : Nat) : Nat := deepest (levels - 1) + (chains + 1) * levels + 3

theorem chained_succ (chains levels : Nat) :
    chained (chains + 1) levels = chained chains levels + levels := by
  unfold chained
  ring

theorem chained_monotone (chains : Nat) : Monotone (chained chains) := by
  intro low high le
  have fewer := deepest_monotone (Nat.sub_le_sub_right le 1)
  have less := Nat.mul_le_mul_left (chains + 1) le
  unfold chained
  omega

theorem deepest_le_chained (levels : Nat) : deepest levels ≤ chained 6 levels := by
  unfold chained
  cases levels with
  | zero => decide
  | succ levels =>
    rw [Nat.add_sub_cancel, deepest_succ]
    omega

/-- A level has room for six chains over a power, a condition and an assignment. -/
theorem chained_room (levels : Nat) : chained 6 levels + 2 ≤ deepest (levels + 1) := by
  unfold chained
  cases levels with
  | zero => decide
  | succ levels =>
    rw [Nat.add_sub_cancel, deepest_succ, deepest_succ]
    omega

section Chains

variable {grading} {table : List (String × α)} {combine : α → Expr → Expr → Expr}
  {next : Levels → Reader Expr} {chains : Nat}
  (combines : ∀ {grade left right} (op : α), grading.expr grade left → grading.expr grade right →
    grading.expr (grade + 1) (combine op left right))
  (gives : ∀ {levels}, LevelsGraded grading levels →
    (next levels).Gives limit (grading.expr (chained chains levels.length)))

include combines gives

/-- Every link is a node over all before it, and what is linked to them stands no higher. -/
theorem gives_links {levels : Levels} (graded : LevelsGraded grading levels) {left : Expr} {grade : Nat}
    (left_graded : grading.expr grade left) (enough : chained chains levels.length ≤ grade) :
    (links table combine next levels left).Gives limit (grading.expr (grade + levels.length)) := by
  induction levels generalizing left grade with
  | nil =>
    refine (passes_takeOperator table).bind fun found _ => ?_
    split
    · exact .pure left_graded
    · exact passes_fail _
  | cons level deeper of_deeper =>
    have fewer : chained chains deeper.length ≤ grade :=
      (chained_monotone chains (Nat.le_succ deeper.length)).trans enough
    unfold links
    refine (passes_takeOperator table).bind fun found _ => ?_
    split
    · exact .pure (grading.raise_expr (Nat.le_add_right _ _) left_graded)
    · rename_i op
      refine (gives graded.2).bind fun right right_graded => ?_
      have linked := combines op left_graded (grading.raise_expr fewer right_graded)
      have rest := of_deeper graded.2 linked (fewer.trans (Nat.le_succ grade))
      rwa [Nat.add_assoc, Nat.add_comm 1] at rest

theorem gives_chain {levels : Levels} (graded : LevelsGraded grading levels) :
    (chain table combine next levels).Gives limit
      (grading.expr (chained (chains + 1) levels.length)) := by
  rw [chained_succ]
  exact (gives graded).bind fun _ left_graded => gives_links combines gives graded left_graded le_rfl

end Chains

section Levels

variable {grading} {levels : Levels} (graded : LevelsGraded grading levels)

include graded

theorem gives_disjunction :
    (disjunction levels).Gives limit (grading.expr (chained 6 levels.length)) := by
  have power : ∀ {levels}, LevelsGraded grading levels →
      (powerBody levels).Gives limit (grading.expr (chained 0 levels.length)) := by
    intro levels graded
    rw [chained, Nat.zero_add, Nat.one_mul]
    exact gives_powerBody graded
  exact gives_chain grading.logical (gives_chain grading.logical (gives_chain grading.binary
    (gives_chain grading.binary (gives_chain grading.binary (gives_chain grading.binary power))))) graded

theorem gives_conditional :
    (conditional levels).Gives limit (grading.expr (chained 6 levels.length + 1)) := by
  have inside : (assignment levels).Gives limit (grading.expr (chained 6 levels.length)) :=
    (gives_assignment graded).mono fun _ => grading.raise_expr (deepest_le_chained levels.length)
  refine (gives_disjunction graded).bind fun test test_graded => (passes_take "?").bind fun more _ => ?_
  split
  · exact inside.bind fun yes yes_graded => (passes_expect ":").bind fun _ _ =>
      inside.map fun no no_graded => grading.conditional test_graded yes_graded no_graded
  · exact .pure (grading.raise_expr (Nat.le_succ _) test_graded)

theorem gives_assignmentBody :
    (assignmentBody levels).Gives limit (grading.expr (deepest (levels.length + 1))) := by
  have above : deepest levels.length + 2 ≤ deepest (levels.length + 1) := by
    rw [deepest_succ]
    omega
  have room := chained_room levels.length
  have smaller := deepest_le_chained levels.length
  refine gives_get.bind fun stream _ => ?_
  split
  · exact (gives_arrow grading (gives_assignment graded) (gives_statement graded)).mono fun _ =>
      grading.raise_expr above
  · refine (gives_conditional graded).bind fun target target_graded => gives_peek.bind fun kind _ => ?_
    split
    · exact .pure (grading.raise_expr (by omega) target_graded)
    · split
      · refine passes_skip.bind fun _ _ => (gives_assignment graded).map fun value is_graded => ?_
        have below : deepest (levels.length + 1) = deepest (levels.length + 1) - 1 + 1 := by omega
        rw [below]
        exact grading.assign _ (grading.raise_expr (by omega) target_graded)
          (grading.raise_expr (by omega) is_graded)
      · exact passes_fail _

end Levels

/-- The readers of a number of levels, by induction on how many stand below. -/
theorem levelsOf_graded (enough : Number.textBound ≤ limit) (count : Nat) :
    LevelsGraded grading (levelsOf count) ∧ (levelsOf count).length = count := by
  induction count with
  | zero => exact ⟨trivial, rfl⟩
  | succ count of_count =>
    obtain ⟨graded, length⟩ := of_count
    have smaller : deepest (levelsOf count).length + 2 ≤ deepest ((levelsOf count).length + 1) + 1 := by
      rw [deepest_succ]
      omega
    have fewer : deepest ((levelsOf count).length - 1) ≤ deepest (levelsOf count).length :=
      deepest_monotone (Nat.sub_le _ 1)
    have statement := gives_statementBody grading (gives_assignment graded) (gives_statement graded)
    refine ⟨⟨⟨?_, gives_assignmentBody graded, gives_operandBody graded enough, ?_⟩, graded⟩, ?_⟩
    · exact statement.mono fun _ => grading.raise_stmt smaller
    · exact (gives_powerBody graded).mono fun _ => grading.raise_expr (by omega)
    · rw [levelsOf, List.length_cons, length]

end Reader

/-! ## Whole texts -/

variable {limit : Nat} (grading : Grading limit) (enough : Number.textBound ≤ limit) {text : String}
  (fits : text.utf8ByteSize ≤ limit)

include enough fits

theorem Program.read_graded {program : Program} (read : Program.read text = .ok program) :
    ∀ stmt ∈ program, grading.stmt (Reader.deepest nestingLimit + 1) stmt := by
  rw [Text.utf8ByteSize_eq_byteSize] at fits
  have levels := Reader.levelsOf_graded grading enough nestingLimit
  unfold Program.read at read
  simp only [Except.bind_eq_ok_iff, Prod.exists] at read
  obtain ⟨stream, cut, whole, rest, of_tokens, ⟨⟩⟩ := read
  have statement := Reader.gives_statement levels.1
  rw [levels.2] at statement
  exact (Reader.gives_statements grading statement stream.tokens (by simp) stream _ rest
    (ofTextAt_fits fits cut) of_tokens).1

theorem Expr.readAt_graded {position : Position} {expr : Expr}
    (read : Expr.readAt text position = .ok expr) :
    grading.expr (Reader.deepest nestingLimit) expr := by
  rw [Text.utf8ByteSize_eq_byteSize] at fits
  have levels := Reader.levelsOf_graded grading enough nestingLimit
  have assignment := Reader.gives_assignment levels.1
  rw [levels.2] at assignment
  exact Reader.graded_wholeExpression grading assignment fits read

end Tabletop.Script

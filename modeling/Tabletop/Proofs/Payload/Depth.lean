import Mathlib.Data.List.Chain
import Tabletop.Proofs.Payload.Grammar

/-!
How deep formulas are. Only unaries count against the nesting limit, and between two of them stand at most
three nodes: a sum, a product and a power or a sign. So every formula that is read is less deep than three
times the limit, however long its text is, and so is the recursion of the functions that go through it.
-/

namespace Tabletop.Payload.Formula

/-! ## Depth -/

/-- The formulas right below a formula. -/
def parts : Formula → List Formula
  | .number _ | .reference _ => []
  | .neg inner => [inner]
  | .sum first rest => first :: rest.map Prod.snd
  | .product first rest => first :: rest.map Prod.snd
  | .power base exponent => [base, exponent]

/-- Nodes of a formula from its root downwards. -/
def IsPath (formula : Formula) (path : List Formula) : Prop :=
  path.head? = some formula ∧ path.IsChain fun whole part => part ∈ whole.parts

/-- A formula has no more than so many nodes below one another. -/
def Within : (depth : Nat) → Formula → Prop
  | 0, _ => False
  | depth + 1, formula => ∀ part ∈ formula.parts, Within depth part

variable {depth more : Nat} {formula : Formula}

theorem Within.succ (within : Within depth formula) : Within (depth + 1) formula := by
  induction depth generalizing formula with
  | zero => exact within.elim
  | succ depth of_depth => exact fun part is_part => of_depth (within part is_part)

theorem Within.mono (le : depth ≤ more) (within : Within depth formula) : Within more formula := by
  induction le with
  | refl => exact within
  | step _ of_more => exact of_more.succ

/-- A path through a formula is no longer than the formula is deep. -/
theorem IsPath.length_le {path : List Formula} (is_path : IsPath formula path)
    (within : Within depth formula) : path.length ≤ depth := by
  induction depth generalizing formula path with
  | zero => exact within.elim
  | succ depth of_depth =>
    obtain ⟨starts, chain⟩ := is_path
    match path, starts, chain with
    | [_], _, _ => exact Nat.succ_le_succ (Nat.zero_le _)
    | whole :: part :: below, starts, chain =>
      obtain rfl : whole = formula := Option.some.inj starts
      obtain ⟨is_part, chain⟩ := List.isChain_cons_cons.mp chain
      exact Nat.succ_le_succ (of_depth ⟨rfl, chain⟩ (within part is_part))

/-! ## Functions with a bounded recursion -/

/-- The names of a formula, by a function that calls itself so many times within one another at most. -/
def namesWithin : (frames : Nat) → (names : Names) → Formula → Option Names
  | 0, _, _ => none
  | frames + 1, names, formula => match formula with
    | .number _ => some names
    | .reference name => some (names.insert name)
    | .neg inner => namesWithin frames names inner
    | .sum first rest => do
      let names ← namesWithin frames names first
      rest.foldlM (fun names term => namesWithin frames names term.2) names
    | .product first rest => do
      let names ← namesWithin frames names first
      rest.foldlM (fun names factor => namesWithin frames names factor.2) names
    | .power base exponent => do
      let names ← namesWithin frames names base
      namesWithin frames names exponent

/-- Why an evaluation with a bounded recursion gives no value. -/
inductive Halted where
  | tooDeep
  | noValue (e : NoValue)

/-- The value of a formula, by a function that calls itself so many times within one another at most. -/
def evaluateWithin (values : String → Option Float) : (frames : Nat) → Formula → Except Halted Float
  | 0, _ => .error .tooDeep
  | frames + 1, formula => match formula with
    | .number value => .ok value.toFloat
    | .reference name => match values name with
      | some value => .ok value
      | none => .error (.noValue ⟨name⟩)
    | .neg inner => (evaluateWithin values frames inner).map fun value => -value
    | .sum first rest => do
      let total ← evaluateWithin values frames first
      rest.foldlM (fun total term => (evaluateWithin values frames term.2).map (term.1.apply total)) total
    | .product first rest => do
      let total ← evaluateWithin values frames first
      rest.foldlM (fun total factor => (evaluateWithin values frames factor.2).map (factor.1.apply total))
        total
    | .power base exponent => do
      let base ← evaluateWithin values frames base
      (evaluateWithin values frames exponent).map base.pow

theorem namesOfTerms_eq (names : Names) (terms : List (Joining × Formula)) :
    namesOfTerms names terms = terms.foldl (fun names term => namesInto names term.2) names := by
  induction terms generalizing names with
  | nil => rfl
  | cons term rest of_rest => exact of_rest _

theorem namesOfFactors_eq (names : Names) (factors : List (Scaling × Formula)) :
    namesOfFactors names factors = factors.foldl (fun names factor => namesInto names factor.2) names := by
  induction factors generalizing names with
  | nil => rfl
  | cons factor rest of_rest => exact of_rest _

/-- A chain whose links all succeed is a plain fold. -/
theorem foldlM_some {α β : Type} {plain : β → α → β} (step : β → α → Option β) (items : List α)
    (agree : ∀ item ∈ items, ∀ state, step state item = some (plain state item)) (state : β) :
    items.foldlM step state = some (items.foldl plain state) := by
  induction items generalizing state with
  | nil => rfl
  | cons item rest of_rest =>
    rw [List.foldlM_cons, agree item List.mem_cons_self]
    exact of_rest (fun other is_item => agree other (List.mem_cons_of_mem _ is_item)) _

/-- Frames for the depth of a formula are enough for its names. -/
theorem namesWithin_eq (within : Within depth formula) (names : Names) :
    namesWithin depth names formula = some (namesInto names formula) := by
  induction depth generalizing formula names with
  | zero => exact within.elim
  | succ depth of_depth =>
    have below {part : Formula} (is_part : part ∈ formula.parts) (names : Names) :
        namesWithin depth names part = some (namesInto names part) :=
      of_depth (within part is_part) names
    cases formula with
    | number value => rfl
    | reference name => rfl
    | neg inner => exact below (by simp [parts]) names
    | sum first rest =>
      have terms := foldlM_some (fun names term => namesWithin depth names term.2) rest
        fun term is_term names =>
          below (List.mem_cons_of_mem _ (List.mem_map_of_mem is_term)) names
      simp only [namesWithin, below List.mem_cons_self, Option.bind_eq_bind, Option.bind_some, terms,
        namesInto, namesOfTerms_eq]
    | product first rest =>
      have factors := foldlM_some (fun names factor => namesWithin depth names factor.2) rest
        fun factor is_factor names =>
          below (List.mem_cons_of_mem _ (List.mem_map_of_mem is_factor)) names
      simp only [namesWithin, below List.mem_cons_self, Option.bind_eq_bind, Option.bind_some, factors,
        namesInto, namesOfFactors_eq]
    | power base exponent =>
      have is_base : base ∈ (Formula.power base exponent).parts := by simp [parts]
      have is_exponent : exponent ∈ (Formula.power base exponent).parts := by simp [parts]
      simp only [namesWithin, below is_base, below is_exponent, Option.bind_eq_bind, Option.bind_some,
        namesInto]

section
variable {values : String → Option Float}

/-- Links that agree apart from how failures are told make chains that do. -/
theorem foldlM_mapError {α β : Type} (step : β → α → Except Halted β) (plain : β → α → Except NoValue β)
    (items : List α) (agree : ∀ item ∈ items, ∀ state, step state item = (plain state item).mapError .noValue)
    (state : β) : items.foldlM step state = (items.foldlM plain state).mapError .noValue := by
  induction items generalizing state with
  | nil => rfl
  | cons item rest of_rest =>
    rw [List.foldlM_cons, List.foldlM_cons, agree item List.mem_cons_self]
    cases plain state item with
    | error e => rfl
    | ok next => exact of_rest (fun other is_item => agree other (List.mem_cons_of_mem _ is_item)) next

theorem map_mapError {α β : Type} (change : α → β) (result : Except NoValue α) :
    (result.mapError Halted.noValue).map change = (result.map change).mapError .noValue := by
  cases result with
  | error e => rfl
  | ok value => rfl

theorem bind_mapError {α β : Type} (result : Except NoValue α) (next : α → Except NoValue β) :
    ((result.mapError Halted.noValue).bind fun value => (next value).mapError .noValue) =
      (result.bind next).mapError .noValue := by
  cases result with
  | error e => rfl
  | ok value => rfl

/-- Frames for the depth of a formula are enough for its value. -/
theorem evaluateWithin_eq (within : Within depth formula) :
    evaluateWithin values depth formula = (evaluate values formula).mapError .noValue := by
  induction depth generalizing formula with
  | zero => exact within.elim
  | succ depth of_depth =>
    have below {part : Formula} (is_part : part ∈ formula.parts) :
        evaluateWithin values depth part = (evaluate values part).mapError .noValue :=
      of_depth (within part is_part)
    cases formula with
    | number value => rfl
    | reference name =>
      simp only [evaluateWithin, evaluate]
      cases values name with
      | none => rfl
      | some value => rfl
    | neg inner =>
      have is_inner : inner ∈ (Formula.neg inner).parts := by simp [parts]
      simp only [evaluateWithin, below is_inner, map_mapError, evaluate]
      cases evaluate values inner with
      | error e => rfl
      | ok value => rfl
    | sum first rest =>
      have terms := foldlM_mapError
        (fun total term => (evaluateWithin values depth term.2).map (term.1.apply total))
        (fun total term => (evaluate values term.2).map (term.1.apply total)) rest
        fun term is_term total => by
          rw [below (List.mem_cons_of_mem _ (List.mem_map_of_mem is_term)), map_mapError]
      simp only [evaluateWithin, below List.mem_cons_self, terms, (foldsChains values).sum]
      exact bind_mapError _ _
    | product first rest =>
      have factors := foldlM_mapError
        (fun total factor => (evaluateWithin values depth factor.2).map (factor.1.apply total))
        (fun total factor => (evaluate values factor.2).map (factor.1.apply total)) rest
        fun factor is_factor total => by
          rw [below (List.mem_cons_of_mem _ (List.mem_map_of_mem is_factor)), map_mapError]
      simp only [evaluateWithin, below List.mem_cons_self, factors, (foldsChains values).product]
      exact bind_mapError _ _
    | power base exponent =>
      have is_base : base ∈ (Formula.power base exponent).parts := by simp [parts]
      have is_exponent : exponent ∈ (Formula.power base exponent).parts := by simp [parts]
      simp only [evaluateWithin, below is_base, below is_exponent, map_mapError, evaluate]
      cases evaluate values base with
      | error e => rfl
      | ok base =>
        cases evaluate values exponent with
        | error e => rfl
        | ok exponent => rfl

end

/-! ## What is read -/

section
variable {α : Type} {link? : Operator → Option α} {node : Formula → List (α × Formula) → Formula}
  {Part Operand : List Token → Formula → Prop} {tokens : List Token}

/-- A rule gives formulas of a depth. -/
def Gives (depth : Nat) (Rule : List Token → Formula → Prop) : Prop :=
  ∀ {tokens formula}, Rule tokens formula → Within depth formula

theorem IsLinks.within (gives : Gives depth Part) {rest : List (α × Formula)}
    (links : IsLinks link? Part tokens rest) : ∀ part ∈ rest.map Prod.snd, Within depth part := by
  induction links with
  | stop => simp
  | link _ part _ others =>
    intro one is_one
    rcases List.mem_cons.mp is_one with rfl | is_one
    · exact gives part
    · exact others one is_one

/-- A chain is one node deeper than its parts. -/
theorem gives_isChain (chained : ∀ first rest, (node first rest).parts = first :: rest.map Prod.snd)
    (gives : Gives depth Part) : Gives (depth + 1) (IsChain link? node Part) := by
  intro tokens formula chain
  cases chain with
  | alone part => exact (gives part).succ
  | chain part others =>
    intro one is_one
    rw [chained] at is_one
    rcases List.mem_cons.mp is_one with rfl | is_one
    · exact gives part
    · exact others.within gives one is_one

theorem gives_isSum (gives : Gives depth Operand) : Gives (depth + 2) (IsSum Operand) :=
  gives_isChain (fun _ _ => rfl) (gives_isChain (fun _ _ => rfl) gives)

theorem gives_isAtom (gives : Gives depth Operand) : Gives (depth + 2) (IsAtom Operand) := by
  intro tokens formula atom
  cases atom with
  | number value => exact nofun
  | name text => exact nofun
  | parentheses sum => exact gives_isSum gives sum

/-- Between an operand and the operands in it there are three nodes at most. -/
theorem gives_isUnary (gives : Gives depth Operand) : Gives (depth + 3) (IsUnary Operand) := by
  intro tokens formula unary
  cases unary with
  | minus operand =>
    intro part is_part
    obtain rfl : part = _ := by simpa [parts] using is_part
    exact (gives operand).mono (by omega)
  | plus operand => exact (gives operand).mono (by omega)
  | atom atom => exact (gives_isAtom gives atom).succ
  | @power _ _ _ base exponent atom operand =>
    intro part is_part
    have one_of : part = base ∨ part = exponent := by simpa [parts] using is_part
    rcases one_of with rfl | rfl
    · exact gives_isAtom gives atom
    · exact (gives operand).mono (by omega)

theorem not_isChain (impossible : ∀ {tokens formula}, ¬ Part tokens formula) {formula : Formula} :
    ¬ IsChain link? node Part tokens formula := by
  intro chain
  cases chain with
  | alone part => exact impossible part
  | chain part _ => exact impossible part

/-- The innermost operands are numbers and names: whatever else an operand may be has one in it. -/
theorem gives_innermost : Gives 1 (IsOperand 1) := by
  intro tokens formula operand
  cases operand with
  | minus operand => exact operand.elim
  | plus operand => exact operand.elim
  | atom atom =>
    cases atom with
    | number value => exact nofun
    | name text => exact nofun
    -- A sum has an operand in it, and there is no level left for one.
    | parentheses sum => exact absurd sum (not_isChain (not_isChain fun operand => operand))
  | power _ operand => exact operand.elim

theorem gives_isOperand (levels : Nat) : Gives (3 * levels + 1) (IsOperand (levels + 1)) := by
  induction levels with
  | zero => exact gives_innermost
  | succ levels of_levels => exact gives_isUnary of_levels

end

/-- A formula that is read from a text, however long, has no more than three times as many nodes below one
another as operands may stand inside one another. So many calls within one another are enough to list its
names and to evaluate it. -/
theorem formulas_stay_shallow {text : String} {formula : Formula} (accepted : read text = .ok formula) :
    (∀ path, IsPath formula path → path.length ≤ 3 * nestingLimit) ∧
      (∀ names, namesWithin (3 * nestingLimit) names formula = some (namesInto names formula)) ∧
      ∀ values, evaluateWithin values (3 * nestingLimit) formula =
        (evaluate values formula).mapError .noValue := by
  obtain ⟨cut, _, spelled⟩ := read_ok_iff.mp accepted
  have within : Within (3 * nestingLimit) formula :=
    gives_isSum (gives_isOperand (nestingLimit - 1)) (ofTokens_ok_iff.mp spelled)
  exact ⟨fun path is_path => is_path.length_le within, namesWithin_eq within,
    fun values => evaluateWithin_eq within⟩

/-- A sum, a product, a power and a sign below one another. -/
theorem formulas_stay_shallow_mixed :
    read "1 + 2 * (-a) ** b" = .ok (.sum (.number ⟨false, 1, 0⟩)
      [(.add, .product (.number ⟨false, 2, 0⟩) [(.mul, .power (.neg (.reference "a")) (.reference "b"))])]) ∧
    ∀ path, IsPath (.sum (.number ⟨false, 1, 0⟩)
      [(.add, .product (.number ⟨false, 2, 0⟩) [(.mul, .power (.neg (.reference "a")) (.reference "b"))])])
        path → path.length ≤ 768 := by
  have accepted : read "1 + 2 * (-a) ** b" = .ok (.sum (.number ⟨false, 1, 0⟩)
      [(.add, .product (.number ⟨false, 2, 0⟩)
        [(.mul, .power (.neg (.reference "a")) (.reference "b"))])]) := by
    rfl
  exact ⟨accepted, (formulas_stay_shallow accepted).1⟩

end Tabletop.Payload.Formula

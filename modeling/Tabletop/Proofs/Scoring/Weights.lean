import Mathlib
import Tabletop.Proofs.Number.Whole
import Tabletop.Proofs.Payload.Declared
import Tabletop.Proofs.Payload.Exact
import Tabletop.Proofs.Scoring.Selection

/-!
What payloads of weights mean. The objective is the weighted sum of the variables and of the products of
two that the weights name, under every assignment; the constraint selects one of all variables, and the
answer is the number of the one that is selected.
-/

namespace Tabletop.Scoring

open Payload Payload.Formula Script

/-! ## Weights that are given -/

/-- What a key stands for: a number for the variable `x` of that number, an identifier for itself. -/
inductive KeyNames (key : String) : String → Prop
  | number (filled : Text.trim key.toList ≠ []) (all : ∀ c ∈ Text.trim key.toList, c.isDigit) :
    KeyNames key (String.ofList ('x' :: Text.trim key.toList))
  | identifier (identifier : IsIdentifier (Text.trimmed key)) : KeyNames key (Text.trimmed key)

/-- A key of two parts with a comma between them. -/
def PairNames (key : String) (pair : String × String) : Prop :=
  ∃ left right, key = left ++ "," ++ right ∧ KeyNames left pair.1 ∧ KeyNames right pair.2

/-- A value that is an integer below nine quadrillion, or is converted to one. -/
def Weighs (memory : Memory) (value : Value) (n : Int) : Prop :=
  ∃ weight, memory.numberOf? value = some weight ∧ Number.smallInt? weight = some n

/-- A result that gives weights to single variables and to pairs of them. -/
structure GivesWeights (memory : Memory) (entries : Entries) (single : List (String × Int))
    (pairs : List ((String × String) × Int)) : Prop where
  no_field : ∀ key ∈ fieldKeys, entries.contains key = false
  some_weights : (entries.contains "linear" || entries.contains "quadratic") = true
  linear : List.Forall₂ (fun property weight =>
      KeyNames property.1 weight.1 ∧ Weighs memory property.2 weight.2)
    (propertiesOf memory (field entries ["linear"])) single
  quadratic : List.Forall₂ (fun property weight =>
      PairNames property.1 weight.1 ∧ Weighs memory property.2 weight.2)
    (propertiesOf memory (field entries ["quadratic"])) pairs

/-- The variables that weights name, each once. -/
def weighedNames (single : List (String × Int)) (pairs : List ((String × String) × Int)) :
    List String :=
  (single.map Prod.fst ++ pairs.flatMap fun weight => [weight.1.1, weight.1.2]).eraseDups

/-! ## Keys -/

section Keys
variable {key name : String} {pair : String × String}

theorem weightName_eq (names : KeyNames key name) : weightName key = name := by
  cases names with
  | number filled all =>
    have digits : (!(Text.trim key.toList).isEmpty && (Text.trim key.toList).all Char.isDigit) = true := by
      simpa [filled] using all
    exact if_pos digits
  | identifier identifier =>
    obtain ⟨c, is_first, starts⟩ := identifier.starts
    rw [Text.trimmed, String.toList_ofList] at is_first
    have no_digit : c.isDigit = false := by
      have no_number := not_isNumberPart_of_isNameStart starts
      by_contra digit
      exact no_number (isNumberPart_of_isDigit (by simpa using digit))
    have not_all : (Text.trim key.toList).all Char.isDigit = false :=
      List.all_eq_false.mpr ⟨c, List.mem_of_mem_head? is_first, by simp [no_digit]⟩
    simp [weightName, not_all, Text.trimmed]

theorem KeyNames.isIdentifier (names : KeyNames key name) : IsIdentifier name := by
  cases names with
  | number filled all =>
    refine ⟨⟨'x', by simp, rfl⟩, fun c is_one => ?_⟩
    rw [String.toList_ofList, List.mem_cons] at is_one
    rcases is_one with rfl | is_digit
    · rfl
    · exact isNamePart_of_isDigit (all c is_digit)
  | identifier identifier => exact identifier

/-- No comma stands in a key. -/
theorem KeyNames.no_comma (names : KeyNames key name) : ∀ c ∈ key.toList, (c != ',') = true := by
  obtain ⟨front, back, front_blank, back_blank, split⟩ := Text.trim_split key.toList
  have inside : ∀ c ∈ Text.trim key.toList, c ≠ ',' := by
    rintro c is_one rfl
    cases names with
    | number filled all => cases all _ is_one
    | identifier identifier =>
      have part := identifier.goes_on ',' (by simpa [Text.trimmed] using is_one)
      revert part
      decide
  intro c is_one
  rw [bne_iff_ne]
  rintro rfl
  rw [split, List.mem_append, List.mem_append] at is_one
  rcases is_one with in_front | in_trimmed | in_back
  · cases front_blank _ in_front
  · exact inside _ in_trimmed rfl
  · cases back_blank _ in_back

theorem pairOf?_eq (names : PairNames key pair) : pairOf? key = some pair := by
  obtain ⟨left, right, rfl, left_names, right_names⟩ := names
  have run : (left ++ "," ++ right).toList.span (· != ',') = (left.toList, ',' :: right.toList) := by
    have run := Text.span_run left_names.no_comma
      (Text.stops_cons.mpr (by decide) : Text.Stops (· != ',') (',' :: right.toList))
    simpa using run
  rw [pairOf?, run]
  simp [weightName_eq left_names, weightName_eq right_names]

end Keys

/-! ## Variables in the order of their declaration -/

section Declaring

/-- Variables that are all binary. -/
def binaries (names : List String) : Variables := names.map (⟨·, .binary⟩)

theorem binaries_nil : binaries [] = [] := rfl

theorem declare_binaries (names : List String) (name : String) :
    (binaries names).declare name .binary =
      binaries (if name ∈ names then names else names ++ [name]) := by
  induction names with
  | nil => rfl
  | cons first rest of_rest =>
    have step : (binaries (first :: rest)).declare name .binary =
        if first = name then ⟨name, .binary⟩ :: binaries rest
        else ⟨first, .binary⟩ :: (binaries rest).declare name .binary := rfl
    rw [step, of_rest]
    by_cases same : first = name
    · simp [same, binaries]
    · have other : name ≠ first := fun h => same h.symm
      by_cases later : name ∈ rest <;> simp [same, other, later, binaries]

theorem isSome_kind?_binaries {names : List String} {name : String} :
    ((binaries names).kind? name).isSome = true ↔ name ∈ names := by
  simp [Variables.kind?, binaries]

theorem declareNew_binaries (names : List String) (name : String) :
    declareNew (binaries names) name = binaries (if name ∈ names then names else names ++ [name]) := by
  rw [declareNew]
  by_cases known : name ∈ names
  · rw [if_pos (isSome_kind?_binaries.mpr known), if_pos known]
  · rw [if_neg (by simpa [isSome_kind?_binaries] using known), declare_binaries]

theorem eraseDups_concat (names : List String) (name : String) :
    (names ++ [name]).eraseDups =
      if name ∈ names.eraseDups then names.eraseDups else names.eraseDups ++ [name] := by
  rw [List.eraseDups_append]
  by_cases known : name ∈ names <;> simp [known, List.removeAll, List.eraseDups_cons]

theorem nodup_eraseDups (names : List String) : names.eraseDups.Nodup := by
  induction names using List.reverseRecOn with
  | nil => simp
  | append_singleton names name of_names =>
    rw [eraseDups_concat]
    split
    · exact of_names
    · rename_i new
      refine List.nodup_append.mpr ⟨of_names, List.nodup_singleton name, ?_⟩
      rintro earlier is_earlier _ is_last rfl
      rw [List.mem_singleton.mp is_last] at is_earlier
      exact new is_earlier

/-- Declaring one name more. -/
theorem declare_eraseDups (names : List String) (name : String) :
    (binaries names.eraseDups).declare name .binary = binaries (names ++ [name]).eraseDups := by
  rw [declare_binaries, eraseDups_concat]

theorem declareNew_eraseDups (names : List String) (name : String) :
    declareNew (binaries names.eraseDups) name = binaries (names ++ [name]).eraseDups := by
  rw [declareNew_binaries, eraseDups_concat]

end Declaring

/-! ## Terms -/

section Terms
variable {memory : Memory} {value : Value} {n : Int}

/-- The terms of an integer and the variables that it weighs: one, or none if the integer is zero. -/
def termTexts (n : Int) (names : List String) : List String :=
  if n = 0 then [] else [Text.joined " * " (toString n :: names)]

theorem weightOf_eq (weighs : Weighs memory value n) (group key : String) (names : List String) :
    ∃ weight, weightOf memory group key value = .ok weight ∧
      weightTerm weight names = termTexts n names := by
  obtain ⟨weight, number, small⟩ := weighs
  refine ⟨weight, by simp [weightOf, number, (Number.isWhole_of_smallInt? small).1], ?_⟩
  have text : Number.programText weight = toString n := by rw [Number.programText, small]
  have zero : weight == 0 ↔ n = 0 := by
    rcases Number.smallInt?_cases small with ⟨rfl, zero⟩ |
      ⟨sign, mantissa, exponent, canonical, whole, unpacked, rfl, positive, _⟩
    · simpa using zero
    · constructor
      · intro zero
        obtain ⟨_, other⟩ := Number.beq_zero_iff.mp zero
        rw [unpacked] at other
        cases other
      · intro zero
        cases sign <;> simp [Number.isMinus, Number.signed] at zero <;> omega
  rw [weightTerm, termTexts, text]
  by_cases nothing : n = 0
  · rw [if_pos (zero.mpr nothing), if_pos nothing]
  · rw [if_neg (mt zero.mp nothing), if_neg nothing]

theorem singleWeights_eq {properties : List (String × Value)} {single : List (String × Int)}
    (given : List.Forall₂ (fun property weight =>
      KeyNames property.1 weight.1 ∧ Weighs memory property.2 weight.2) properties single)
    (names back : List String) : singleWeights memory (binaries names.eraseDups, back) properties =
      .ok (binaries (names ++ single.map Prod.fst).eraseDups,
        (single.flatMap fun weight => termTexts weight.2 [weight.1]).reverse ++ back) := by
  -- What is declared so far is always a list of names without its repetitions.
  induction given generalizing names back with
  | nil => simp [singleWeights]
  | @cons property weight properties single first _ of_rest =>
    obtain ⟨key_names, weighs⟩ := first
    obtain ⟨found, found_weight, term⟩ := weightOf_eq weighs "linear" property.1 [weight.1]
    rw [singleWeights, weightName_eq key_names, found_weight]
    change singleWeights memory ((binaries names.eraseDups).declare weight.1 .binary,
      (weightTerm found [weight.1]).reverse ++ back) properties = _
    rw [declare_eraseDups, term, of_rest]
    simp

theorem pairWeights_eq {properties : List (String × Value)} {pairs : List ((String × String) × Int)}
    (given : List.Forall₂ (fun property weight =>
      PairNames property.1 weight.1 ∧ Weighs memory property.2 weight.2) properties pairs)
    (names back : List String) : pairWeights memory (binaries names.eraseDups, back) properties =
      .ok (binaries (names ++ pairs.flatMap fun weight => [weight.1.1, weight.1.2]).eraseDups,
        (pairs.flatMap fun weight => termTexts weight.2 [weight.1.1, weight.1.2]).reverse ++ back) := by
  induction given generalizing names back with
  | nil => simp [pairWeights]
  | @cons property weight properties pairs first _ of_rest =>
    obtain ⟨key_names, weighs⟩ := first
    obtain ⟨found, found_weight, term⟩ :=
      weightOf_eq weighs "quadratic" property.1 [weight.1.1, weight.1.2]
    obtain ⟨⟨a, b⟩, n⟩ := weight
    rw [pairWeights, pairOf?_eq key_names]
    simp only [found_weight]
    change pairWeights memory (declareNew (declareNew (binaries names.eraseDups) a) b,
      (weightTerm found [a, b]).reverse ++ back) properties = _
    rw [declareNew_eraseDups, declareNew_eraseDups, term, of_rest]
    simp

end Terms

/-! ## The payload -/

section Made
variable {memory : Memory} {entries : Entries} {single : List (String × Int)}
  {pairs : List ((String × String) × Int)}

/-- Integers and the variables that each of them weighs. -/
def weighings (single : List (String × Int)) (pairs : List ((String × String) × Int)) :
    List (Int × List String) :=
  single.map (fun weight => (weight.2, [weight.1])) ++
    pairs.map fun weight => (weight.2, [weight.1.1, weight.1.2])

/-- A sum of all terms, zero if there are none. -/
def objectiveText (weighed : List (Int × List String)) : String :=
  let texts := weighed.flatMap fun weighing => termTexts weighing.1 weighing.2
  if texts.isEmpty then "0" else Text.joined " + " texts

/-- The variables of a payload of weights: those that are named, or one that is made up. -/
def declaredFor (names : List String) : List String := if names = [] then ["x0"] else names

theorem checkSizes_binaries {names : List String} (few : names.length ≤ nameLimit) :
    checkSizes (binaries names) = .ok () := by
  have none_large : (binaries names).find? (fun v => nameLimit < v.kind.size) = none := by
    simp [binaries, VariableKind.size, nameLimit]
  have size : (binaries names).size = names.length := by
    rw [← Variables.length_allNames]
    simp [Variables.allNames, binaries, VariableKind.allNames, List.flatMap_map]
  rw [checkSizes, none_large, size]
  simp [few]

/-- The payload that weights become. -/
def weightsPayload (single : List (String × Int)) (pairs : List ((String × String) × Int)) : Payload :=
  let names := weighedNames single pairs
  let unknowns := binaries (declaredFor names)
  ⟨unknowns, if names = [] then [] else [exactlyOne unknowns],
    objectiveText (weighings single pairs), defaultAnswer unknowns⟩

theorem payloadOfWeights_eq (given : GivesWeights memory entries single pairs)
    (few : (weighedNames single pairs).length ≤ nameLimit) : payloadOfWeights memory entries =
      .ok (weightsPayload single pairs, decide (weighedNames single pairs = [])) := by
  have first : singleWeights memory ([], []) (propertiesOf memory (field entries ["linear"])) =
      .ok (binaries (single.map Prod.fst).eraseDups,
        (single.flatMap fun weight => termTexts weight.2 [weight.1]).reverse) := by
    simpa [binaries_nil] using singleWeights_eq given.linear [] []
  have second : pairWeights memory (binaries (single.map Prod.fst).eraseDups,
        (single.flatMap fun weight => termTexts weight.2 [weight.1]).reverse)
      (propertiesOf memory (field entries ["quadratic"])) =
        .ok (binaries (weighedNames single pairs), ((weighings single pairs).flatMap
          fun weighing => termTexts weighing.1 weighing.2).reverse) := by
    simpa [weighings, weighedNames, List.flatMap_map] using
      pairWeights_eq given.quadratic (single.map Prod.fst) _
  simp only [payloadOfWeights, first, second, checkSizes_binaries few, bind, Except.bind,
    weightsPayload, objectiveText, List.isEmpty_reverse, List.reverse_reverse]
  cases named : weighedNames single pairs with
  | nil => rfl
  | cons name names => rfl

end Made

/-! ## The objective -/

section Objective

/-- The term of an integer and the variables that it weighs, as a text and as a formula. -/
def termText (weighing : Int × List String) : String :=
  Text.joined " * " (toString weighing.1 :: weighing.2)

def termFormula (weighing : Int × List String) : Formula :=
  productOf (ofInt weighing.1) (weighing.2.map Formula.reference)

/-- An integer of a bounded length weighs variables that a formula can refer to. -/
structure Sound (weighing : Int × List String) : Prop where
  small : weighing.1.natAbs < 10 ^ Number.significantDigits
  identifiers : ∀ name ∈ weighing.2, IsIdentifier name

theorem flatMap_termTexts (weighed : List (Int × List String)) :
    weighed.flatMap (fun weighing => termTexts weighing.1 weighing.2) =
      (weighed.filter fun weighing => weighing.1 ≠ 0).map termText := by
  induction weighed with
  | nil => rfl
  | cons weighing rest of_rest =>
    rw [List.flatMap_cons, of_rest]
    by_cases zero : weighing.1 = 0 <;> simp [termTexts, termText, zero]

variable {weighing : Int × List String}

theorem Sound.spelled (sound : Sound weighing) :
    Spelled (IsProduct (IsOperand Formula.nestingLimit)) (termText weighing).toList (termFormula weighing) := by
  refine spelled_product (spelled_int sound.small 254) ?_
  rw [List.forall₂_map_right_iff, List.forall₂_same]
  exact fun name weighed => (sound.identifiers name weighed).spelled_operand 255

theorem Sound.solid (sound : Sound weighing) : Text.Solid (termText weighing).toList :=
  Text.solid_joined (solid_int _) fun name weighed => (sound.identifiers name weighed).solid

theorem mentions_termFormula {name : String} (mentioned : (termFormula weighing).Mentions name) :
    name ∈ weighing.2 := by
  simp only [termFormula, mentions_productOf_iff, List.mem_cons, List.mem_map, exists_eq_or_imp,
    not_mentions_ofInt, false_or] at mentioned
  obtain ⟨_, ⟨factor, is_factor, rfl⟩, inside⟩ := mentioned
  rwa [mentions_reference_iff.mp inside]

theorem exactValue_termFormula (values : String → Int) (weighing : Int × List String) :
    exactValue values (termFormula weighing) = some (weighing.1 * (weighing.2.map values).prod) :=
  exactValue_productOf (exactValue_ofInt _) (forall₂_map fun name _ => exactValue_reference name)

theorem sum_filter_weighings (weighed : List (Int × List String)) (product : List String → Int) :
    ((weighed.filter fun weighing => weighing.1 ≠ 0).map fun weighing =>
      weighing.1 * product weighing.2).sum =
        (weighed.map fun weighing => weighing.1 * product weighing.2).sum := by
  induction weighed with
  | nil => rfl
  | cons weighing rest of_rest => by_cases zero : weighing.1 = 0 <;> simp_all

/-- The objective's text is read as a formula over the variables that are weighed, whose value is their
weighted sum. -/
theorem read_objectiveText {weighed : List (Int × List String)}
    (sound : ∀ weighing ∈ weighed, Sound weighing) :
    ∃ formula, Formula.read (objectiveText weighed) = .ok formula ∧
      Text.Solid (objectiveText weighed).toList ∧
      (∀ name, formula.Mentions name → ∃ weighing ∈ weighed, name ∈ weighing.2) ∧
      ∀ values, exactValue values formula =
        some (weighed.map fun weighing => weighing.1 * (weighing.2.map values).prod).sum := by
  have sums (values : String → Int) := sum_filter_weighings weighed fun names => (names.map values).prod
  simp only [← sums]
  rw [objectiveText, flatMap_termTexts]
  have kept : ∀ weighing ∈ weighed.filter fun weighing => weighing.1 ≠ 0, weighing ∈ weighed :=
    fun weighing is_one => (List.mem_filter.mp is_one).1
  generalize weighed.filter (fun weighing => weighing.1 ≠ 0) = terms at kept
  cases terms with
  | nil =>
    exact ⟨ofInt 0, read_int 0 (Nat.pow_pos (by decide)), solid_int 0,
      fun name inside => absurd inside (not_mentions_ofInt 0), fun values => exactValue_ofInt 0⟩
  | cons first rest =>
    have each := fun weighing is_one => sound weighing (kept weighing is_one)
    rw [List.forall_mem_cons] at each
    refine ⟨sumOf (termFormula first) (rest.map termFormula), read_of_spelled ?_, ?_, ?_, ?_⟩
    · exact spelled_sum each.1.spelled (forall₂_map fun weighing later => (each.2 weighing later).spelled)
    · refine Text.solid_joined each.1.solid fun text later => ?_
      obtain ⟨weighing, is_one, rfl⟩ := List.mem_map.mp later
      exact (each.2 weighing is_one).solid
    · intro name mentioned
      rw [mentions_sumOf_iff, ← List.map_cons] at mentioned
      obtain ⟨_, is_term, mentioned⟩ := mentioned
      obtain ⟨weighing, is_one, rfl⟩ := List.mem_map.mp is_term
      exact ⟨weighing, kept weighing is_one, mentions_termFormula mentioned⟩
    · intro values
      rw [List.map_cons, List.sum_cons]
      exact exactValue_sumOf (exactValue_termFormula values first)
        (forall₂_map fun weighing _ => exactValue_termFormula values weighing)

end Objective

/-! ## The selection -/

section Selecting

/-- An assignment of zero and one to some names. -/
def IsAssignment (names : List String) (values : String → Int) : Prop :=
  ∀ name ∈ names, values name = 0 ∨ values name = 1

/-- One of some names is assigned one and all others zero. -/
def SelectsOnly (names : List String) (values : String → Int) (name : String) : Prop :=
  values name = 1 ∧ ∀ other ∈ names, other ≠ name → values other = 0

variable {unknowns : Variables} {values : String → Int} {member : String}

theorem sum_assignment {names : List String} (assignment : IsAssignment names values) :
    (names.map values).sum = names.countP fun name => values name = 1 := by
  induction names with
  | nil => rfl
  | cons name names of_names =>
    obtain ⟨first, others⟩ := List.forall_mem_cons.mp assignment
    rw [List.map_cons, List.sum_cons, of_names others, List.countP_cons]
    rcases first with zero | one
    · simp [zero]
    · simp [one, Int.add_comm]

theorem Selectable.reads_exactlyOne (selectable : Selectable unknowns) (values : String → Int) :
    Formula.Reads (exactlyOne unknowns).lhs values (unknowns.allNames.map values).sum := by
  obtain ⟨first, rest, split, identifiers, _⟩ := selectable.exists_members
  rw [exactlyOne, selectable.selectors_eq, split]
  exact ⟨_, read_selection identifiers, exactValue_sumOf (exactValue_reference first)
    (forall₂_map fun name _ => exactValue_reference name)⟩

theorem smallInt?_one : Number.smallInt? 1 = some 1 := by decide +kernel

/-- The constraint that is made up holds if exactly one member is selected. -/
theorem Selectable.holdsExactly_iff (selectable : Selectable unknowns)
    (distinct : unknowns.allNames.Nodup) (assignment : IsAssignment unknowns.allNames values) :
    (exactlyOne unknowns).HoldsExactly values ↔
      ∃! member, member ∈ unknowns.allNames ∧ values member = 1 := by
  have reads := selectable.reads_exactlyOne values
  rw [sum_assignment assignment] at reads
  have one := countP_eq_one_iff distinct fun name => values name = 1
  simp only [decide_eq_true_eq] at one
  rw [← one]
  constructor
  · rintro ⟨left, right, read, is_right, equal⟩
    cases smallInt?_one.symm.trans is_right
    rw [read.unique reads] at equal
    exact Int.ofNat.inj equal
  · intro count
    exact ⟨_, 1, reads, smallInt?_one, by rw [count]; rfl⟩

theorem sum_numbers_eq_zero {members : List String} {place : Nat}
    (unselected : ∀ member ∈ members, values member = 0) :
    ((members.zipIdx place).map fun member => (numberOf member.1 member.2 : Int) * values member.1).sum
      = 0 := by
  refine List.sum_eq_zero fun n is_one => ?_
  obtain ⟨member, inside, rfl⟩ := List.mem_map.mp is_one
  rw [unselected _ (List.fst_mem_of_mem_zipIdx inside), Int.mul_zero]

/-- The answer that is made up is the number of the member that is selected. -/
theorem Selectable.reads_defaultAnswer (selectable : Selectable unknowns)
    (distinct : unknowns.allNames.Nodup) (is_member : member ∈ unknowns.allNames)
    (only : SelectsOnly unknowns.allNames values member) :
    Formula.Reads (defaultAnswer unknowns) values
      (numberOf member (unknowns.allNames.idxOf member)) := by
  obtain ⟨front, back, members, before, behind, place⟩ := exists_split distinct is_member
  have value : ((unknowns.allNames.zipIdx).map fun member =>
      (numberOf member.1 member.2 : Int) * values member.1).sum =
        numberOf member (unknowns.allNames.idxOf member) := by
    have others (other : String) (is_other : other ∈ unknowns.allNames) (differs : other ≠ member) :
        values other = 0 := only.2 other is_other differs
    rw [place]
    rw [members] at others ⊢
    rw [List.zipIdx_append, List.zipIdx_cons, List.map_append, List.map_cons, List.sum_append,
      List.sum_cons, sum_numbers_eq_zero, sum_numbers_eq_zero, only.1]
    · simp
    · rintro other later
      exact others other (by simp [later]) (by rintro rfl; exact behind later)
    · rintro other earlier
      exact others other (by simp [earlier]) (by rintro rfl; exact before earlier)
  obtain ⟨first, rest, split, identifiers, few⟩ := selectable.exists_members
  rw [← value]
  rw [defaultAnswer, selectable.selectors_eq, split]
  have evaluated (member : String × Nat) : exactValue values (numberedFormula member) =
      some ((numberOf member.1 member.2 : Int) * values member.1) := by
    have factor : exactValue values (.number ⟨false, numberOf member.1 member.2, 0⟩) =
        some (numberOf member.1 member.2 : Int) := exactValue_nat _
    have product := exactValue_productOf factor (.cons (exactValue_reference member.1) .nil)
    simpa [numberedFormula] using product
  exact ⟨_, read_numbered identifiers few, exactValue_sumOf (evaluated _)
    (forall₂_map fun member _ => evaluated member)⟩

end Selecting

/-! ## What payloads of weights mean -/

section Meaning
variable {memory : Memory} {id : Nat} {single : List (String × Int)}
  {pairs : List ((String × String) × Int)}

/-- A payload says in integer arithmetic what weights say. -/
structure Means (single : List (String × Int)) (pairs : List ((String × String) × Int))
    (payload : Payload) : Prop where
  unknowns : payload.unknowns = binaries (declaredFor (weighedNames single pairs))
  accepted : payload.normalize = .ok payload
  objective : ∀ values, Formula.Reads payload.objective values
    ((single.map fun weight => weight.2 * values weight.1).sum +
      (pairs.map fun weight => weight.2 * values weight.1.1 * values weight.1.2).sum)
  selection : weighedNames single pairs ≠ [] → ∃ constraint, payload.constraints = [constraint] ∧
    ∀ values, IsAssignment (weighedNames single pairs) values → (constraint.HoldsExactly values ↔
      ∃! name, name ∈ weighedNames single pairs ∧ values name = 1)
  answer : ∀ name ∈ declaredFor (weighedNames single pairs), ∀ values,
    SelectsOnly (declaredFor (weighedNames single pairs)) values name →
      ∃ n : Nat, HasNumber (declaredFor (weighedNames single pairs)) name n ∧
        Formula.Reads payload.answer values n

theorem allNames_binaries (names : List String) : (binaries names).allNames = names := by
  simp [Variables.allNames, binaries, VariableKind.allNames, List.flatMap_map]

theorem nodup_declaredFor {names : List String} (distinct : names.Nodup) :
    (declaredFor names).Nodup := by
  unfold declaredFor
  split
  · exact List.nodup_singleton "x0"
  · exact distinct

theorem isIdentifier_placeholder : IsIdentifier "x0" where
  starts := ⟨'x', rfl, rfl⟩
  goes_on := List.forall_mem_cons.mpr ⟨rfl, List.forall_mem_cons.mpr ⟨rfl, by simp⟩⟩

theorem selectable_binaries {names : List String} (identifiers : ∀ name ∈ names, IsIdentifier name)
    (few : names.length ≤ nameLimit) : Selectable (binaries (declaredFor names)) where
  filled := by
    unfold declaredFor binaries
    split
    · simp
    · simpa
  named := by
    intro v is_unknown
    obtain ⟨name, is_name, rfl⟩ := List.mem_map.mp is_unknown
    unfold declaredFor at is_name
    split at is_name
    · rw [List.mem_singleton.mp is_name]
      exact isIdentifier_placeholder
    · exact identifiers name is_name
  binary := by
    intro v is_unknown
    obtain ⟨name, _, rfl⟩ := List.mem_map.mp is_unknown
    exact .inl rfl
  few := by
    rw [allNames_binaries, declaredFor]
    split
    · decide
    · exact few

theorem forall_of_forall₂ {α β : Type} {relation : α → β → Prop} {property : β → Prop} {as : List α}
    {bs : List β} (related : List.Forall₂ relation as bs)
    (of_related : ∀ {a b}, relation a b → property b) : ∀ b ∈ bs, property b := by
  induction related with
  | nil => simp
  | cons first _ of_rest => exact List.forall_mem_cons.mpr ⟨of_related first, of_rest⟩

theorem Weighs.small {value : Value} {n : Int} (weighs : Weighs memory value n) :
    n.natAbs < 10 ^ Number.significantDigits := by
  obtain ⟨weight, _, small⟩ := weighs
  have bound := Number.smallInt?_bound small
  have power : 2 ^ 54 < 10 ^ Number.significantDigits :=
    Number.two_pow_lt_ten_pow (by decide) (by decide)
  omega

theorem GivesWeights.sound {entries : Entries} (given : GivesWeights memory entries single pairs) :
    ∀ weighing ∈ weighings single pairs, Sound weighing := by
  rw [weighings, List.forall_mem_append, List.forall_mem_map, List.forall_mem_map]
  constructor
  · refine forall_of_forall₂ given.linear fun {property weight} related => ⟨related.2.small, ?_⟩
    simpa using related.1.isIdentifier
  · refine forall_of_forall₂ given.quadratic fun {property weight} related => ⟨related.2.small, ?_⟩
    obtain ⟨left, right, _, left_names, right_names⟩ := related.1
    simpa using ⟨left_names.isIdentifier, right_names.isIdentifier⟩

/-- The variables that are named are those that are weighed. -/
theorem mem_weighedNames_iff {name : String} :
    name ∈ weighedNames single pairs ↔ ∃ weighing ∈ weighings single pairs, name ∈ weighing.2 := by
  simp [weighedNames, weighings, or_and_right, exists_or, eq_comm]

theorem weighedNames_eq_nil_iff : weighedNames single pairs = [] ↔ single = [] ∧ pairs = [] := by
  rw [weighedNames, List.eq_nil_iff_forall_not_mem]
  simp only [List.mem_eraseDups]
  rw [← List.eq_nil_iff_forall_not_mem, List.append_eq_nil_iff, List.map_eq_nil_iff,
    List.flatMap_eq_nil_iff]
  simp only [List.cons_ne_nil, imp_false, ← List.eq_nil_iff_forall_not_mem]

theorem payloadOf_weights (given : GivesWeights memory (memory.entries id) single pairs)
    (few : (weighedNames single pairs).length ≤ nameLimit) : payloadOf memory (.object id) =
      .ok (weightsPayload single pairs, .weights, decide (weighedNames single pairs = [])) := by
  have no_field : fieldKeys.any (memory.entries id).contains = false := by
    simpa using given.no_field
  have shape : shapeOf? (memory.entries id) = some .weights := by
    simp only [shapeOf?, no_field, given.some_weights, if_true, Bool.false_eq_true, if_false]
  simp only [payloadOf, shape, payloadOfWeights_eq given few]
  rfl

theorem means_weightsPayload {entries : Entries} (given : GivesWeights memory entries single pairs)
    (few : (weighedNames single pairs).length ≤ nameLimit) :
    Means single pairs (weightsPayload single pairs) := by
  have identifiers : ∀ name ∈ weighedNames single pairs, IsIdentifier name := by
    intro name is_name
    obtain ⟨weighing, is_one, weighed⟩ := mem_weighedNames_iff.mp is_name
    exact (given.sound weighing is_one).identifiers name weighed
  have selectable := selectable_binaries identifiers few
  have members := allNames_binaries (declaredFor (weighedNames single pairs))
  have distinct : (binaries (declaredFor (weighedNames single pairs))).allNames.Nodup := by
    rw [members]
    exact nodup_declaredFor (nodup_eraseDups _)
  obtain ⟨objective, read, solid, mentions, value⟩ := read_objectiveText given.sound
  refine ⟨rfl, selectable.normalize ?_ solid (isFormulaOver_of_solid solid read ?_), ?_, ?_, ?_⟩
  · intro constraint is_one
    split at is_one
    · cases is_one
    · exact List.mem_singleton.mp is_one
  · intro name mentioned
    have named := mem_weighedNames_iff.mpr (mentions name mentioned)
    rw [members, declaredFor, if_neg (List.ne_nil_of_mem named)]
    exact named
  · intro values
    refine ⟨objective, read, ?_⟩
    rw [value]
    simp [weighings, Function.comp_def, Int.mul_assoc]
  · intro some_name
    refine ⟨_, if_neg some_name, fun values assignment => ?_⟩
    have same : declaredFor (weighedNames single pairs) = weighedNames single pairs := if_neg some_name
    rw [same] at selectable members distinct ⊢
    have holds := selectable.holdsExactly_iff distinct (by rwa [members])
    rwa [members] at holds
  · intro name is_name values only
    have reads := selectable.reads_defaultAnswer distinct (by rwa [members]) (by rwa [members])
    rw [members] at reads
    exact ⟨_, hasNumber _ _, reads⟩

/-- Weights of integers below nine quadrillion become a payload that means the same, with a variable made
up if they name none. -/
theorem weights_keep_meaning (given : GivesWeights memory (memory.entries id) single pairs)
    (few : (weighedNames single pairs).length ≤ nameLimit) :
    ∃ payload made, payloadOf memory (.object id) = .ok (payload, .weights, made) ∧
      Means single pairs payload ∧ (made = true ↔ single = [] ∧ pairs = []) :=
  ⟨_, _, payloadOf_weights given few, means_weightsPayload given few,
    decide_eq_true_iff.trans weighedNames_eq_nil_iff⟩

/-- Weights that name one variable by its number, by its name and in a pair with itself. -/
def mixedSingle : List (String × Int) := [("x0", 0), ("x2", -5), ("x2", 7)]

def mixedPairs : List ((String × String) × Int) := [(("x0", "x2"), 3), (("side", "side"), -1)]

/-- A result that gives them. -/
def mixedWeights : Memory where
  arrays := #[]
  objects := #[
    #[("0", .number 0), (" 2", .str "-5"), ("x2", .number 7)],
    #[("0,2", .number 3), ("side, side", .number (-1))],
    #[("linear", .object 0), ("quadratic", .object 1)]]
  closures := #[]
  frames := #[]
  steps := 0
  trace := []
  traceSize := none

theorem mixedWeights_given :
    GivesWeights mixedWeights (mixedWeights.entries 2) mixedSingle mixedPairs where
  no_field := by decide
  some_weights := rfl
  linear :=
    .cons ⟨.number (by decide) (List.all_eq_true.mp rfl), _, rfl, by decide +kernel⟩ <|
    .cons ⟨.number (by decide) (List.all_eq_true.mp rfl), _, rfl, by decide +kernel⟩ <|
    .cons ⟨.identifier ⟨⟨'x', rfl, rfl⟩, List.all_eq_true.mp rfl⟩, _, rfl, by decide +kernel⟩ .nil
  quadratic :=
    .cons ⟨⟨"0", "2", rfl, .number (by decide) (List.all_eq_true.mp rfl),
      .number (by decide) (List.all_eq_true.mp rfl)⟩, _, rfl, by decide +kernel⟩ <|
    .cons ⟨⟨"side", " side", rfl, .identifier ⟨⟨'s', rfl, rfl⟩, List.all_eq_true.mp rfl⟩,
      .identifier ⟨⟨'s', rfl, rfl⟩, List.all_eq_true.mp rfl⟩⟩, _, rfl, by decide +kernel⟩ .nil

theorem weights_keep_meaning_mixed :
    GivesWeights mixedWeights (mixedWeights.entries 2) mixedSingle mixedPairs ∧
      (weighedNames mixedSingle mixedPairs).length ≤ nameLimit ∧
      ∃ payload made, payloadOf mixedWeights (.object 2) = .ok (payload, .weights, made) ∧
        Means mixedSingle mixedPairs payload ∧ (made = true ↔ mixedSingle = [] ∧ mixedPairs = []) :=
  ⟨mixedWeights_given, by decide, weights_keep_meaning mixedWeights_given (by decide)⟩

end Meaning
end Tabletop.Scoring

import Mathlib.Data.List.Nodup
import Tabletop.Proofs.Payload.Owners
import Tabletop.Proofs.Payload.Texts
import Tabletop.Scoring.Defaults

/-!
What is made up for variables that select: the constraint on them and the answer. Both texts are sums over
all members in order, and they are read as these sums. The number of a member is the integer that its name
ends in, or its place.
-/

namespace Tabletop

namespace Number

/-- Digits that were read up to a bound are below it. -/
theorem natBelow?_eq_some {bound n : Nat} {digits : List Char} (read : natBelow? bound digits = some n) :
    n = natOfDigits digits ∧ (digits ≠ [] → n < bound) := by
  induction digits using List.reverseRecOn generalizing n with
  | nil =>
    cases read
    exact ⟨rfl, fun filled => absurd rfl filled⟩
  | append_singleton digits c of_digits =>
    unfold natBelow? at read of_digits
    rw [List.foldlM_append] at read
    obtain ⟨front, front_read, last⟩ := Option.bind_eq_some_iff.mp read
    obtain ⟨rfl, -⟩ := of_digits front_read
    rw [natOfDigits_concat]
    simp only [List.foldlM_cons, List.foldlM_nil] at last
    split at last
    · rename_i below
      cases last
      exact ⟨rfl, fun _ => below⟩
    · cases last

end Number

namespace Payload.Formula

variable {name : String} {α : Type}

theorem mentions_sumOf_iff {first : Formula} {rest : List Formula} :
    Mentions name (sumOf first rest) ↔ ∃ term ∈ first :: rest, Mentions name term := by
  cases rest with
  | nil => simp [sumOf, chainOf]
  | cons next rest =>
    rw [sumOf, chainOf, mentions_sum_iff]
    simp

theorem mentions_productOf_iff {first : Formula} {rest : List Formula} :
    Mentions name (productOf first rest) ↔ ∃ factor ∈ first :: rest, Mentions name factor := by
  cases rest with
  | nil => simp [productOf, chainOf]
  | cons next rest =>
    rw [productOf, chainOf, mentions_product_iff]
    simp

theorem not_mentions_number {value : Number.Decimal} : ¬ Mentions name (.number value) := nofun

theorem not_mentions_ofInt (n : Int) : ¬ (ofInt n).Mentions name := by
  cases n with
  | ofNat n => exact not_mentions_number
  | negSucc n => exact fun inside => not_mentions_number (mentions_neg_iff.mp inside)

end Payload.Formula

namespace Payload

theorem isFormulaOver_of_solid {names : List String} {text : String} (solid : Text.Solid text.toList)
    {formula : Formula} (read : Formula.read text = .ok formula)
    (known : ∀ name, formula.Mentions name → name ∈ names) : IsFormulaOver names text where
  filled blank := by
    obtain ⟨c, rest, split⟩ := List.exists_cons_of_ne_nil solid.filled
    have front := solid.front
    rw [split, Text.stops_cons] at front
    simp [blank c (by simp [split])] at front
  readable := ⟨formula, by rwa [Text.trimmed_of_solid solid], known⟩

end Payload

namespace Scoring

open Payload Payload.Formula

/-! ## Numbers of members -/

/-- A name ends in an integer, all the digits at its end taken. -/
def EndsIn (name : String) (n : Nat) : Prop :=
  ∃ front digits, name.toList = front ++ digits ∧ digits ≠ [] ∧ (∀ c ∈ digits, c.isDigit) ∧
    Text.Stops Char.isDigit front.reverse ∧ Number.natOfDigits digits = n

/-- The number of a member is the integer that its name ends in, or its place among all members if there is
none below 2^64. -/
inductive HasNumber (members : List String) (member : String) : Nat → Prop
  | ending {n : Nat} (ends : EndsIn member n) (small : n < 2 ^ 64) : HasNumber members member n
  | place (none_small : ∀ n, EndsIn member n → 2 ^ 64 ≤ n) :
    HasNumber members member (members.idxOf member)

theorem endsIn_iff {name : String} {n : Nat} :
    EndsIn name n ↔ trailingDigits name ≠ [] ∧ Number.natOfDigits (trailingDigits name) = n := by
  constructor
  · rintro ⟨front, digits, split, filled, all, stops, rfl⟩
    have run := Text.span_run (fun c is_one => all c (List.mem_reverse.mp is_one)) stops
    rw [← List.reverse_append, ← split, List.span_eq_takeWhile_dropWhile] at run
    have same : trailingDigits name = digits := by
      rw [trailingDigits, (Prod.mk.inj run).1, List.reverse_reverse]
    rw [same]
    exact ⟨filled, rfl⟩
  · rintro ⟨filled, rfl⟩
    refine ⟨(name.toList.reverse.dropWhile Char.isDigit).reverse, trailingDigits name, ?_, filled,
      ?_, ?_, rfl⟩
    · rw [trailingDigits, ← List.reverse_append, List.takeWhile_append_dropWhile, List.reverse_reverse]
    · exact fun c is_one => List.mem_takeWhile_imp (List.mem_reverse.mp is_one)
    · rw [List.reverse_reverse]
      exact Text.stops_dropWhile _

/-- The number that a member of a place gets. -/
def numberOf (member : String) (place : Nat) : Nat := (trailingIndex? member).getD place

theorem hasNumber (members : List String) (member : String) :
    HasNumber members member (numberOf member (members.idxOf member)) := by
  unfold numberOf trailingIndex?
  split
  · rename_i no_digits
    exact .place fun n ends => absurd no_digits (endsIn_iff.mp ends).1
  · rename_i digits no_nil
    cases read : Number.natBelow? (Nat.pow 2 64) (trailingDigits member) with
    | none =>
      -- The digits are a number, but none below 2^64.
      refine .place fun n ends => ?_
      by_contra small
      rw [← (endsIn_iff.mp ends).2] at small
      rw [Number.natBelow?_of_lt (by simpa using small)] at read
      cases read
    | some n =>
      obtain ⟨value, below⟩ := Number.natBelow?_eq_some read
      exact .ending (endsIn_iff.mpr ⟨no_nil, value.symm⟩) (below no_nil)

theorem numberOf_lt (member : String) {place : Nat} (small : place < nameLimit) :
    numberOf member place < 2 ^ 64 := by
  unfold numberOf
  cases index : trailingIndex? member with
  | none => exact small.trans (by decide)
  | some n =>
    unfold trailingIndex? at index
    split at index
    · cases index
    · rename_i digits no_nil
      exact (Number.natBelow?_eq_some index).2 no_nil

/-! ## Variables that select -/

/-- Variables of zero and one: binary ones and arrays of such, all with identifiers for names. -/
structure Selectable (unknowns : Variables) : Prop where
  filled : unknowns ≠ []
  named : ∀ v ∈ unknowns, IsIdentifier v.name
  binary : ∀ v ∈ unknowns, v.kind = .binary ∨ ∃ shape, v.kind = .array shape .binary ∧ 0 < shape.size
  few : unknowns.allNames.length ≤ nameLimit

variable {unknowns : Variables}

theorem isNamePart_of_isDigit {c : Char} (digit : c.isDigit) : isNamePart c := by
  have low : c.toNat ≤ 57 := (Char.isDigit_iff_toNat.mp digit).2
  simp [isNamePart, Text.isLetterOrNumber, show c.toNat < 128 by omega, Char.isAlphanum, digit]

/-- A cell of an array is called by an identifier if the array is. -/
theorem isIdentifier_cell {name : String} (identifier : IsIdentifier name) (index : Nat) :
    IsIdentifier s!"{name}_{index}" where
  starts := by
    obtain ⟨c, is_first, starts⟩ := identifier.starts
    refine ⟨c, ?_, starts⟩
    rw [toList_cell, List.head?_append_of_ne_nil _ identifier.solid.filled]
    exact is_first
  goes_on := by
    intro c is_one
    rw [toList_cell, List.mem_append, List.mem_cons] at is_one
    rcases is_one with in_name | rfl | in_index
    · exact identifier.goes_on c in_name
    · rfl
    · exact isNamePart_of_isDigit (Number.isDigit_of_mem_toDigits in_index)

theorem Selectable.isIdentifier (selectable : Selectable unknowns) :
    ∀ member ∈ unknowns.allNames, IsIdentifier member := by
  intro member is_member
  obtain ⟨v, is_unknown, of_v⟩ := List.mem_flatMap.mp is_member
  have identifier := selectable.named v is_unknown
  rcases selectable.binary v is_unknown with kind | ⟨shape, kind, _⟩
  · rw [kind] at of_v
    rwa [List.mem_singleton.mp of_v]
  · rw [kind, mem_allNames_iff] at of_v
    rcases of_v with ⟨own, _⟩ | made
    · exact own.elim
    · cases made with
      | cell inside => exact isIdentifier_cell identifier _
      | gridCell row_inside column_inside =>
        exact isIdentifier_cell (isIdentifier_cell identifier _) _

/-- All members can be selected. -/
theorem Selectable.selectors_eq (selectable : Selectable unknowns) :
    unknowns.selectors = unknowns.allNames := by
  rw [← unknowns.declaredNames_eq fun v is_unknown => ?_]
  · refine List.flatMap_congr fun v is_unknown => ?_
    rcases selectable.binary v is_unknown with kind | ⟨shape, kind, _⟩
    · rw [kind]
      rfl
    · rw [kind]
      rfl
  · rw [← VariableKind.length_allNames _ v.name]
    exact (Variables.size_le_of_mem is_unknown).trans selectable.few

theorem Selectable.sensible (selectable : Selectable unknowns) :
    ∀ v ∈ unknowns, v.kind.Sensible := by
  intro v is_unknown
  rcases selectable.binary v is_unknown with kind | ⟨shape, kind, cells⟩
  · rw [kind]
    trivial
  · rw [kind]
    exact cells

theorem Selectable.allNames_ne_nil (selectable : Selectable unknowns) : unknowns.allNames ≠ [] := by
  obtain ⟨v, rest, split⟩ := List.exists_cons_of_ne_nil selectable.filled
  have is_unknown : v ∈ unknowns := by simp [split]
  have within := Variables.size_le_of_mem is_unknown
  rw [VariableKind.length_allNames] at within
  intro nothing
  rw [nothing] at within
  rcases selectable.binary v is_unknown with kind | ⟨shape, kind, cells⟩
  · rw [kind] at within
    cases within
  · rw [kind] at within
    exact absurd within (Nat.not_le.mpr cells)

/-! ## One of all members -/

/-- One member passes a test if the members that pass are one in number. -/
theorem countP_eq_one_iff {members : List String} (distinct : members.Nodup) (p : String → Bool) :
    members.countP p = 1 ↔ ∃! member, member ∈ members ∧ p member = true := by
  rw [List.countP_eq_length_filter, List.length_eq_one_iff]
  constructor
  · rintro ⟨member, only⟩
    have passes (other : String) : other ∈ members ∧ p other = true ↔ other = member := by
      rw [← List.mem_filter, only, List.mem_singleton]
    exact ⟨member, (passes member).mpr rfl, fun other passed => (passes other).mp passed⟩
  · rintro ⟨member, ⟨is_member, passed⟩, unique⟩
    have same : members.filter p = members.filter (· == member) := by
      refine List.filter_congr fun other is_other => ?_
      rw [Bool.eq_iff_iff, beq_iff_eq]
      exact ⟨fun passed => unique other ⟨is_other, passed⟩, by rintro rfl; exact passed⟩
    exact ⟨member, by rw [same, List.filter_beq, List.count_eq_one_of_mem distinct is_member]; rfl⟩

/-- The members before a member and those behind it are others. -/
theorem exists_split {members : List String} {member : String} (distinct : members.Nodup)
    (is_member : member ∈ members) : ∃ front back, members = front ++ member :: back ∧
      member ∉ front ∧ member ∉ back ∧ members.idxOf member = front.length := by
  obtain ⟨front, back, rfl, before⟩ := List.eq_append_cons_of_mem is_member
  have behind : member ∉ back := (List.nodup_cons.mp (List.nodup_append.mp distinct).2.1).1
  exact ⟨front, back, rfl, before, behind, by rw [List.idxOf_append_of_notMem before]; simp⟩

/-! ## Made-up texts -/

variable {members : List String} {member first : String} {rest : List String}

/-- A member that has a number, as a formula and as a text. -/
def numberedFormula (member : String × Nat) : Formula :=
  productOf (.number ⟨false, numberOf member.1 member.2, 0⟩) [.reference member.1]

def numberedText (member : String × Nat) : String :=
  Text.joined " * " [Nat.repr (numberOf member.1 member.2), member.1]

theorem numberedTerms_eq (place : Nat) (members : List String) :
    numberedTerms place members = (members.zipIdx place).map numberedText := by
  induction members generalizing place with
  | nil => rfl
  | cons member rest of_rest =>
    rw [numberedTerms, of_rest, List.zipIdx_cons, List.map_cons]
    rfl

theorem spelled_selection (identifiers : ∀ member ∈ members, IsIdentifier member) (levels : Nat) :
    List.Forall₂ (fun text => Spelled (IsProduct (IsOperand (levels + 1))) text.toList) members
      (members.map Formula.reference) := by
  rw [List.forall₂_map_right_iff, List.forall₂_same]
  exact fun member is_member => ((identifiers member is_member).spelled_operand levels).imp .alone

theorem read_selection (identifiers : ∀ member ∈ first :: rest, IsIdentifier member) :
    Formula.read (Text.joined " + " (first :: rest)) =
      .ok (sumOf (.reference first) (rest.map Formula.reference)) := by
  have spelled := spelled_selection identifiers 255
  rw [List.map_cons, List.forall₂_cons] at spelled
  exact read_of_spelled (spelled_sum spelled.1 spelled.2)

theorem spelled_numbered {member : String × Nat} (identifier : IsIdentifier member.1)
    (small : member.2 < nameLimit) (levels : Nat) :
    Spelled (IsProduct (IsOperand (levels + 1))) (numberedText member).toList
      (numberedFormula member) := by
  have below : numberOf member.1 member.2 < 10 ^ Number.significantDigits :=
    (numberOf_lt member.1 small).trans (Number.two_pow_lt_ten_pow (by decide) (by decide))
  exact spelled_product ((spelled_nat below).imp .atom)
    (.cons (identifier.spelled_operand levels) .nil)

theorem mem_zipIdx_small {member : String × Nat} (few : members.length ≤ nameLimit)
    (is_member : member ∈ members.zipIdx) : member.1 ∈ members ∧ member.2 < nameLimit := by
  obtain ⟨inside, same⟩ := List.mem_zipIdx' is_member
  rw [same]
  exact ⟨List.getElem_mem inside, inside.trans_le few⟩

theorem read_numbered (identifiers : ∀ member ∈ first :: rest, IsIdentifier member)
    (few : (first :: rest).length ≤ nameLimit) :
    Formula.read (Text.joined " + " (numberedTerms 0 (first :: rest))) =
      .ok (sumOf (numberedFormula (first, 0)) ((rest.zipIdx 1).map numberedFormula)) := by
  have spelled (member : String × Nat) (is_member : member ∈ (first :: rest).zipIdx) :
      Spelled (IsProduct (IsOperand nestingLimit)) (numberedText member).toList
        (numberedFormula member) := by
    obtain ⟨known, small⟩ := mem_zipIdx_small few is_member
    exact spelled_numbered (identifiers _ known) small 255
  rw [List.zipIdx_cons] at spelled
  rw [numberedTerms_eq, List.zipIdx_cons, List.map_cons]
  exact read_of_spelled (spelled_sum (spelled _ List.mem_cons_self)
    (forall₂_map fun member later => spelled member (List.mem_cons_of_mem _ later)))

/-! ## Acceptance -/

theorem solid_numbered {member : String × Nat} (identifier : IsIdentifier member.1) :
    Text.Solid (numberedText member).toList :=
  Text.solid_joined (solid_nat _) (by simpa using identifier.solid)

theorem mentions_numbered_iff {member : String × Nat} {name : String} :
    (numberedFormula member).Mentions name ↔ name = member.1 := by
  simp [numberedFormula, mentions_productOf_iff, not_mentions_number, mentions_reference_iff]

theorem isFinite_one : Number.isFinite 1 := by decide +kernel

section
variable (selectable : Selectable unknowns)
include selectable

theorem Selectable.exists_members : ∃ first rest, unknowns.allNames = first :: rest ∧
    (∀ member ∈ first :: rest, IsIdentifier member) ∧ (first :: rest).length ≤ nameLimit := by
  obtain ⟨first, rest, split⟩ := List.exists_cons_of_ne_nil selectable.allNames_ne_nil
  have identifiers := selectable.isIdentifier
  have few := selectable.few
  rw [split] at identifiers few
  exact ⟨first, rest, split, identifiers, few⟩

theorem Selectable.exactlyOne_solid : Text.Solid (exactlyOne unknowns).lhs.toList := by
  obtain ⟨first, rest, split, identifiers, _⟩ := selectable.exists_members
  rw [exactlyOne, selectable.selectors_eq, split]
  exact Text.solid_joined (identifiers first List.mem_cons_self).solid
    fun member later => (identifiers member (List.mem_cons_of_mem _ later)).solid

theorem Selectable.defaultAnswer_solid : Text.Solid (defaultAnswer unknowns).toList := by
  obtain ⟨first, rest, split, identifiers, few⟩ := selectable.exists_members
  rw [defaultAnswer, selectable.selectors_eq, split, numberedTerms_eq, List.zipIdx_cons, List.map_cons]
  refine Text.solid_joined (solid_numbered (identifiers first List.mem_cons_self)) ?_
  intro text is_one
  obtain ⟨member, later, rfl⟩ := List.mem_map.mp is_one
  have inside : member ∈ (first :: rest).zipIdx := by
    rw [List.zipIdx_cons]
    exact List.mem_cons_of_mem _ later
  exact solid_numbered (identifiers _ (mem_zipIdx_small few inside).1)

theorem Selectable.isFormulaOver_exactlyOne :
    IsFormulaOver unknowns.allNames (exactlyOne unknowns).lhs := by
  have solid := selectable.exactlyOne_solid
  obtain ⟨first, rest, split, identifiers, _⟩ := selectable.exists_members
  rw [exactlyOne, selectable.selectors_eq, split] at solid ⊢
  refine isFormulaOver_of_solid solid (read_selection identifiers) fun name mentioned => ?_
  rw [mentions_sumOf_iff, ← List.map_cons] at mentioned
  obtain ⟨_, is_term, mentioned⟩ := mentioned
  obtain ⟨member, is_member, rfl⟩ := List.mem_map.mp is_term
  rwa [mentions_reference_iff.mp mentioned]

theorem Selectable.isFormulaOver_defaultAnswer :
    IsFormulaOver unknowns.allNames (defaultAnswer unknowns) := by
  have solid := selectable.defaultAnswer_solid
  obtain ⟨first, rest, split, identifiers, few⟩ := selectable.exists_members
  rw [defaultAnswer, selectable.selectors_eq, split] at solid ⊢
  refine isFormulaOver_of_solid solid (read_numbered identifiers few) fun name mentioned => ?_
  rw [mentions_sumOf_iff, ← List.map_cons, ← List.zipIdx_cons] at mentioned
  obtain ⟨_, is_term, mentioned⟩ := mentioned
  obtain ⟨member, inside, rfl⟩ := List.mem_map.mp is_term
  rw [mentions_numbered_iff.mp mentioned]
  exact (mem_zipIdx_small few inside).1

/-- With an objective over the members, a payload with what is made up for them is in normal form. -/
theorem Selectable.normalize {constraints : List Constraint} {objective : String}
    (made_up : ∀ constraint ∈ constraints, constraint = exactlyOne unknowns)
    (solid : Text.Solid objective.toList) (formula : IsFormulaOver unknowns.allNames objective) :
    Payload.normalize ⟨unknowns, constraints, objective, defaultAnswer unknowns⟩ =
      .ok ⟨unknowns, constraints, objective, defaultAnswer unknowns⟩ := by
  refine (normalize_ok_iff _ _).mpr ⟨{
    declares := selectable.filled
    named := fun v is_unknown blank => ?_
    sensible := selectable.sensible
    each_within := fun v is_unknown => (Variables.size_le_of_mem is_unknown).trans selectable.few
    all_within := selectable.few
    objective := formula
    answer := selectable.isFormulaOver_defaultAnswer
    constraints := fun constraint is_one => by
      rw [made_up constraint is_one]
      exact selectable.isFormulaOver_exactlyOne
    finite := fun constraint is_one => by
      rw [made_up constraint is_one]
      exact isFinite_one }, ?_⟩
  · obtain ⟨c, is_first, starts⟩ := (selectable.named v is_unknown).starts
    have part := no_blank_of_isNamePart (isNamePart_of_isNameStart starts)
    rw [blank c (List.mem_of_mem_head? is_first)] at part
    cases part
  · have trimmed : constraints.map Constraint.trimmed = constraints := by
      refine (List.map_congr_left fun constraint is_one => ?_).trans (List.map_id constraints)
      rw [made_up constraint is_one, Constraint.trimmed,
        Text.trimmed_of_solid selectable.exactlyOne_solid]
      rfl
    simp only [Payload.trimmed, trimmed, Text.trimmed_of_solid solid,
      Text.trimmed_of_solid selectable.defaultAnswer_solid]

end
end Scoring
end Tabletop

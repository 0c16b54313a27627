import Tabletop.Proofs.Payload.Owners
import Tabletop.Proofs.Payload.Wire
import Tabletop.Scoring.Result

/-!
Counts of names. They are computed apart from the names themselves, in machine words, and are right
wherever the words are wide enough for the number of names; elsewhere there is no count.
-/

namespace Tabletop.Payload

section Words

variable {lower upper : Int}

theorem toInt_wide {n : Int} (low : -2 ^ 65 ≤ n) (high : n < 2 ^ 65) :
    (BitVec.ofInt 128 n).toInt = n := by
  apply BitVec.toInt_ofInt_eq_self (by decide)
  · omega
  · omega

theorem wide_sub (n m : Int) : BitVec.ofInt 128 n - BitVec.ofInt 128 m = BitVec.ofInt 128 (n - m) := by
  rw [BitVec.sub_eq_add_neg, Int.sub_eq_add_neg, BitVec.ofInt_add, BitVec.ofInt_neg]

theorem span_eq (lower upper : Int) : span lower upper = BitVec.ofInt 128 (upper - lower + 1) := by
  rw [span, wide_sub, BitVec.ofInt_add]
  rfl

theorem toInt_span (bounded : (VariableKind.unary lower upper).Bounded) :
    (span lower upper).toInt = upper - lower + 1 := by
  obtain ⟨⟨low, low'⟩, high, high'⟩ := bounded
  rw [span_eq]
  apply toInt_wide
  · omega
  · omega

/-- Bounds of 64 bits leave room in 128: neither the difference nor the sum runs over. -/
theorem span_no_overflow (bounded : (VariableKind.unary lower upper).Bounded) :
    (BitVec.ofInt 128 upper).ssubOverflow (BitVec.ofInt 128 lower) = false ∧
      (BitVec.ofInt 128 upper - BitVec.ofInt 128 lower).saddOverflow 1 = false := by
  obtain ⟨⟨low, low'⟩, high, high'⟩ := bounded
  have one : (1 : BitVec 128).toInt = 1 := by decide
  have difference : (BitVec.ofInt 128 upper - BitVec.ofInt 128 lower).toInt = upper - lower := by
    rw [wide_sub]
    apply toInt_wide
    · omega
    · omega
  rw [BitVec.ssubOverflow, BitVec.saddOverflow, difference, one,
    toInt_wide (by omega) (by omega), toInt_wide (by omega) (by omega)]
  simp only [Bool.or_eq_false_iff, decide_eq_false_iff_not]
  omega

end Words

section Counted

theorem counted_of_lt {count : Nat} (small : count < 2 ^ 64) : counted count = some count :=
  if_pos small

theorem counted_of_le {count : Nat} (large : 2 ^ 64 ≤ count) : counted count = none :=
  if_neg (Nat.not_lt.mpr large)

/-- A number that fits is reached through any that is no greater. -/
theorem counted_bind {count : Nat} {next : Nat → Nat} (grows : count ≤ next count) :
    ((counted count).bind fun count => counted (next count)) = counted (next count) := by
  by_cases small : count < 2 ^ 64
  · rw [counted_of_lt small]
    rfl
  · rw [counted_of_le (by omega), counted_of_le (by omega)]
    rfl

theorem VariableKind.nameCount?_eq {kind : VariableKind} (fits : kind.Representable) :
    kind.nameCount? = counted kind.size := by
  cases kind with
  | binary | spin => rfl
  | unary lower upper =>
    rw [nameCount?, toInt_span fits.1]
    exact counted_bind (Nat.le_succ _)
  | array shape element =>
    cases shape with
    | row length => rfl
    | grid rows columns =>
      rw [nameCount?, counted_of_lt fits.2.1, counted_of_lt fits.2.2]
      rfl

theorem Variables.foldlM_nameCount? {unknowns : Variables}
    (fit : ∀ v ∈ unknowns, v.kind.Representable) {total : Nat} (small : total < 2 ^ 64) :
    unknowns.foldlM (fun total v => v.kind.nameCount?.bind fun count => counted (total + count)) total =
      counted (total + unknowns.size) := by
  induction unknowns generalizing total with
  | nil => exact (counted_of_lt small).symm
  | cons v rest of_rest =>
    obtain ⟨v_fits, rest_fit⟩ := List.forall_mem_cons.mp fit
    have split : size (v :: rest) = v.kind.size + size rest := rfl
    rw [List.foldlM_cons, VariableKind.nameCount?_eq v_fits, counted_bind (Nat.le_add_left _ _), split,
      ← Nat.add_assoc]
    by_cases next : total + v.kind.size < 2 ^ 64
    · rw [counted_of_lt next]
      exact of_rest rest_fit next
    · rw [counted_of_le (by omega), counted_of_le (by omega)]
      rfl

theorem Variables.nameCount?_eq {unknowns : Variables} (fit : ∀ v ∈ unknowns, v.kind.Representable) :
    unknowns.nameCount? = counted unknowns.size := by
  rw [nameCount?, foldlM_nameCount? fit (by decide), Nat.zero_add]

end Counted

section Names

theorem Shape.cellName_injective (shape : Shape) (name : String) :
    Function.Injective (shape.cellName name) := by
  intro index place same
  cases shape with
  | row length => exact (cell_inj same).2
  | grid rows columns =>
    have same : s!"{name}_{index / columns}_{index % columns}" =
        s!"{name}_{place / columns}_{place % columns}" := same
    rw [gridCell_eq rfl, gridCell_eq rfl] at same
    obtain ⟨same_row, same_column⟩ := cell_inj same
    rw [← Nat.div_add_mod index columns, (cell_inj same_row).2, same_column, Nat.div_add_mod]

theorem member_ne_name (name : String) (index : Nat) : s!"{name}[{index}]" ≠ name := by
  intro same
  have same := congrArg (fun text => text.toList.length) same
  simp only [toList_member, List.length_append, List.length_cons] at same
  omega

namespace VariableKind

theorem nodup_allNames (kind : VariableKind) (name : String) : (kind.allNames name).Nodup := by
  cases kind with
  | binary | spin => exact List.nodup_singleton name
  | unary lower upper =>
    apply List.nodup_cons.mpr
    constructor
    · intro is_member
      obtain ⟨index, -, same⟩ := List.mem_map.mp is_member
      exact member_ne_name name index same
    · exact List.nodup_range.map fun index place same => (member_inj same).2
  | array shape element =>
    rw [allNames_array]
    exact List.nodup_range.map (shape.cellName_injective name)

/-- The names that are made up are the first ones. -/
theorem declaredNames_eq_take (kind : VariableKind) (name : String) :
    kind.declaredNames name = (kind.allNames name).take nameLimit := by
  cases kind with
  | binary | spin => rfl
  | unary lower upper =>
    rw [allNames, show nameLimit = nameLimit - 1 + 1 from rfl, List.take_succ_cons, ← List.map_take,
      List.take_range, Nat.min_comm]
    rfl
  | array shape element =>
    rw [allNames_array, ← List.map_take, List.take_range, Nat.min_comm]
    rfl

theorem length_declaredNames (kind : VariableKind) (name : String) :
    (kind.declaredNames name).length = min nameLimit kind.size := by
  rw [declaredNames_eq_take, List.length_take, length_allNames]

theorem selectors_subset (kind : VariableKind) (name : String) :
    kind.selectors name ⊆ kind.declaredNames name := by
  cases kind with
  | binary | spin | array => exact List.Subset.refl _
  | unary lower upper =>
    intro text is_own
    rw [List.mem_singleton.mp is_own]
    exact List.mem_cons_self

end VariableKind

end Names

section Accounts

/-- The count of a variable's names is exact, and the names made up are all of them or, of more than the
limit, as many as it allows. -/
structure VariableKind.Accounts (kind : VariableKind) (name : String) : Prop where
  distinct : (kind.allNames name).Nodup
  exact : kind.nameCount? =
    if (kind.allNames name).length < 2 ^ 64 then some (kind.allNames name).length else none
  no_overflow : ∀ lower upper, kind = .unary lower upper →
    (BitVec.ofInt 128 upper).ssubOverflow (BitVec.ofInt 128 lower) = false ∧
      (BitVec.ofInt 128 upper - BitVec.ofInt 128 lower).saddOverflow 1 = false
  by_count : ∀ lower upper, kind = .unary lower upper → kind.declaredNames name =
    name :: (List.range (min (kind.nameCount?.getD (2 ^ 64 - 1) - 1) (100000 - 1))).map
      fun i => s!"{name}[{i}]"
  whole : ∀ count, kind.nameCount? = some count → count ≤ 100000 →
    (kind.declaredNames name).length = count ∧ (kind.declaredNames name).Nodup ∧
      kind.selectors name ⊆ kind.declaredNames name
  cut : (∀ count, kind.nameCount? = some count → 100000 < count) →
    (kind.declaredNames name).length = 100000

namespace VariableKind

variable {kind : VariableKind}

/-- A count that is missing is too large as well. -/
theorem nameCount?_large_iff (fits : kind.Representable) :
    (∀ count, kind.nameCount? = some count → nameLimit < count) ↔ nameLimit < kind.size := by
  rw [nameCount?_eq fits]
  by_cases small : kind.size < 2 ^ 64
  · rw [counted_of_lt small]
    exact ⟨fun large => large _ rfl, by rintro large _ ⟨⟩; exact large⟩
  · rw [counted_of_le (by omega)]
    exact ⟨fun _ => by simp only [nameLimit]; omega, fun _ _ => nofun⟩

theorem members_by_count (fits : kind.Representable) :
    min (kind.nameCount?.getD (2 ^ 64 - 1) - 1) (nameLimit - 1) = min (kind.size - 1) (nameLimit - 1) := by
  rw [nameCount?_eq fits]
  by_cases small : kind.size < 2 ^ 64
  · rw [counted_of_lt small]
    rfl
  · rw [counted_of_le (by omega)]
    simp only [Option.getD_none, nameLimit]
    omega

theorem accounts (fits : kind.Representable) (name : String) : kind.Accounts name where
  distinct := kind.nodup_allNames name
  exact := by
    rw [nameCount?_eq fits, length_allNames]
    rfl
  no_overflow := by
    rintro lower upper rfl
    exact span_no_overflow fits.1
  by_count := by
    rintro lower upper rfl
    rw [show 100000 = nameLimit from rfl, members_by_count fits]
    rfl
  whole := by
    intro count counted within
    rw [nameCount?_eq fits] at counted
    have same : kind.size = count := by
      by_cases small : kind.size < 2 ^ 64
      · rw [counted_of_lt small] at counted
        exact Option.some.inj counted
      · rw [counted_of_le (by omega)] at counted
        cases counted
    refine ⟨?_, ?_, kind.selectors_subset name⟩
    · rw [length_declaredNames, same]
      exact Nat.min_eq_right within
    · rw [declaredNames_eq_take]
      exact (kind.nodup_allNames name).sublist (List.take_sublist _ _)
  cut := by
    intro large
    rw [length_declaredNames]
    exact Nat.min_eq_left ((nameCount?_large_iff fits).mp large).le

end VariableKind

/-- Variables that pass the checks on their sizes are each within the limit. -/
theorem size_le_of_checkSizes {unknowns : Variables} (checked : Scoring.checkSizes unknowns = .ok ()) :
    ∀ v ∈ unknowns, v.kind.size ≤ nameLimit := by
  intro v is_unknown
  unfold Scoring.checkSizes at checked
  split at checked
  · cases checked
  · rename_i none_large
    simpa using List.find?_eq_none.mp none_large v is_unknown

/-- For variables that machine words can describe, counts and names agree: each variable on its own, all
of them together, and nothing is left out of those that a payload or a program's result is accepted with. -/
theorem names_counted_exactly (unknowns : Variables) (fit : ∀ v ∈ unknowns, v.kind.Representable) :
    (∀ v ∈ unknowns, v.kind.Accounts v.name) ∧
    unknowns.nameCount? =
      (if unknowns.allNames.length < 2 ^ 64 then some unknowns.allNames.length else none) ∧
    (unknowns.allNames.length ≤ 100000 → unknowns.nameCount? = some unknowns.declaredNames.length) ∧
    (∀ payload normal : Payload, payload.unknowns = unknowns → payload.normalize = .ok normal →
      unknowns.declaredNames = unknowns.allNames) ∧
    (Scoring.checkSizes unknowns = .ok () → unknowns.declaredNames = unknowns.allNames) := by
  have counts : unknowns.nameCount? = counted unknowns.allNames.length := by
    rw [Variables.nameCount?_eq fit, Variables.length_allNames]
  refine ⟨fun v is_unknown => VariableKind.accounts (fit v is_unknown) v.name, counts, ?_, ?_, ?_⟩
  · intro within
    have each_within : ∀ v ∈ unknowns, v.kind.size ≤ nameLimit := by
      intro v is_unknown
      rw [← v.kind.length_allNames v.name]
      exact (Variables.size_le_of_mem is_unknown).trans within
    rw [counts, counted_of_lt (by omega), Variables.declaredNames_eq unknowns each_within]
  · rintro payload normal rfl accepted
    obtain ⟨good, -⟩ := (normalize_ok_iff payload normal).mp accepted
    apply Variables.declaredNames_eq
    intro v is_unknown
    rw [← v.kind.length_allNames v.name]
    exact good.each_within v is_unknown
  · intro checked
    exact Variables.declaredNames_eq unknowns (size_le_of_checkSizes checked)

/-- A grid and an integer whose bounds cross. -/
def gridAndCrossed : Variables := [⟨"g", .array (.grid 2 3) .spin⟩, ⟨"n", .unary 5 1⟩]

def widest : VariableKind := .unary (-2 ^ 63) (2 ^ 63 - 1)

/-- Seven names are counted and made up; the widest integer has no count and as many names as the limit
allows. -/
theorem names_counted_exactly_widest :
    (∀ v ∈ gridAndCrossed, v.kind.Representable) ∧ gridAndCrossed.allNames.length ≤ 100000 ∧
      gridAndCrossed.nameCount? = some gridAndCrossed.declaredNames.length ∧
      gridAndCrossed.nameCount? = some 7 ∧
      widest.Representable ∧ widest.nameCount? = none ∧
      (widest.declaredNames "w").length = 100000 := by
  have fit : ∀ v ∈ gridAndCrossed, v.kind.Representable := by
    simp [gridAndCrossed, VariableKind.Representable, VariableKind.Bounded, Shape.Bounded]
  have widest_fits : widest.Representable := by
    simp [widest, VariableKind.Representable, VariableKind.Bounded]
  have few : gridAndCrossed.allNames.length ≤ 100000 := by
    rw [Variables.length_allNames]
    decide
  have none_counted : widest.nameCount? = none := by decide
  obtain ⟨-, -, agree, -⟩ := names_counted_exactly gridAndCrossed fit
  obtain ⟨each, -⟩ := names_counted_exactly [⟨"w", widest⟩] (by simpa using widest_fits)
  refine ⟨fit, few, agree few, by decide, widest_fits, none_counted, ?_⟩
  apply (each ⟨"w", widest⟩ List.mem_cons_self).cut
  rintro count counted
  rw [none_counted] at counted
  cases counted

end Accounts

end Tabletop.Payload

import Tabletop.Payload.Formula.Grammar

/-!
The grammar of formulas, as a relation between tokens and formulas. A text is read exactly if its tokens
spell a sum in which operands stand at most `nestingLimit` levels inside one another, and then as the one
formula that they spell.
-/

namespace Tabletop.Payload.Formula

/-! ## The grammar

Rules are predicates on tokens and the formula that they spell, each over the rules for its parts. -/

section
variable {α : Type} (link? : Operator → Option α) (node : Formula → List (α × Formula) → Formula)
  (Part Operand : List Token → Formula → Prop)

/-- `(operator part)*`, each operator being one that links parts. -/
inductive IsLinks : List Token → List (α × Formula) → Prop
  | stop : IsLinks [] []
  | link {offset : Nat} {op : Operator} {link : α} {tokens more : List Token} {value : Formula}
      {rest : List (α × Formula)} (links : link? op = some link) (part : Part tokens value)
      (others : IsLinks more rest) :
      IsLinks (⟨offset, .operator op⟩ :: tokens ++ more) ((link, value) :: rest)

/-- `part (operator part)*`, kept as one node; a part alone stays what it is. -/
inductive IsChain : List Token → Formula → Prop
  | alone {tokens : List Token} {value : Formula} (part : Part tokens value) : IsChain tokens value
  | chain {tokens more : List Token} {first : Formula} {link : α × Formula}
      {rest : List (α × Formula)} (part : Part tokens first)
      (others : IsLinks link? Part more (link :: rest)) :
      IsChain (tokens ++ more) (node first (link :: rest))

/-- `product := unary (('*' | '/') unary)*` -/
abbrev IsProduct : List Token → Formula → Prop := IsChain Operator.scaling? .product Operand

/-- `sum := product (('+' | '-') product)*` -/
abbrev IsSum : List Token → Formula → Prop := IsChain Operator.joining? .sum (IsProduct Operand)

/-- `atom := number | name | '(' sum ')'`; parentheses leave no node. -/
inductive IsAtom : List Token → Formula → Prop
  | number {offset : Nat} (value : Number.Decimal) : IsAtom [⟨offset, .number value⟩] (.number value)
  | name {offset : Nat} (text : String) : IsAtom [⟨offset, .name text⟩] (.reference text)
  | parentheses {offset closed : Nat} {tokens : List Token} {inner : Formula}
      (sum : IsSum Operand tokens inner) :
      IsAtom (⟨offset, .operator .opening⟩ :: tokens ++ [⟨closed, .operator .closing⟩]) inner

/-- `unary := ('-' | '+') unary | atom ['**' unary]`; a plus leaves no node. -/
inductive IsUnary : List Token → Formula → Prop
  | minus {offset : Nat} {tokens : List Token} {inner : Formula} (operand : Operand tokens inner) :
      IsUnary (⟨offset, .operator .minus⟩ :: tokens) (.neg inner)
  | plus {offset : Nat} {tokens : List Token} {inner : Formula} (operand : Operand tokens inner) :
      IsUnary (⟨offset, .operator .plus⟩ :: tokens) inner
  | atom {tokens : List Token} {value : Formula} (atom : IsAtom Operand tokens value) :
      IsUnary tokens value
  | power {offset : Nat} {tokens more : List Token} {base exponent : Formula}
      (atom : IsAtom Operand tokens base) (operand : Operand more exponent) :
      IsUnary (tokens ++ ⟨offset, .operator .power⟩ :: more) (.power base exponent)

end

/-- Unaries with at most `levels` of them inside one another, the outermost counted. -/
def IsOperand : (levels : Nat) → List Token → Formula → Prop
  | 0 => fun _ _ => False
  | levels + 1 => IsUnary (IsOperand levels)

/-- Unaries, however deep they stand inside one another. -/
def IsNested (tokens : List Token) (formula : Formula) : Prop :=
  ∃ levels, IsOperand levels tokens formula

/-! ## Rules over weaker rules -/

section
variable {α : Type} {link? : Operator → Option α} {node : Formula → List (α × Formula) → Formula}
  {Part Weaker Operand Other : List Token → Formula → Prop} {tokens : List Token} {formula : Formula}

theorem IsLinks.mono (weaker : ∀ {tokens formula}, Part tokens formula → Weaker tokens formula)
    {rest : List (α × Formula)} (links : IsLinks link? Part tokens rest) :
    IsLinks link? Weaker tokens rest := by
  induction links with
  | stop => exact .stop
  | link links part _ others => exact .link links (weaker part) others

theorem IsChain.mono (weaker : ∀ {tokens formula}, Part tokens formula → Weaker tokens formula)
    (chain : IsChain link? node Part tokens formula) : IsChain link? node Weaker tokens formula := by
  cases chain with
  | alone part => exact .alone (weaker part)
  | chain part others => exact .chain (weaker part) (others.mono weaker)

theorem IsAtom.mono (weaker : ∀ {tokens formula}, Operand tokens formula → Other tokens formula)
    (atom : IsAtom Operand tokens formula) : IsAtom Other tokens formula := by
  cases atom with
  | number value => exact .number value
  | name text => exact .name text
  | parentheses sum => exact .parentheses (sum.mono (.mono weaker))

theorem IsUnary.mono (weaker : ∀ {tokens formula}, Operand tokens formula → Other tokens formula)
    (unary : IsUnary Operand tokens formula) : IsUnary Other tokens formula := by
  cases unary with
  | minus operand => exact .minus (weaker operand)
  | plus operand => exact .plus (weaker operand)
  | atom atom => exact .atom (atom.mono weaker)
  | power atom operand => exact .power (atom.mono weaker) (weaker operand)

theorem IsOperand.succ {levels : Nat} (operand : IsOperand levels tokens formula) :
    IsOperand (levels + 1) tokens formula := by
  induction levels generalizing tokens formula with
  | zero => exact operand.elim
  | succ levels of_levels => exact IsUnary.mono of_levels operand

theorem IsOperand.mono {levels more : Nat} (within : levels ≤ more)
    (operand : IsOperand levels tokens formula) : IsOperand more tokens formula := by
  induction within with
  | refl => exact operand
  | step _ of_more => exact of_more.succ

/-- Rules over parts that come in levels are rules over some level of them. -/
theorem IsLinks.exists_level {Parts : Nat → List Token → Formula → Prop}
    (mono : ∀ {n m : Nat} {tokens formula}, n ≤ m → Parts n tokens formula → Parts m tokens formula)
    {rest : List (α × Formula)}
    (links : IsLinks link? (fun tokens formula => ∃ n, Parts n tokens formula) tokens rest) :
    ∃ n, IsLinks link? (Parts n) tokens rest := by
  induction links with
  | stop => exact ⟨0, .stop⟩
  | link links part _ others =>
    obtain ⟨n, part⟩ := part
    obtain ⟨m, others⟩ := others
    exact ⟨max n m, .link links (mono (Nat.le_max_left n m) part)
      (others.mono (mono (Nat.le_max_right n m)))⟩

theorem IsChain.exists_level {Parts : Nat → List Token → Formula → Prop}
    (mono : ∀ {n m : Nat} {tokens formula}, n ≤ m → Parts n tokens formula → Parts m tokens formula)
    (chain : IsChain link? node (fun tokens formula => ∃ n, Parts n tokens formula) tokens formula) :
    ∃ n, IsChain link? node (Parts n) tokens formula := by
  cases chain with
  | alone part =>
    obtain ⟨n, part⟩ := part
    exact ⟨n, .alone part⟩
  | chain part others =>
    obtain ⟨n, part⟩ := part
    obtain ⟨m, others⟩ := @IsLinks.exists_level _ _ _ Parts mono _ others
    exact ⟨max n m, .chain (mono (Nat.le_max_left n m) part)
      (others.mono (mono (Nat.le_max_right n m)))⟩

theorem exists_level_of_isSum (sum : IsSum IsNested tokens formula) :
    ∃ levels, IsSum (IsOperand levels) tokens formula :=
  IsChain.exists_level (fun within => .mono (.mono within)) (sum.mono (IsChain.exists_level .mono))

theorem exists_level_of_isAtom (atom : IsAtom IsNested tokens formula) :
    ∃ levels, IsAtom (IsOperand levels) tokens formula := by
  cases atom with
  | number value => exact ⟨0, .number value⟩
  | name text => exact ⟨0, .name text⟩
  | parentheses sum =>
    obtain ⟨levels, sum⟩ := exists_level_of_isSum sum
    exact ⟨levels, .parentheses sum⟩

/-- Without the bound on levels, the rules are all that there is. -/
theorem isNested_iff : IsNested tokens formula ↔ IsUnary IsNested tokens formula := by
  constructor
  · rintro ⟨levels, operand⟩
    cases levels with
    | zero => exact operand.elim
    | succ levels => exact IsUnary.mono (fun operand => ⟨levels, operand⟩) operand
  · intro unary
    cases unary with
    | minus operand =>
      obtain ⟨levels, operand⟩ := operand
      exact ⟨levels + 1, .minus operand⟩
    | plus operand =>
      obtain ⟨levels, operand⟩ := operand
      exact ⟨levels + 1, .plus operand⟩
    | atom atom =>
      obtain ⟨levels, atom⟩ := exists_level_of_isAtom atom
      exact ⟨levels + 1, .atom atom⟩
    | power atom operand =>
      obtain ⟨n, atom⟩ := exists_level_of_isAtom atom
      obtain ⟨m, operand⟩ := operand
      exact ⟨max n m + 1, .power (atom.mono (.mono (Nat.le_max_left n m)))
        (operand.mono (Nat.le_max_right n m))⟩

end

/-! ## What is read is spelled -/

section
variable {α : Type} {link? : Operator → Option α} {node : Formula → List (α × Formula) → Formula}
  {Part Operand : List Token → Formula → Prop} {part operand : List Token → Reading Formula}
  {bound : Nat}

/-- Whatever a reader takes is spelled by the tokens that it has taken. -/
def Sound (Rule : List Token → Formula → Prop) (reader : List Token → Reading Formula) : Prop :=
  ∀ {tokens formula rest}, reader tokens = .ok (formula, rest) →
    ∃ taken, tokens = taken ++ rest ∧ Rule taken formula

/-- Parts with operators between them, read as one node. -/
def readChain (link? : Operator → Option α) (node : Formula → List (α × Formula) → Formula)
    (bound : Nat) (part : List Token → Reading Formula) (tokens : List Token) : Reading Formula :=
  match part tokens with
  | .error e => .error e
  | .ok (first, after) => match links link? part bound [] after with
    | .error e => .error e
    | .ok ([], rest) => .ok (first, rest)
    | .ok (link :: more, rest) => .ok (node first (link :: more), rest)

theorem readProduct_eq : readProduct bound operand = readChain Operator.scaling? .product bound operand := by
  funext tokens
  unfold readProduct readChain
  rcases operand tokens with e | ⟨first, after⟩
  · rfl
  · dsimp only
    rcases links Operator.scaling? operand bound [] after with e | ⟨_ | _, rest⟩ <;> rfl

theorem readSum_eq :
    readSum bound operand = readChain Operator.joining? .sum bound (readProduct bound operand) := by
  funext tokens
  unfold readSum readChain
  rcases readProduct bound operand tokens with e | ⟨first, after⟩
  · rfl
  · dsimp only
    rcases links Operator.joining? (readProduct bound operand) bound [] after with e | ⟨_ | _, rest⟩ <;>
      rfl

theorem links_sound (sound : Sound Part part) {back more : List (α × Formula)}
    {tokens rest : List Token} (taken : links link? part bound back tokens = .ok (more, rest)) :
    ∃ taken found, tokens = taken ++ rest ∧ more = back.reverse ++ found ∧
      IsLinks link? Part taken found := by
  -- the bound need not suffice here: where it runs out, the rest is left over
  induction bound generalizing back tokens with
  | zero =>
    cases taken
    exact ⟨[], [], by simp, by simp, .stop⟩
  | succ bound of_bound =>
    unfold links at taken
    split at taken
    · rename_i offset op after
      split at taken
      · cases taken
        exact ⟨[], [], by simp, by simp, .stop⟩
      · rename_i link is_link
        split at taken
        · rename_i value further part_taken
          obtain ⟨first, rfl, spelled⟩ := sound part_taken
          obtain ⟨others, found, rfl, rfl, spelledOthers⟩ := of_bound taken
          exact ⟨⟨offset, .operator op⟩ :: first ++ others, (link, value) :: found, by simp, by simp,
            .link is_link spelled spelledOthers⟩
        · cases taken
    · cases taken
      exact ⟨[], [], by simp, by simp, .stop⟩

theorem readChain_sound (sound : Sound Part part) :
    Sound (IsChain link? node Part) (readChain link? node bound part) := by
  intro tokens formula rest taken
  unfold readChain at taken
  split at taken
  · cases taken
  · rename_i first after first_taken
    obtain ⟨start, rfl, spelled⟩ := sound first_taken
    split at taken
    · cases taken
    · rename_i links_taken
      cases taken
      obtain ⟨others, found, rfl, empty, spelledOthers⟩ := links_sound sound links_taken
      obtain rfl : found = [] := by simpa using empty.symm
      cases spelledOthers
      exact ⟨start, by simp, .alone spelled⟩
    · rename_i link more further links_taken
      cases taken
      obtain ⟨others, found, rfl, same, spelledOthers⟩ := links_sound sound links_taken
      obtain rfl : found = link :: more := by simpa using same.symm
      exact ⟨start ++ others, by simp, .chain spelled spelledOthers⟩

theorem readSum_sound (sound : Sound Operand operand) :
    Sound (IsSum Operand) (readSum bound operand) := by
  rw [readSum_eq, readProduct_eq]
  exact readChain_sound (readChain_sound sound)

theorem readAtom_sound (sound : Sound Operand operand) :
    Sound (IsAtom Operand) (readAtom bound operand) := by
  intro tokens formula rest taken
  unfold readAtom at taken
  split at taken
  · cases taken
  · cases taken
    exact ⟨[_], rfl, .number _⟩
  · cases taken
    exact ⟨[_], rfl, .name _⟩
  · split at taken
    · cases taken
    · rename_i offset _ _ _ closed _ sum_taken
      cases taken
      obtain ⟨inside, rfl, spelled⟩ := readSum_sound sound sum_taken
      exact ⟨⟨offset, .operator .opening⟩ :: inside ++ [⟨closed, .operator .closing⟩], by simp,
        .parentheses spelled⟩
    · cases taken
  · cases taken

theorem readPower_sound (sound : Sound Operand operand) :
    Sound (IsUnary Operand) (readPower bound operand) := by
  intro tokens formula rest taken
  unfold readPower at taken
  split at taken
  · rename_i base offset after atom_taken
    obtain ⟨start, rfl, spelled⟩ := readAtom_sound sound atom_taken
    split at taken
    · rename_i exponent further operand_taken
      cases taken
      obtain ⟨raised, rfl, spelledExponent⟩ := sound operand_taken
      exact ⟨start ++ ⟨offset, .operator .power⟩ :: raised, by simp, .power spelled spelledExponent⟩
    · cases taken
  · obtain ⟨start, rfl, spelled⟩ := readAtom_sound sound taken
    exact ⟨start, rfl, .atom spelled⟩

theorem readOperand_sound (levels : Nat) : Sound (IsOperand levels) (readOperand bound levels) := by
  induction levels with
  | zero => exact nofun
  | succ levels of_levels =>
    intro tokens formula rest taken
    unfold readOperand at taken
    split at taken
    · split at taken
      · rename_i operand_taken
        cases taken
        obtain ⟨inside, rfl, spelled⟩ := of_levels operand_taken
        exact ⟨_ :: inside, rfl, .minus spelled⟩
      · cases taken
    · obtain ⟨inside, rfl, spelled⟩ := of_levels taken
      exact ⟨_ :: inside, rfl, .plus spelled⟩
    · exact readPower_sound of_levels taken

/-! ## What is spelled is read -/

/-- No operator comes next with which it would go on. -/
def NotNext (goesOn : Operator → Bool) (rest : List Token) : Prop :=
  ∀ offset op after, rest = ⟨offset, .operator op⟩ :: after → goesOn op = false

/-- Whatever some tokens spell, at most `bound` of them, is read from them if it does not go on after
them. -/
def Complete (bound : Nat) (goesOn : Operator → Bool) (Rule : List Token → Formula → Prop)
    (reader : List Token → Reading Formula) : Prop :=
  ∀ {tokens formula rest}, Rule tokens formula → tokens.length ≤ bound → NotNext goesOn rest →
    reader (tokens ++ rest) = .ok (formula, rest)

/-- The operators with which a power goes on. -/
def raises (op : Operator) : Bool := op = .power

/-- The operators with which a chain goes on, or its last part. -/
def linksOr (link? : Operator → Option α) (goesOn : Operator → Bool) (op : Operator) : Bool :=
  goesOn op || (link? op).isSome

variable {goesOn : Operator → Bool}

theorem NotNext.of_linksOr {rest : List Token} (stopped : NotNext (linksOr link? goesOn) rest) :
    NotNext goesOn rest := by
  intro offset op after next
  exact (Bool.or_eq_false_iff.mp (stopped _ _ _ next)).1

theorem NotNext.link?_eq_none {offset : Nat} {op : Operator} {after : List Token}
    (stopped : NotNext (linksOr link? goesOn) (⟨offset, .operator op⟩ :: after)) : link? op = none := by
  have unlinked := (Bool.or_eq_false_iff.mp (stopped _ _ _ rfl)).2
  simpa using unlinked

/-- A part does not go on with what links it to others. -/
theorem IsLinks.notNext (apart : ∀ {op link}, link? op = some link → goesOn op = false)
    {more rest : List Token} {found : List (α × Formula)} (others : IsLinks link? Part more found)
    (stopped : NotNext (linksOr link? goesOn) rest) : NotNext goesOn (more ++ rest) := by
  cases others with
  | stop => exact stopped.of_linksOr
  | link links part others =>
    intro offset op after next
    cases next
    exact apart links

theorem links_stopped {rest : List Token} (stopped : NotNext (linksOr link? goesOn) rest) (fuel : Nat)
    (back : List (α × Formula)) : links link? part fuel back rest = .ok (back.reverse, rest) := by
  unfold links
  split
  · rfl
  · split
    · rw [stopped.link?_eq_none]
    · rfl

theorem links_complete (apart : ∀ {op link}, link? op = some link → goesOn op = false)
    (complete : Complete bound goesOn Part part) {tokens rest : List Token}
    {found : List (α × Formula)} (spelled : IsLinks link? Part tokens found) {fuel : Nat}
    (short : tokens.length ≤ fuel) (within : tokens.length ≤ bound)
    (stopped : NotNext (linksOr link? goesOn) rest) (back : List (α × Formula)) :
    links link? part fuel back (tokens ++ rest) = .ok (back.reverse ++ found, rest) := by
  -- each link takes an operator off the tokens, so that fuel for their number is enough
  induction spelled generalizing fuel back with
  | stop => simpa using links_stopped stopped fuel back
  | @link offset op link first more value found is_link spelledFirst others of_others =>
    simp only [List.cons_append, List.length_cons, List.length_append] at short within
    obtain ⟨fuel, rfl⟩ : ∃ left, fuel = left + 1 := ⟨fuel - 1, by omega⟩
    have read : part (first ++ (more ++ rest)) = .ok (value, more ++ rest) :=
      complete spelledFirst (by omega) (others.notNext apart stopped)
    have readOthers := of_others (by omega : more.length ≤ fuel) (by omega) ((link, value) :: back)
    simp only [List.cons_append, List.append_assoc, links, is_link, read, readOthers,
      List.reverse_cons, List.nil_append]

theorem readChain_complete (apart : ∀ {op link}, link? op = some link → goesOn op = false)
    (complete : Complete bound goesOn Part part) :
    Complete bound (linksOr link? goesOn) (IsChain link? node Part)
      (readChain link? node bound part) := by
  intro tokens formula rest spelled within stopped
  cases spelled with
  | alone spelled =>
    have read := complete spelled within stopped.of_linksOr
    simp only [readChain, read, links_stopped stopped, List.reverse_nil]
  | @chain tokens more first link found spelled others =>
    rw [List.length_append] at within
    have read : part (tokens ++ (more ++ rest)) = .ok (first, more ++ rest) :=
      complete spelled (by omega) (others.notNext apart stopped)
    have readOthers := links_complete apart complete others (by omega : more.length ≤ bound) (by omega)
      stopped []
    simp only [readChain, List.append_assoc, read, readOthers, List.reverse_nil, List.nil_append]

theorem apart_scaling {op : Operator} {link : Scaling} (is_link : op.scaling? = some link) :
    raises op = false := by
  cases op <;> simp_all [Operator.scaling?, raises]

theorem apart_joining {op : Operator} {link : Joining} (is_link : op.joining? = some link) :
    linksOr Operator.scaling? raises op = false := by
  cases op <;> simp_all [Operator.joining?, Operator.scaling?, linksOr, raises]

theorem readSum_complete (complete : Complete bound raises Operand operand) :
    Complete bound (linksOr Operator.joining? (linksOr Operator.scaling? raises)) (IsSum Operand)
      (readSum bound operand) := by
  rw [readSum_eq, readProduct_eq]
  exact readChain_complete apart_joining (readChain_complete apart_scaling complete)

theorem readAtom_complete (complete : Complete bound raises Operand operand) :
    Complete bound (fun _ => false) (IsAtom Operand) (readAtom bound operand) := by
  intro tokens formula rest spelled within _
  cases spelled with
  | number value => rfl
  | name text => rfl
  | @parentheses offset closed inside inner sum =>
    simp only [List.cons_append, List.length_cons, List.length_append] at within
    have stopped : NotNext (linksOr Operator.joining? (linksOr Operator.scaling? raises))
        (⟨closed, .operator .closing⟩ :: rest) := by
      intro offset op after next
      cases next
      rfl
    have read := readSum_complete complete sum (by omega) stopped
    simp only [List.cons_append, List.append_assoc, List.nil_append, readAtom, read]

theorem readPower_complete (complete : Complete bound raises Operand operand) {tokens rest : List Token}
    {base : Formula} (spelled : IsAtom Operand tokens base) (within : tokens.length ≤ bound)
    (stopped : NotNext raises rest) : readPower bound operand (tokens ++ rest) = .ok (base, rest) := by
  have read : readAtom bound operand (tokens ++ rest) = .ok (base, rest) :=
    readAtom_complete complete spelled within fun _ _ _ _ => rfl
  unfold readPower
  rw [read]
  split
  · rename_i same
    cases same
    cases stopped _ _ _ rfl
  · rfl

/-- An atom begins with no sign. -/
theorem readOperand_of_isAtom {levels : Nat} {tokens : List Token} {base : Formula}
    (spelled : IsAtom Operand tokens base) (rest : List Token) :
    readOperand bound (levels + 1) (tokens ++ rest) =
      readPower bound (readOperand bound levels) (tokens ++ rest) := by
  cases spelled with
  | number value => rfl
  | name text => rfl
  | parentheses sum => rfl

theorem readOperand_complete (levels : Nat) :
    Complete bound raises (IsOperand levels) (readOperand bound levels) := by
  induction levels with
  | zero => exact fun operand => operand.elim
  | succ levels of_levels =>
    intro tokens formula rest spelled within stopped
    cases spelled with
    | minus operand =>
      have read := of_levels operand (Nat.le_of_succ_le within) stopped
      simp only [List.cons_append, readOperand, read]
    | plus operand =>
      have read := of_levels operand (Nat.le_of_succ_le within) stopped
      simp only [List.cons_append, readOperand, read]
    | atom atom =>
      rw [readOperand_of_isAtom atom]
      exact readPower_complete of_levels atom within stopped
    | @power offset tokens more base exponent atom operand =>
      simp only [List.length_append, List.length_cons] at within
      have read : readAtom bound (readOperand bound levels)
          (tokens ++ (⟨offset, .operator .power⟩ :: (more ++ rest))) =
            .ok (base, ⟨offset, .operator .power⟩ :: (more ++ rest)) :=
        readAtom_complete of_levels atom (by omega) fun _ _ _ _ => rfl
      have raised := of_levels operand (by omega) stopped
      rw [List.append_assoc, readOperand_of_isAtom atom, List.cons_append]
      simp only [readPower, read, raised]

end

/-! ## Texts and their formulas -/

theorem notNext_nil (goesOn : Operator → Bool) : NotNext goesOn [] := nofun

theorem ofTokens_ok_iff {tokens : List Token} {formula : Formula} :
    ofTokens tokens = .ok formula ↔ IsSum (IsOperand nestingLimit) tokens formula := by
  constructor
  · intro read
    unfold ofTokens at read
    split at read
    · rename_i read_all
      cases read
      obtain ⟨taken, rfl, spelled⟩ := readSum_sound (readOperand_sound nestingLimit) read_all
      simpa using spelled
    · cases read
    · cases read
  · intro spelled
    have read := readSum_complete (readOperand_complete nestingLimit) spelled (Nat.le_refl _)
      (notNext_nil _)
    rw [List.append_nil] at read
    simp only [ofTokens, read]

theorem read_ok_iff {text : String} {formula : Formula} :
    read text = .ok formula ↔ ∃ cut, tokens text = .ok cut ∧ ofTokens cut = .ok formula := by
  unfold read
  cases tokens text with
  | error e => simp
  | ok cut => cases made : ofTokens cut <;> simp [made]

/-- However deep unaries may stand, tokens spell one formula at most. -/
theorem isSum_unique {tokens : List Token} {formula other : Formula}
    (spelled : IsSum IsNested tokens formula) (again : IsSum IsNested tokens other) :
    formula = other := by
  obtain ⟨n, spelled⟩ := exists_level_of_isSum spelled
  obtain ⟨m, again⟩ := exists_level_of_isSum again
  have spelled : IsSum (IsOperand (max n m)) tokens formula :=
    spelled.mono (.mono (.mono (Nat.le_max_left n m)))
  have again : IsSum (IsOperand (max n m)) tokens other :=
    again.mono (.mono (.mono (Nat.le_max_right n m)))
  have read := readSum_complete (readOperand_complete _) spelled (Nat.le_refl _) (notNext_nil _)
  have readAgain := readSum_complete (readOperand_complete _) again (Nat.le_refl _) (notNext_nil _)
  cases read.symm.trans readAgain
  rfl

theorem isSum_iff_of_isNested {tokens : List Token} {unary : Formula} (spelled : IsNested tokens unary)
    (formula : Formula) : IsSum IsNested tokens formula ↔ formula = unary := by
  have sum : IsSum IsNested tokens unary := .alone (.alone spelled)
  constructor
  · exact fun other => isSum_unique other sum
  · rintro rfl
    exact sum

theorem evaluateTerms_eq (values : String → Option Float) (total : Float)
    (rest : List (Joining × Formula)) :
    evaluateTerms values total rest =
      rest.foldlM (fun total term => (evaluate values term.2).map (term.1.apply total)) total := by
  induction rest generalizing total with
  | nil => rfl
  | cons term rest of_rest =>
    obtain ⟨joining, term⟩ := term
    simp only [evaluateTerms, List.foldlM_cons]
    cases evaluate values term with
    | error e => rfl
    | ok value => exact of_rest _

theorem evaluateFactors_eq (values : String → Option Float) (total : Float)
    (rest : List (Scaling × Formula)) :
    evaluateFactors values total rest =
      rest.foldlM (fun total factor => (evaluate values factor.2).map (factor.1.apply total)) total := by
  induction rest generalizing total with
  | nil => rfl
  | cons factor rest of_rest =>
    obtain ⟨scaling, factor⟩ := factor
    simp only [evaluateFactors, List.foldlM_cons]
    cases evaluate values factor with
    | error e => rfl
    | ok value => exact of_rest _

/-- Chains are folded from the left. -/
structure FoldsChains (values : String → Option Float) : Prop where
  sum : ∀ first rest, evaluate values (.sum first rest) = (evaluate values first).bind fun total =>
    rest.foldlM (fun total term => (evaluate values term.2).map (term.1.apply total)) total
  product : ∀ first rest, evaluate values (.product first rest) =
    (evaluate values first).bind fun total =>
      rest.foldlM (fun total factor => (evaluate values factor.2).map (factor.1.apply total)) total

theorem foldsChains (values : String → Option Float) : FoldsChains values where
  sum first rest := by
    rw [evaluate]
    cases evaluate values first with
    | error e => rfl
    | ok total => exact evaluateTerms_eq values total rest
  product first rest := by
    rw [evaluate]
    cases evaluate values first with
    | error e => rfl
    | ok total => exact evaluateFactors_eq values total rest

/-- A text is read as a formula exactly if its tokens, all of them, spell it with at most `nestingLimit`
unaries inside one another. The rules are all that there is to spelling, and tokens spell one formula at
most. So a power of a power is one on the right, a sign before a power stands outside of it, and chains
are evaluated from the left. -/
theorem grammar_exact :
    (∀ text formula, read text = .ok formula ↔
      ∃ cut, tokens text = .ok cut ∧ IsSum (IsOperand nestingLimit) cut formula) ∧
    (∀ cut formula, IsNested cut formula ↔ IsUnary IsNested cut formula) ∧
    (∀ cut formula other, IsSum IsNested cut formula → IsSum IsNested cut other → formula = other) ∧
    (∀ base middle top first second x y z, IsAtom IsNested base x → IsAtom IsNested middle y →
      IsNested top z → ∀ formula,
      IsSum IsNested (base ++ ⟨first, .operator .power⟩ :: (middle ++ ⟨second, .operator .power⟩ :: top))
        formula ↔ formula = .power x (.power y z)) ∧
    (∀ base top sign raise x z, IsAtom IsNested base x → IsNested top z → ∀ formula,
      IsSum IsNested (⟨sign, .operator .minus⟩ :: (base ++ ⟨raise, .operator .power⟩ :: top)) formula ↔
        formula = .neg (.power x z)) ∧
    ∀ values, FoldsChains values := by
  refine ⟨fun text formula => ?_, fun cut formula => isNested_iff,
    fun cut formula other => isSum_unique, ?_, ?_, foldsChains⟩
  · simp only [read_ok_iff, ofTokens_ok_iff]
  · intro base middle top first second x y z atom another exponent
    have inner : IsNested (middle ++ ⟨second, .operator .power⟩ :: top) (.power y z) :=
      isNested_iff.mpr (.power another exponent)
    exact isSum_iff_of_isNested (isNested_iff.mpr (.power atom inner))
  · intro base top sign raise x z atom exponent
    have power : IsNested (base ++ ⟨raise, .operator .power⟩ :: top) (.power x z) :=
      isNested_iff.mpr (.power atom exponent)
    exact isSum_iff_of_isNested (isNested_iff.mpr (.minus power))

/-- The tokens of `a ** b ** c`. -/
def twoPowers : List Token :=
  [⟨0, .name "a"⟩, ⟨2, .operator .power⟩, ⟨5, .name "b"⟩, ⟨7, .operator .power⟩, ⟨10, .name "c"⟩]

theorem grammar_exact_twoPowers :
    IsAtom IsNested [⟨0, .name "a"⟩] (.reference "a") ∧
      IsAtom IsNested [⟨5, .name "b"⟩] (.reference "b") ∧ IsNested [⟨10, .name "c"⟩] (.reference "c") ∧
      IsSum IsNested twoPowers
        (.power (.reference "a") (.power (.reference "b") (.reference "c"))) := by
  have a : IsAtom IsNested [⟨0, .name "a"⟩] (.reference "a") := .name "a"
  have b : IsAtom IsNested [⟨5, .name "b"⟩] (.reference "b") := .name "b"
  have c : IsNested [⟨10, .name "c"⟩] (.reference "c") := isNested_iff.mpr (.atom (.name "c"))
  obtain ⟨_, _, _, powers, _⟩ := grammar_exact
  exact ⟨a, b, c, (powers [_] [_] [_] 2 7 _ _ _ a b c _).mpr rfl⟩

end Tabletop.Payload.Formula

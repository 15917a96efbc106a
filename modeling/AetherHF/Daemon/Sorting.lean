import AetherHF.Daemon.Portable
import AetherHF.Daemon.Rules

/-! Sorting a profile's settings: which are taken, and what the document then holds. -/
namespace AetherHF.Settings

variable [Library]

/-! ### What a rule takes -/

/-- What a rule says of a value. -/
def Terms.Takes (terms : Terms) (value : Json) : Prop :=
  value = .scalar .null ∨
    (terms.options = [] ∨ optionText value ∈ terms.options.map String.toList) ∧
      ∀ number ∈ asF64 value, (∀ min ∈ terms.min, min ≤ number) ∧ ∀ max ∈ terms.max, number ≤ max

theorem violation_eq_none {key : Text} {value : Json} : violation key value = none ↔ (ruleFor key).terms.Takes value := by
  unfold violation Terms.Takes Rule.terms
  by_cases null : value = .scalar .null
  · simp [null]
  · simp only [null, if_false, false_or]
    by_cases listed : (ruleFor key).options ≠ [] ∧ optionText value ∉ (ruleFor key).options.map String.toList
    · rw [if_pos listed]
      refine ⟨nofun, fun ⟨either, _⟩ => ?_⟩
      exact absurd either (not_or.mpr listed)
    · rw [if_neg listed]
      have either : (ruleFor key).options = [] ∨ optionText value ∈ (ruleFor key).options.map String.toList := by
        by_contra neither
        exact listed (not_or.mp neither)
      cases asF64 value with
      | none => exact ⟨fun _ => ⟨either, nofun⟩, fun _ => rfl⟩
      | some number =>
        have bounds : ((ruleFor key).min.any (number < ·) || (ruleFor key).max.any (· < number)) = false ↔
            (∀ min ∈ (ruleFor key).min, min ≤ number) ∧ ∀ max ∈ (ruleFor key).max, number ≤ max := by
          cases (ruleFor key).min <;> cases (ruleFor key).max <;> simp
        by_cases broken : ((ruleFor key).min.any (number < ·) || (ruleFor key).max.any (· < number)) = true
        · have out : ¬((∀ min ∈ (ruleFor key).min, min ≤ number) ∧ ∀ max ∈ (ruleFor key).max, number ≤ max) := fun inside => by
            rw [bounds.mpr inside] at broken
            cases broken
          simp only [broken, if_true]
          refine ⟨nofun, fun ⟨_, inside⟩ => absurd (inside number rfl) out⟩
        · have inside := bounds.mp (Bool.not_eq_true _ |>.mp broken)
          simp only [broken, if_false, true_iff, Bool.false_eq_true]
          refine ⟨either, fun other same => ?_⟩
          cases same
          exact inside

/-! ### What is taken -/

/-- Whether a profile's value of a setting is taken. -/
def taken (leaf : Text × Json) : Bool :=
  (schema.find? (·.key = leaf.1)).any fun setting =>
    setting.scope.isPortable && fits leaf.1 leaf.2 setting.type_ && (violation leaf.1 leaf.2).isNone

def isUnknown (leaf : Text × Json) : Bool := (schema.find? (·.key = leaf.1)).isNone

def isIgnored (leaf : Text × Json) : Bool := (schema.find? (·.key = leaf.1)).any fun setting => !setting.scope.isPortable

/-- Whether a value of a portable setting is not taken. -/
def isInvalid (leaf : Text × Json) : Bool :=
  (schema.find? (·.key = leaf.1)).any fun setting =>
    setting.scope.isPortable && !(fits leaf.1 leaf.2 setting.type_ && (violation leaf.1 leaf.2).isNone)

omit [Library] in
theorem fits_scalar {key : Text} {value : Json} {type_ : TypeName} (is : fits key value type_ = true) : ∃ s, value = .scalar s := by
  cases value with
  | scalar s => exact ⟨s, rfl⟩
  | array items => cases type_ <;> cases is
  | object members => cases type_ <;> cases is

theorem taken_scalar {leaf : Text × Json} (is : taken leaf = true) : ∃ s, leaf.2 = .scalar s := by
  obtain ⟨setting, _, both⟩ := (Option.any_eq_true _ _).mp is
  simp only [Bool.and_eq_true] at both
  exact fits_scalar both.1.2

namespace Field

variable {field : Field}

omit [Library] in
theorem isPortable_iff : isPortable field.key = true ↔ field ≠ .schemaVersion ∧ field.terms.scope.isPortable = true := by
  have scope : (ruleFor field.key).scope = field.terms.scope := congrArg Terms.scope field.rule_terms
  have first : field.key = "schema_version".toList ↔ field = .schemaVersion :=
    ⟨fun same => @key_injective _ .schemaVersion same, fun same => same ▸ rfl⟩
  rw [isPortable, Bool.and_eq_true, decide_eq_true_iff, ne_eq, first, scope]

theorem taken_iff (some_ : field ≠ .schemaVersion) {value : Json} : taken (field.key, value) = true ↔
    field.terms.scope.isPortable = true ∧ fits field.key value field.typeName = true ∧ field.terms.Takes value := by
  rw [taken, find_field some_, Option.any_some, Bool.and_eq_true, Bool.and_eq_true, Option.isNone_iff_eq_none,
    violation_eq_none, field.rule_terms, and_assoc]
  rfl

end Field

omit [Library] in
theorem isPrefixOf_pttPrefix (name : Text) : pttPrefix.isPrefixOf (pttKey name) = true ∧
    (pttKey name).drop pttPrefix.length = name := ⟨by rfl, by rfl⟩

omit [Library] in
theorem Field.not_pttPrefix (field : Field) : pttPrefix.isPrefixOf field.key = false := by
  refine Bool.not_eq_true _ |>.mp fun before => ?_
  obtain ⟨name, same⟩ := List.isPrefixOf_iff_prefix.mp before
  exact field.key_ne_pttKey name same.symm

/-- A value taken is a portable field's, or of the keying section. -/
theorem taken_cases {leaf : Text × Json} (is : taken leaf = true) :
    (∃ field : Field, isPortable field.key = true ∧ leaf.1 = field.key) ∨ ∃ name, leaf.1 = pttKey name := by
  obtain ⟨setting, found, both⟩ := (Option.any_eq_true _ _).mp is
  simp only [Bool.and_eq_true] at both
  rcases find_cases found with ⟨field, some_, named, rfl⟩ | ⟨field, _, named, rfl⟩
  · exact .inl ⟨field, Field.isPortable_iff.mpr ⟨some_, both.1.1⟩, named⟩
  · exact .inr ⟨_, named⟩

/-! ### One value -/

/-- What a step of the sorting says of the value it is given. -/
theorem sortLeaf_lists (sorting : Sorting) (leaf : Text × Json) :
    (sortLeaf sorting leaf).unknown = sorting.unknown ++ (if isUnknown leaf then [leaf.1] else []) ∧
    (sortLeaf sorting leaf).ignored = sorting.ignored ++ (if isIgnored leaf then [leaf.1] else []) ∧
    (sortLeaf sorting leaf).invalid.map Rejected.key =
      sorting.invalid.map Rejected.key ++ (if isInvalid leaf then [leaf.1] else []) := by
  rw [sortLeaf, isUnknown, isIgnored, isInvalid]
  generalize (schema.find? fun setting => setting.key = leaf.1) = found
  cases found with
  | none => simp [sortAs]
  | some setting =>
    by_cases portable : setting.scope.isPortable = true
    · by_cases typed : fits leaf.1 leaf.2 setting.type_ = true
      · cases broken : violation leaf.1 leaf.2 with
        | none => by_cases keying : pttPrefix <+: leaf.1 <;> simp [sortAs, portable, typed, broken, keying]
        | some reason => simp [sortAs, portable, typed, broken]
      · simp [sortAs, portable, typed]
    · simp [sortAs, portable]

theorem sortLeaf_untaken (sorting : Sorting) {leaf : Text × Json} (not_ : taken leaf = false) :
    (sortLeaf sorting leaf).document = sorting.document ∧ (sortLeaf sorting leaf).ptt = sorting.ptt := by
  rw [taken] at not_
  rw [sortLeaf]
  generalize (schema.find? fun setting => setting.key = leaf.1) = found at not_ ⊢
  cases found with
  | none => exact ⟨rfl, rfl⟩
  | some setting =>
    rw [Option.any_some] at not_
    by_cases portable : setting.scope.isPortable = true
    · by_cases typed : fits leaf.1 leaf.2 setting.type_ = true
      · cases broken : violation leaf.1 leaf.2 with
        | none =>
          rw [portable, typed, broken] at not_
          cases not_
        | some reason => simp [sortAs, portable, typed, broken]
      · simp [sortAs, portable, typed]
    · simp [sortAs, portable]

theorem sortLeaf_taken (sorting : Sorting) {leaf : Text × Json} (is : taken leaf = true) :
    sortLeaf sorting leaf = if pttPrefix.isPrefixOf leaf.1 then
        { sorting with ptt := Document.insert sorting.ptt (leaf.1.drop pttPrefix.length) leaf.2 }
      else { sorting with document := setLeaf sorting.document leaf.1 leaf.2 } := by
  obtain ⟨setting, found, both⟩ := (Option.any_eq_true _ _).mp is
  simp only [Bool.and_eq_true, Option.isNone_iff_eq_none] at both
  rw [sortLeaf, found]
  simp only [sortAs, both.1.1, both.1.2, both.2, Bool.not_true, Bool.false_eq_true, if_false]

/-! ### All of them -/

/-- The last value taken under a name. -/
def lastTaken (settings : List (Text × Json)) (key : Text) : Option Json :=
  ((settings.filter fun leaf => leaf.1 = key && taken leaf).getLast?).map Prod.snd

theorem lastTaken_cons (leaf : Text × Json) (rest : List (Text × Json)) (key : Text) :
    lastTaken (leaf :: rest) key = (lastTaken rest key).or (if leaf.1 = key && taken leaf then some leaf.2 else none) := by
  rw [lastTaken, List.filter_cons]
  by_cases here : (decide (leaf.1 = key) && taken leaf) = true
  · rw [if_pos here, if_pos here, List.getLast?_cons, lastTaken]
    cases (rest.filter fun leaf => leaf.1 = key && taken leaf).getLast? <;> rfl
  · rw [if_neg here, if_neg here, Option.or_none, lastTaken]

/-- It depends on the values under the name only. -/
theorem lastTaken_congr {settings settings' : List (Text × Json)} {key : Text}
    (same : (settings.filter fun leaf => leaf.1 = key) = settings'.filter fun leaf => leaf.1 = key) :
    lastTaken settings key = lastTaken settings' key := by
  have both (settings : List (Text × Json)) : (settings.filter fun leaf => leaf.1 = key && taken leaf) =
      (settings.filter fun leaf => leaf.1 = key).filter taken := by
    rw [List.filter_filter]
    exact List.filter_congr fun leaf _ => Bool.and_comm _ _
  rw [lastTaken, lastTaken, both, both, same]

theorem lastTaken_scalar {settings : List (Text × Json)} {key : Text} {value : Json} (last : lastTaken settings key = some value) :
    taken (key, value) = true ∧ ∃ s, value = .scalar s := by
  obtain ⟨leaf, found, rfl⟩ := Option.map_eq_some_iff.mp last
  obtain ⟨_, both⟩ := List.mem_filter.mp (List.mem_of_getLast? found)
  obtain ⟨named, is⟩ := Bool.and_eq_true_iff.mp both
  have named : leaf.1 = key := of_decide_eq_true named
  subst named
  exact ⟨is, taken_scalar is⟩

theorem foldl_lists (settings : List (Text × Json)) (sorting : Sorting) :
    (settings.foldl sortLeaf sorting).unknown = sorting.unknown ++ (settings.filter isUnknown).map Prod.fst ∧
    (settings.foldl sortLeaf sorting).ignored = sorting.ignored ++ (settings.filter isIgnored).map Prod.fst ∧
    (settings.foldl sortLeaf sorting).invalid.map Rejected.key =
      sorting.invalid.map Rejected.key ++ (settings.filter isInvalid).map Prod.fst := by
  induction settings generalizing sorting with
  | nil => simp
  | cons leaf rest ih =>
    obtain ⟨unknown, ignored, invalid⟩ := sortLeaf_lists sorting leaf
    obtain ⟨unknown', ignored', invalid'⟩ := ih (sortLeaf sorting leaf)
    rw [List.foldl_cons, unknown', ignored', invalid', unknown, ignored, invalid, List.filter_cons, List.filter_cons,
      List.filter_cons]
    refine ⟨?_, ?_, ?_⟩
    · split <;> simp
    · split <;> simp
    · split <;> simp

/-- The last value of a field that is taken. -/
def valueIn (settings : List (Text × Json)) (field : Field) : Option Scalar :=
  (lastTaken settings field.key).bind fun
    | .scalar s => some s
    | _ => none

/-- A sorting whose document holds some values, and whose keying section has some fields. -/
structure Sorted (sorting : Sorting) (values : Field → Option Scalar) (keyed : Text → Option Json)
    (ptt : Option (Keyed Text Json)) : Prop where
  holds : Holds sorting.document values ptt
  section_ : Section_ sorting.ptt
  keyed : ∀ name, sorting.ptt.get? name = keyed name

theorem lastTaken_single (leaf : Text × Json) (key : Text) :
    lastTaken [leaf] key = if leaf.1 = key && taken leaf then some leaf.2 else none := lastTaken_cons leaf [] key

theorem Sorted.step {sorting : Sorting} {values : Field → Option Scalar} {keyed : Text → Option Json}
    {ptt : Option (Keyed Text Json)} (sorted : Sorted sorting values keyed ptt) (leaf : Text × Json) :
    Sorted (sortLeaf sorting leaf) (fun field => (valueIn [leaf] field).or (values field))
      (fun name => (lastTaken [leaf] (pttKey name)).or (keyed name)) ptt := by
  by_cases is : taken leaf = true
  · obtain ⟨key, value⟩ := leaf
    obtain ⟨s, rfl⟩ : ∃ s, value = .scalar s := taken_scalar is
    rcases taken_cases is with ⟨field, _, rfl⟩ | ⟨name, rfl⟩
    · -- a field set
      have values_eq : (fun other => (valueIn [(field.key, .scalar s)] other).or (values other)) =
          Function.update values field (some s) := by
        funext other
        rw [valueIn, lastTaken_single]
        by_cases same : other = field
        · subst same
          simp [is]
        · have unlike : field.key ≠ other.key := fun h => same (Field.key_injective h).symm
          simp [unlike, same]
      have keyed_eq : (fun name => (lastTaken [(field.key, .scalar s)] (pttKey name)).or (keyed name)) = keyed := by
        funext name
        rw [lastTaken_single]
        simp [field.key_ne_pttKey name]
      have document : sortLeaf sorting (field.key, .scalar s) =
          { sorting with document := setLeaf sorting.document field.key (.scalar s) } := by
        rw [sortLeaf_taken sorting is, field.not_pttPrefix]
        rfl
      rw [document, values_eq, keyed_eq]
      exact ⟨sorted.holds.set field s, sorted.section_, sorted.keyed⟩
    · -- a field of the keying section put in it
      have values_eq : (fun other => (valueIn [(pttKey name, .scalar s)] other).or (values other)) = values := by
        funext other
        rw [valueIn, lastTaken_single]
        simp [(other.key_ne_pttKey name).symm]
      have ptt_eq : sortLeaf sorting (pttKey name, .scalar s) =
          { sorting with ptt := Document.insert sorting.ptt name (.scalar s) } := by
        obtain ⟨before, drop⟩ := isPrefixOf_pttPrefix name
        rw [sortLeaf_taken sorting is, if_pos before, drop]
      rw [ptt_eq, values_eq]
      refine ⟨sorted.holds, sorted.section_.insert name s, fun other => ?_⟩
      rw [Document.get?_insert, lastTaken_single]
      by_cases same : other = name
      · subst same
        simp [is]
      · have unlike : pttKey name ≠ pttKey other := fun h => same (pttKey_injective h).symm
        simp [unlike, same, sorted.keyed other]
  · have not_ := Bool.not_eq_true _ |>.mp is
    obtain ⟨document, ptt_eq⟩ := sortLeaf_untaken sorting not_
    have none_ (key : Text) : lastTaken [leaf] key = none := by
      rw [lastTaken_single, not_, Bool.and_false]
      rfl
    refine ⟨?_, ?_, fun name => ?_⟩
    · rw [document]
      simpa only [valueIn, none_, Option.bind_none, Option.none_or] using sorted.holds
    · rw [ptt_eq]
      exact sorted.section_
    · rw [none_ (pttKey name), Option.none_or, ptt_eq]
      exact sorted.keyed name

theorem Sorted.foldl {sorting : Sorting} {values : Field → Option Scalar} {keyed : Text → Option Json}
    {ptt : Option (Keyed Text Json)} (sorted : Sorted sorting values keyed ptt) (settings : List (Text × Json)) :
    Sorted (settings.foldl sortLeaf sorting) (fun field => (valueIn settings field).or (values field))
      (fun name => (lastTaken settings (pttKey name)).or (keyed name)) ptt := by
  induction settings generalizing sorting values keyed with
  | nil => exact sorted
  | cons leaf rest ih =>
    -- what the rest takes is put over what this one leaves
    have values_cons (field : Field) : (valueIn (leaf :: rest) field).or (values field) =
        (valueIn rest field).or ((valueIn [leaf] field).or (values field)) := by
      unfold valueIn
      rw [lastTaken_cons leaf rest, lastTaken_cons leaf []]
      cases last : lastTaken rest field.key with
      | none => simp [lastTaken]
      | some value =>
        obtain ⟨_, s, rfl⟩ := lastTaken_scalar last
        rfl
    have keyed_cons (name : Text) : (lastTaken (leaf :: rest) (pttKey name)).or (keyed name) =
        (lastTaken rest (pttKey name)).or ((lastTaken [leaf] (pttKey name)).or (keyed name)) := by
      rw [lastTaken_cons leaf rest, lastTaken_cons leaf []]
      cases lastTaken rest (pttKey name) <;> simp [lastTaken]
    rw [List.foldl_cons, funext values_cons, funext keyed_cons]
    exact ih (sorted.step leaf)

/-! ### The document -/

/-- What a field is set to: of the portable ones the profile's value or the default, of the others what it was. -/
def settled (settings : List (Text × Json)) (base : Config) (field : Field) : Scalar :=
  if isPortable field.key then (valueIn settings field).getD field.default_ else base.leaf field

/-- The keying section a profile's settings come to. -/
def keyed (settings : List (Text × Json)) : Keyed Text Json :=
  (settings.foldl sortLeaf { document := .object [] }).ptt

def keyingOf (settings : List (Text × Json)) : Keyed Text Json :=
  if ((keyed settings).get? "kind".toList).isSome then keyed settings else PttConfig.none.members

omit [Library] in
/-- The portable settings beside the keying section. -/
theorem schema_portable : (schema.filter fun setting => setting.scope.isPortable && !pttPrefix.isPrefixOf setting.key) =
    ((earlier ++ later).filter fun field => isPortable field.key).map Field.setting := by
  have some_ : ∀ field ∈ earlier ++ later, field ≠ Field.schemaVersion := by decide
  have fields {fields : List Field} (among : ∀ field ∈ fields, field ≠ Field.schemaVersion) :
      ((fields.map Field.setting).filter fun setting => setting.scope.isPortable && !pttPrefix.isPrefixOf setting.key) =
        (fields.filter fun field => isPortable field.key).map Field.setting := by
    rw [List.filter_map]
    refine congrArg (List.map Field.setting) (List.filter_congr fun field member => ?_)
    rw [Function.comp_apply, Bool.eq_iff_iff, Field.isPortable_iff]
    have bare : pttPrefix.isPrefixOf field.setting.key = false := field.not_pttPrefix
    rw [bare, Bool.not_false, Bool.and_true]
    exact ⟨fun is => ⟨among field member, is⟩, fun ⟨_, is⟩ => is⟩
  have keying (fields : List KeyingField) :
      ((fields.map KeyingField.setting).filter fun setting => setting.scope.isPortable && !pttPrefix.isPrefixOf setting.key) = [] := by
    refine List.filter_eq_nil_iff.mpr fun setting member => ?_
    obtain ⟨field, _, rfl⟩ := List.mem_map.mp member
    have before : pttPrefix.isPrefixOf field.setting.key = true := (isPrefixOf_pttPrefix _).1
    rw [before, Bool.not_true, Bool.and_false]
    exact Bool.false_ne_true
  rw [registry.2.2.2, List.filter_append, List.filter_append, List.filter_append, keying, keying,
    fields fun field member => some_ field (List.mem_append_left _ member),
    fields fun field member => some_ field (List.mem_append_right _ member), List.append_nil, List.append_nil, List.filter_append,
    List.map_append]

omit [Library] in
theorem holds_reset (base : Config) : Holds (resetPortable base.toValue)
    (fun field => some (if isPortable field.key then field.default_ else base.leaf field)) (some base.ptt.members) := by
  have reset : resetPortable base.toValue = ((earlier ++ later).filter fun field => isPortable field.key).foldl
      (fun document field => document.setPath field.path (.scalar field.default_)) base.toValue := by
    rw [resetPortable, schema_portable, List.foldl_map]
    rfl
  have member (field : Field) : field ∈ ((earlier ++ later).filter fun field => isPortable field.key) ↔ isPortable field.key = true := by
    rw [List.mem_filter]
    refine ⟨fun both => both.2, fun is => ⟨?_, is⟩⟩
    rcases Field.earlier_or_later (Field.isPortable_iff.mp is).1 with before | after
    · exact List.mem_append_left _ before
    · exact List.mem_append_right _ after
  have all := base.holds.foldl ((earlier ++ later).filter fun field => isPortable field.key) Field.default_
  rw [reset]
  simp only [member] at all
  have same : (fun field => some (if isPortable field.key then field.default_ else base.leaf field)) =
      fun field => if isPortable field.key = true then some field.default_ else some (base.leaf field) := by
    funext field
    split <;> rfl
  rw [same]
  exact all

omit [Library] in
theorem section_nil : Section_ [] := ⟨.nil, fun _ none_ => absurd none_ List.not_mem_nil⟩

theorem sorted_keyed (settings : List (Text × Json)) :
    Section_ (keyed settings) ∧ ∀ name, (keyed settings).get? name = lastTaken settings (pttKey name) := by
  have start : Sorted { document := .object [] } (fun _ => none) (fun _ => none) none := ⟨holds_empty, section_nil, fun _ => rfl⟩
  have sorted := start.foldl settings
  exact ⟨sorted.section_, fun name => (sorted.keyed name).trans (Option.or_none)⟩

theorem keyed_congr {settings settings' : List (Text × Json)}
    (same : ∀ name, lastTaken settings (pttKey name) = lastTaken settings' (pttKey name)) : keyed settings = keyed settings' := by
  obtain ⟨section_, found⟩ := sorted_keyed settings
  obtain ⟨section', found'⟩ := sorted_keyed settings'
  exact Document.ext_get? section_.order section'.order fun name => by rw [found, found', same]

theorem sorted_settings (settings : List (Text × Json)) (base : Config) :
    Holds (settings.foldl sortLeaf { document := resetPortable base.toValue }).document
      (fun field => some (settled settings base field)) (some base.ptt.members) ∧
    (settings.foldl sortLeaf { document := resetPortable base.toValue }).ptt = keyed settings := by
  have start : Sorted { document := resetPortable base.toValue }
      (fun field => some (if isPortable field.key then field.default_ else base.leaf field)) (fun _ => none)
      (some base.ptt.members) := by
    refine ⟨?_, section_nil, fun _ => Keyed.get?_nil _⟩
    dsimp only
    exact holds_reset base
  have sorted := start.foldl settings
  obtain ⟨section_, found⟩ := sorted_keyed settings
  constructor
  · have values_eq : (fun field => (valueIn settings field).or
        (some (if isPortable field.key then field.default_ else base.leaf field))) =
        fun field => some (settled settings base field) := by
      funext field
      by_cases portable : isPortable field.key = true
      · simp only [settled, portable, if_true]
        cases valueIn settings field with
        | none => rw [Option.none_or, Option.getD_none]
        | some s => rw [Option.some_or, Option.getD_some]
      · have none_ : valueIn settings field = none := by
          rw [valueIn]
          cases last : lastTaken settings field.key with
          | none => rfl
          | some value =>
            rcases taken_cases (lastTaken_scalar last).1 with ⟨other, is, same⟩ | ⟨name, same⟩
            · exact absurd (Field.key_injective same ▸ is) portable
            · exact absurd same (field.key_ne_pttKey name)
        simp only [settled, portable, if_false, none_, Option.none_or, Bool.false_eq_true]
    rw [← values_eq]
    exact sorted.holds
  · refine Document.ext_get? sorted.section_.order section_.order fun name => ?_
    rw [found, sorted.keyed, Option.or_none]

omit [Library] in
theorem putKeying_eq (sorting : Sorting) :
    (putKeying sorting).document = sorting.document.setPath ["ptt".toList]
      (.object (if (sorting.ptt.get? "kind".toList).isSome then sorting.ptt else PttConfig.none.members)) ∧
    (putKeying sorting).unknown = sorting.unknown ∧ (putKeying sorting).ignored = sorting.ignored ∧
    (putKeying sorting).invalid.map Rejected.key = sorting.invalid.map Rejected.key ++
      (if (sorting.ptt.get? "kind".toList).isSome then [] else sorting.ptt.map fun field => pttKey field.1) := by
  unfold putKeying
  split
  · simp
  · refine ⟨rfl, rfl, rfl, ?_⟩
    rw [List.map_append, List.map_map]
    rfl

/-- What the document holds once a profile's settings are in it. -/
theorem sortSettings_holds (settings : Json) (base : Config) :
    Holds (sortSettings settings base.toValue).document (fun field => some (settled (leaves [] settings) base field))
      (some (keyingOf (leaves [] settings))) := by
  obtain ⟨holds, ptt⟩ := sorted_settings (leaves [] settings) base
  have section_ : Section_ (keyingOf (leaves [] settings)) := by
    unfold keyingOf
    split
    · exact (sorted_keyed _).1
    · exact PttConfig.none.section_
  rw [sortSettings, (putKeying_eq _).1, ptt]
  exact holds.rekey section_

/-- What is said of the settings. -/
theorem sortSettings_lists (settings : Json) (document : Json) :
    (sortSettings settings document).unknown = ((leaves [] settings).filter isUnknown).map Prod.fst ∧
    (sortSettings settings document).ignored = ((leaves [] settings).filter isIgnored).map Prod.fst := by
  obtain ⟨_, unknown, ignored, _⟩ := putKeying_eq ((leaves [] settings).foldl sortLeaf { document := resetPortable document })
  obtain ⟨unknown', ignored', _⟩ := foldl_lists (leaves [] settings) { document := resetPortable document }
  exact ⟨unknown.trans unknown', ignored.trans ignored'⟩

theorem sortSettings_invalid (settings : Json) (base : Config) :
    (sortSettings settings base.toValue).invalid.map Rejected.key = ((leaves [] settings).filter isInvalid).map Prod.fst ++
      (if ((keyed (leaves [] settings)).get? "kind".toList).isSome then []
        else (keyed (leaves [] settings)).map fun field => pttKey field.1) := by
  rw [sortSettings, (putKeying_eq _).2.2.2, (foldl_lists _ _).2.2, (sorted_settings _ base).2]
  rfl

/-! ### A profile applied -/

/-- What applying a profile produces when the configuration is found and valid. -/
def applied (profile : Daemon.Profile Json) (base : Config) (inventory : Option Daemon.Inventory) (config : Config) : Applied :=
  let sorted := sortSettings profile.settings base.toValue
  { config
    memories := (dials profile.memories).1
    changed := changedKeys base.toValue sorted.document
    unknown := sorted.unknown
    ignored := sorted.ignored
    invalid := sorted.invalid ++ (dials profile.memories).2
    missingHardware := missingHardware profile.hardware config inventory }

/-- A profile applies when every value it comes to is read and the whole is valid. -/
theorem apply_ok {profile : Daemon.Profile Json} {base : Config} {inventory : Option Daemon.Inventory} {out : Applied} :
    apply profile base inventory = .ok out ↔ ∃ config : Config,
      (∀ field : Field, field.spec.kind.decode (settled (leaves [] profile.settings) base field) = some (config.value field)) ∧
      PttConfig.decode (keyingOf (leaves [] profile.settings)) = some config.ptt ∧ config.validate = .ok () ∧
      out = applied profile base inventory config := by
  have reads (config : Config) := @Holds.fromValue _ _ _ config (sortSettings_holds profile.settings base)
  unfold apply
  dsimp only
  constructor
  · intro is
    cases found : Config.fromValue (sortSettings profile.settings base.toValue).document with
    | none =>
      rw [found] at is
      cases is
    | some config =>
      rw [found] at is
      dsimp only at is
      cases valid : config.validate with
      | error detail =>
        rw [valid] at is
        cases is
      | ok _ =>
        rw [valid] at is
        cases is
        obtain ⟨each, ptt⟩ := (reads config).mp found
        exact ⟨config, each, ptt, valid, rfl⟩
  · rintro ⟨config, each, ptt, valid, rfl⟩
    rw [(reads config).mpr ⟨each, ptt⟩]
    dsimp only
    rw [valid]
    rfl

end AetherHF.Settings

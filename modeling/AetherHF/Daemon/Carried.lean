import AetherHF.Daemon.Gathered
import AetherHF.Daemon.Valid

/-! What a profile of a configuration carries: its portable settings, and what they become when
they are put into another configuration. -/
namespace AetherHF.Settings

open Daemon (Memory Inventory)

variable [Library]

/-! ### What a profile changes -/

/-- What a field comes to is what a profile says of it where it is portable, and what it was where it is not. -/
theorem settled_portable {settings : List (Text × Json)} {base : Config} (base' : Config) {field : Field}
    (portable : isPortable field.key = true) : settled settings base field = settled settings base' field := by
  rw [settled, settled, if_pos portable, if_pos portable]

theorem settled_own {settings : List (Text × Json)} {base : Config} {field : Field} (own : isPortable field.key = false) :
    settled settings base field = base.leaf field := by
  rw [settled, own]
  rfl

omit [Library] in
theorem sameValue_refl (value : Json) : sameValue value value = true := by
  unfold sameValue
  cases asF64 value with
  | none => exact decide_eq_true rfl
  | some x =>
    refine decide_eq_true ?_
    rw [sub_self, abs_zero]
    positivity

omit [Library] in
/-- The keys that changed are those with another value than they had, or with none then. -/
theorem mem_changedKeys {before after : Json} (nodup : ((leaves [] before).map Prod.fst).Nodup) {key : Text} :
    key ∈ changedKeys before after ↔ ∃ value, (key, value) ∈ leaves [] after ∧
      ∀ old, (key, old) ∈ leaves [] before → sameValue old value = false := by
  have found (old : Json) (among : (key, old) ∈ leaves [] before) :
      ((leaves [] before).find? fun leaf => leaf.1 = key) = some (key, old) := by
    refine find?_eq_some_of_unique among (decide_eq_true rfl) fun other member named => ?_
    have named : other.1 = key := of_decide_eq_true named
    exact List.inj_on_of_nodup_map nodup member among named
  rw [changedKeys, List.mem_insertionSort, List.mem_map]
  constructor
  · rintro ⟨⟨_, value⟩, inside, rfl⟩
    obtain ⟨among, differs⟩ := List.mem_filter.mp inside
    refine ⟨value, among, fun old was => ?_⟩
    dsimp only at differs
    rw [found old was] at differs
    simpa using differs
  · rintro ⟨value, among, differs⟩
    refine ⟨(key, value), List.mem_filter.mpr ⟨among, ?_⟩, rfl⟩
    dsimp only
    cases was : (leaves [] before).find? fun leaf => leaf.1 = key with
    | none => rfl
    | some leaf =>
      have matched := List.find?_some was
      have named : leaf.1 = key := of_decide_eq_true matched
      obtain ⟨_, old⟩ := leaf
      cases named
      simpa using differs old (List.mem_of_find?_eq_some was)

theorem applied_invalid (profile : Daemon.Profile Json) (base : Config) (inventory : Option Inventory) (config : Config) :
    (applied profile base inventory config).invalid.map Rejected.key =
      (((leaves [] profile.settings).filter isInvalid).map Prod.fst ++
        (if ((keyed (leaves [] profile.settings)).get? "kind".toList).isSome then []
          else (keyed (leaves [] profile.settings)).map fun field => pttKey field.1)) ++
        (dials profile.memories).2.map Rejected.key := by
  rw [applied]
  dsimp only
  rw [List.map_append, sortSettings_invalid]

/-! ### What a profile of a configuration comes to -/

/-- A configuration with the portable settings and the keying section of another. -/
def carry (config base : Config) : Config where
  value field := if isPortable field.key then config.value field else base.value field
  ptt := config.ptt

section

variable {config base : Config}

omit [Library] in
theorem carry_portable {field : Field} (portable : isPortable field.key = true) :
    (carry config base).value field = config.value field := by
  rw [carry]
  dsimp only
  rw [if_pos portable]

omit [Library] in
theorem carry_own {field : Field} (own : isPortable field.key = false) : (carry config base).value field = base.value field := by
  rw [carry]
  dsimp only
  rw [own]
  rfl

omit [Library] in
theorem gathers_leaf {leaf : Text × Json} (among : leaf ∈ leaves [] config.toValue) : Gathers leaf := by
  obtain ⟨key, value⟩ := leaf
  rcases config.holds.mem_leaves.mp among with ⟨field, s, _, rfl, rfl⟩ | ⟨members, is, m, member, rfl, rfl⟩
  · exact .inl ⟨field, s, rfl⟩
  · have is : members = config.ptt.members := (Option.some.inj is).symm
    subst is
    obtain ⟨s, scalar⟩ := config.ptt.section_.flat m member
    obtain ⟨field, inRegistry, named, _⟩ := PttConfig.keys member
    refine .inr ⟨m.1, s, ?_, by rw [scalar]⟩
    rw [named]
    exact names_plain field inRegistry

omit [Library] in
/-- The settings of a profile are the portable leaves, each once. -/
theorem leaves_portable (config : Config) :
    (∀ leaf, leaf ∈ leaves [] (portable config) ↔ leaf ∈ leaves [] config.toValue ∧ isPortable leaf.1 = true) ∧
      ((leaves [] (portable config)).map Prod.fst).Nodup := by
  have nodup : (((leaves [] config.toValue).filter fun leaf => isPortable leaf.1).map Prod.fst).Nodup :=
    config.holds.leaves_nodup.sublist (List.filter_sublist.map _)
  obtain ⟨same, once⟩ := leaves_gathered (fun leaf member => gathers_leaf (List.mem_filter.mp member).1) nodup
  exact ⟨fun leaf => (same leaf).trans List.mem_filter, once⟩

/-- Every leaf of a valid configuration that is portable is taken. -/
theorem taken_leaf (finite : config.Finite) (valid : config.Valid) {leaf : Text × Json}
    (among : leaf ∈ leaves [] config.toValue) (portable : isPortable leaf.1 = true) : taken leaf = true := by
  have whole := valid.bounds leaf among
  obtain ⟨key, value⟩ := leaf
  rcases config.holds.mem_leaves.mp among with ⟨field, s, is, rfl, rfl⟩ | ⟨members, is, m, member, rfl, rfl⟩
  · have is := Option.some.inj is
    subst is
    obtain ⟨some_, scope⟩ := Field.isPortable_iff.mp portable
    refine (Field.taken_iff some_).mpr ⟨scope, field.fits_value (finite field), ?_⟩
    rw [← field.rule_terms]
    exact violation_eq_none.mp whole
  · have is : members = config.ptt.members := (Option.some.inj is).symm
    subst is
    obtain ⟨field, inRegistry, named, fit⟩ := PttConfig.keys member
    rw [taken, named, find_keying inRegistry, Option.any_some]
    rw [named] at fit whole
    have scope := (registry_keying inRegistry).2
    simp only [KeyingField.setting, scope, fit, whole, Option.isNone_none, Bool.and_self]

/-- Every setting of a profile of a valid configuration is taken. -/
theorem taken_portable (finite : config.Finite) (valid : config.Valid) {leaf : Text × Json}
    (among : leaf ∈ leaves [] (portable config)) : taken leaf = true := by
  obtain ⟨inside, is⟩ := (leaves_portable config).1 leaf |>.mp among
  exact taken_leaf finite valid inside is

theorem settled_carry (finite : config.Finite) (valid : config.Valid) (field : Field) :
    settled (leaves [] (portable config)) base field = (carry config base).leaf field := by
  rw [settled]
  by_cases is : isPortable field.key = true
  · have among : (field.key, .scalar (config.leaf field)) ∈ leaves [] (portable config) :=
      ((leaves_portable config).1 _).mpr ⟨config.holds.mem_leaves.mpr (.inl ⟨field, _, rfl, rfl, rfl⟩), is⟩
    have last := lastTaken_eq_some (leaves_portable config).2 among (taken_portable finite valid among)
    rw [if_pos is, valueIn, last]
    exact congrArg field.spec.kind.encode (carry_portable is).symm
  · rw [if_neg is, Config.leaf, Config.leaf, carry_own (Bool.not_eq_true _ |>.mp is)]

theorem keyed_portable (finite : config.Finite) (valid : config.Valid) :
    keyed (leaves [] (portable config)) = config.ptt.members := by
  obtain ⟨section_, found⟩ := sorted_keyed (leaves [] (portable config))
  refine Document.ext_get? section_.order config.ptt.section_.order fun name => ?_
  rw [found]
  cases is : Keyed.get? config.ptt.members name with
  | none =>
    refine lastTaken_eq_none fun value among => ?_
    obtain ⟨inside, _⟩ := (leaves_portable config).1 _ |>.mp among
    rcases config.holds.mem_leaves.mp inside with ⟨field, _, _, named, _⟩ | ⟨members, same, m, member, named, _⟩
    · exact field.key_ne_pttKey name named.symm
    · have same : members = config.ptt.members := (Option.some.inj same).symm
      subst same
      obtain ⟨inner, there⟩ := Document.get?_isSome_of_mem member
      rw [pttKey_injective named, there] at is
      cases is
  | some value =>
    have inside : (pttKey name, value) ∈ leaves [] config.toValue :=
      config.holds.mem_leaves.mpr (.inr ⟨_, rfl, _, Keyed.mem_of_get? is, rfl, rfl⟩)
    have among := ((leaves_portable config).1 _).mpr ⟨inside, isPortable_pttKey name⟩
    exact lastTaken_eq_some (leaves_portable config).2 among (taken_portable finite valid among)

omit [Library] in
/-- A keying section names its kind. -/
theorem kind_members (ptt : PttConfig) : (Keyed.get? ptt.members "kind".toList).isSome = true := by
  have there : ∃ kind, PttConfig.tag kind ∈ ptt.members := by
    cases ptt with
    | none => exact ⟨"none", by simp [PttConfig.members]⟩
    | serial port line => exact ⟨"serial", by simp [PttConfig.members]⟩
    | rigctld address => exact ⟨"rigctld", by simp [PttConfig.members]⟩
    | flrig address => exact ⟨"flrig", by simp [PttConfig.members]⟩
    | cat port protocol baud civAddress source => exact ⟨"cat", by simp [PttConfig.members]⟩
    | cm108 device gpio => exact ⟨"cm108", by simp [PttConfig.members]⟩
    | host leadMs => exact ⟨"host", by simp [PttConfig.members]⟩
  obtain ⟨kind, member⟩ := there
  have found : Keyed.get? ptt.members "kind".toList = some (.scalar (.string kind.toList)) :=
    Document.get?_of_mem ptt.section_.order member
  rw [found]
  rfl

theorem keyingOf_portable (finite : config.Finite) (valid : config.Valid) :
    keyingOf (leaves [] (portable config)) = config.ptt.members := by
  rw [keyingOf, keyed_portable finite valid, if_pos (kind_members config.ptt)]

omit [Library] in
/-- A profile carries every value the checks of a whole configuration read together, or none of them. -/
theorem carried_together : isPortable Field.callsign.key = true ∧ isPortable Field.operatorGrid.key = true ∧
    isPortable Field.radioCwId.key = true ∧ isPortable Field.radioCwIdWpm.key = true ∧
    isPortable Field.simListen.key = false ∧ isPortable Field.simConnect.key = false ∧
    isPortable Field.controlEnabled.key = false ∧ isPortable Field.controlBind.key = false ∧
    isPortable Field.controlToken.key = false := by
  decide +kernel

/-- What is valid on both sides is valid together. -/
theorem carry_valid (valid : config.Valid) (valid' : base.Valid) : (carry config base).Valid := by
  obtain ⟨call, grid, cw, wpm, listen, connect, enabled, bind, token⟩ := carried_together
  have call_ : (carry config base).callsign = config.callsign := carry_portable call
  have grid_ : (carry config base).grid = config.grid := carry_portable grid
  have cw_ : (carry config base).cwId = config.cwId := carry_portable cw
  have wpm_ : (carry config base).cwIdWpm = config.cwIdWpm := carry_portable wpm
  have listen_ : (carry config base).simListen = base.simListen := carry_own listen
  have connect_ : (carry config base).simConnect = base.simConnect := carry_own connect
  have enabled_ : (carry config base).controlEnabled = base.controlEnabled := carry_own enabled
  have bind_ : (carry config base).controlBind = base.controlBind := carry_own bind
  have token_ : (carry config base).controlToken = base.controlToken := carry_own token
  refine ⟨call_ ▸ valid.named, call_ ▸ valid.callsign, grid_ ▸ valid.grid, fun ⟨key, value⟩ among => ?_, valid.addressed, ?_, ?_, ?_⟩
  · rcases (carry config base).holds.mem_leaves.mp among with ⟨field, s, is, rfl, rfl⟩ | ⟨members, is, m, member, rfl, rfl⟩
    · have is : (carry config base).leaf field = s := Option.some.inj is
      by_cases portable : isPortable field.key = true
      · have same : config.leaf field = s := by
          rw [← is, Config.leaf, Config.leaf, carry_portable portable]
        exact valid.bounds _ (config.holds.mem_leaves.mpr (.inl ⟨field, s, congrArg some same, rfl, rfl⟩))
      · have same : base.leaf field = s := by
          rw [← is, Config.leaf, Config.leaf, carry_own (Bool.not_eq_true _ |>.mp portable)]
        exact valid'.bounds _ (base.holds.mem_leaves.mpr (.inl ⟨field, s, congrArg some same, rfl, rfl⟩))
    · exact valid.bounds _ (config.holds.mem_leaves.mpr (.inr ⟨members, is, m, member, rfl, rfl⟩))
  · rw [listen_, connect_]
    exact valid'.apart
  · rw [cw_, wpm_, call_]
    exact valid.copied
  · rw [enabled_, bind_, token_]
    exact valid'.guarded

omit [Library] in
theorem carry_finite (finite : config.Finite) (finite' : base.Finite) : (carry config base).Finite := by
  intro field
  by_cases portable : isPortable field.key = true
  · rw [carry_portable portable]
    exact finite field
  · rw [carry_own (Bool.not_eq_true _ |>.mp portable)]
    exact finite' field

end

omit [Library] in
theorem capture_settings (name now : Text) (config : Config) (memories : List Memory) (inventory : Option Inventory) :
    (capture name config memories inventory now).settings = portable config ∧
      (capture name config memories inventory now).memories = some memories := by
  rw [capture]
  constructor <;> dsimp only

/-- What applying a profile of a valid configuration produces. -/
theorem capture_applied {config base : Config} (finite : config.Finite) (finite' : base.Finite) (valid : config.Valid)
    (valid' : base.Valid) (name now : Text) (memories : List Memory) (inventory inventory' : Option Inventory) :
    apply (capture name config memories inventory now) base inventory' =
      .ok (applied (capture name config memories inventory now) base inventory' (carry config base)) := by
  refine apply_ok.mpr ⟨carry config base, fun field => ?_, ?_, (Config.validate_ok _).mpr (carry_valid valid valid'), Eq.refl _⟩
  · rw [(capture_settings ..).1, settled_carry finite valid field]
    exact (field.decode_encode _).mpr (carry_finite finite finite' field)
  · rw [(capture_settings ..).1, keyingOf_portable finite valid]
    exact PttConfig.decode_members config.ptt

/-- Two configurations a profile was put into are the same in all it may carry, whatever they were before, and each is as
it was in the rest. -/
theorem apply_portable {profile : Daemon.Profile Json} {base base' : Config} {inventory inventory' : Option Inventory}
    {out out' : Applied} (here : apply profile base inventory = .ok out) (there : apply profile base' inventory' = .ok out') :
    (∀ field : Field, isPortable field.key = true → out.config.value field = out'.config.value field) ∧
    out.config.ptt = out'.config.ptt ∧
    (∀ field : Field, isPortable field.key = false → out.config.value field = base.value field) ∧
    (∀ key ∈ out.changed, isPortable key = true) ∧
    out.unknown = out'.unknown ∧ out.ignored = out'.ignored ∧
    out.invalid.map Rejected.key = out'.invalid.map Rejected.key ∧ out.memories = out'.memories := by
  obtain ⟨config, each, ptt, _, rfl⟩ := apply_ok.mp here
  obtain ⟨config', each', ptt', _, rfl⟩ := apply_ok.mp there
  have lists := sortSettings_lists profile.settings
  refine ⟨fun field portable => ?_, ?_, fun field own => ?_, fun key among => ?_, ?_, ?_, ?_, rfl⟩
  · have reads := each field
    rw [settled_portable base' portable, each' field] at reads
    exact (Option.some.inj reads).symm
  · exact Option.some.inj (ptt.symm.trans ptt')
  · have reads := each field
    rw [settled_own own] at reads
    obtain ⟨_, _, flat, either⟩ := field_kinds field field.mem_all
    rcases either with scope | exact_
    · rw [Field.isPortable_iff.mpr scope] at own
      cases own
    · exact Kind.decode_encode_eq flat exact_ reads
  · obtain ⟨value, after, differs⟩ := (mem_changedKeys base.holds.leaves_nodup).mp among
    rcases (sortSettings_holds profile.settings base).mem_leaves.mp after with ⟨field, s, is, rfl, rfl⟩ | ⟨_, _, m, _, rfl, _⟩
    · by_contra own
      have own := Bool.not_eq_true _ |>.mp own
      have is := Option.some.inj is
      rw [settled_own own] at is
      have was := differs (.scalar s) (base.holds.mem_leaves.mpr (.inl ⟨field, s, congrArg some is, rfl, rfl⟩))
      rw [sameValue_refl] at was
      cases was
    · exact isPortable_pttKey m.1
  · exact (lists base.toValue).1.trans (lists base'.toValue).1.symm
  · exact (lists base.toValue).2.trans (lists base'.toValue).2.symm
  · rw [applied_invalid, applied_invalid]

omit [Library] in
/-- What the profile of one station's defaults makes of another's and of its own. -/
theorem apply_portable_defaults : ∃ out out', @apply quiet
      (capture "Field day".toList (Config.withCallsign "G4ABC".toList) Memory.defaults none "2026-06-27".toList)
      (Config.withCallsign "M0XYZ".toList) none = .ok out ∧
    @apply quiet (capture "Field day".toList (Config.withCallsign "G4ABC".toList) Memory.defaults none "2026-06-27".toList)
      (Config.withCallsign "G4ABC".toList) none = .ok out' ∧
    out.config.value .callsign = out'.config.value .callsign ∧ out.config.ptt = out'.config.ptt := by
  have valid (callsign : Text) (known : callsign ∈ ["G4ABC".toList, "M0XYZ".toList]) :=
    (@Config.validate_ok quiet _).mp (callsigns_validate callsign known)
  have here := @capture_applied quiet _ _ (Config.withCallsign_finite "G4ABC".toList) (Config.withCallsign_finite "M0XYZ".toList)
    (valid _ (by simp)) (valid _ (by simp)) "Field day".toList "2026-06-27".toList Memory.defaults none none
  have there := @capture_applied quiet _ _ (Config.withCallsign_finite "G4ABC".toList) (Config.withCallsign_finite "G4ABC".toList)
    (valid _ (by simp)) (valid _ (by simp)) "Field day".toList "2026-06-27".toList Memory.defaults none none
  obtain ⟨carried, ptt, _⟩ := @apply_portable quiet _ _ _ _ _ _ _ here there
  exact ⟨_, _, here, there, carried _ carried_together.1, ptt⟩

end AetherHF.Settings

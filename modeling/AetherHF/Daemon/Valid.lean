import AetherHF.Daemon.Sorting

/-! What is checked of a configuration as a whole, and that the defaults pass it. -/
namespace AetherHF.Settings

variable [Library]

theorem checkBounds_ok {document : Json} : checkBounds document = .ok () ↔ ∀ leaf ∈ leaves [] document, violation leaf.1 leaf.2 = none := by
  rw [checkBounds, ← List.findSome?_eq_none_iff]
  split
  · rename_i reason broken
    simp [broken]
  · rename_i whole
    simp [whole]

namespace Config

/-- What is checked of a configuration. -/
structure Valid (config : Config) : Prop where
  named : (Text.trim config.callsign).isEmpty = false
  callsign : validateCallsign config.callsign = .ok ()
  grid : config.grid.isEmpty = true ∨ isLocator config.grid = true
  bounds : ∀ leaf ∈ leaves [] config.toValue, violation leaf.1 leaf.2 = none
  addressed : config.addressed = true
  apart : config.simListen.isSome = true → config.simConnect.isSome = false
  copied : (config.cwId || requiredFor config.callsign) = true → config.cwIdWpm.copied = true
  guarded : config.controlEnabled = true → Library.loopback config.controlBind = false → config.controlToken.isSome = true

omit [Library] in
theorem unless_ok {test : Bool} {reason : String} {rest : Except String Unit} :
    (if test = true then (do throw reason; rest) else rest) = .ok () ↔ test = false ∧ rest = .ok () := by
  cases test
  · simp
  · simp [throw, throwThe, MonadExceptOf.throw, bind, Except.bind]

omit [Library] in
theorem then_ok {first rest : Except String Unit} : (do first; rest) = .ok () ↔ first = .ok () ∧ rest = .ok () := by
  cases first <;> simp [bind, Except.bind]

omit [Library] in
theorem last_ok {test : Bool} {reason : String} :
    (if test = true then throw reason else pure () : Except String Unit) = .ok () ↔ test = false := by
  cases test
  · simp [pure, Except.pure]
  · simp [throw, throwThe, MonadExceptOf.throw]

theorem validate_ok (config : Config) : config.validate = .ok () ↔ config.Valid := by
  rw [validate, unless_ok, then_ok, unless_ok, then_ok, unless_ok, unless_ok, unless_ok, last_ok, checkBounds_ok]
  constructor
  · rintro ⟨named, callsign, grid, bounds, addressed, apart, copied, guarded⟩
    refine ⟨named, callsign, ?_, bounds, ?_, fun listen => ?_, fun needed => ?_, fun enabled far => ?_⟩
    · cases empty : config.grid.isEmpty
      · simpa [empty] using grid
      · exact .inl rfl
    · simpa using addressed
    · simpa [listen] using apart
    · simpa [needed] using copied
    · simpa [enabled, far] using guarded
  · intro ⟨named, callsign, grid, bounds, addressed, apart, copied, guarded⟩
    refine ⟨named, callsign, ?_, bounds, ?_, ?_, ?_, ?_⟩
    · rcases grid with empty | located
      · simp [empty]
      · simp [located]
    · simp [addressed]
    · cases listen : config.simListen.isSome
      · rfl
      · simp [apart listen]
    · cases needed : config.cwId || requiredFor config.callsign
      · rfl
      · simp [copied needed]
    · cases enabled : config.controlEnabled
      · rfl
      · cases near : Library.loopback config.controlBind
        · simp [guarded enabled near]
        · rfl
end Config

/-- Whether every number of a configuration is one a document can say. -/
def Config.Finite (config : Config) : Prop := ∀ field : Field, field.spec.kind.Finite (config.value field)

/-! ### The defaults are valid -/

omit [Library] in
theorem defaults_within : ∀ field ∈ Field.all,
    (field.terms.options = [] ∨ ∃ option ∈ field.terms.options, field.default_ = .string option.toList ∨
      ∃ n ∈ asF64 (.scalar field.default_), field.default_ = .int n.num ∧ toString n.num = option) ∧
    ∀ number ∈ asF64 (.scalar field.default_), (∀ min ∈ field.terms.min, min ≤ number) ∧ ∀ max ∈ field.terms.max, number ≤ max := by
  decide +kernel

/-- Every default passes its own rule. -/
theorem Field.default_taken (field : Field) : field.terms.Takes (.scalar field.default_) := by
  obtain ⟨either, bounds⟩ := defaults_within field field.mem_all
  refine .inr ⟨either.imp_right ?_, bounds⟩
  rintro ⟨option, member, is | ⟨n, _, is, text⟩⟩
  · rw [is]
    exact List.mem_map_of_mem member
  · rw [is]
    exact List.mem_map.mpr ⟨option, member, congrArg String.toList text.symm⟩

omit [Library] in
/-- The rule of the keying kind has the kind that keys nothing. -/
theorem kind_none : (ruleFor (pttKey "kind".toList)).min = none ∧ (ruleFor (pttKey "kind".toList)).max = none ∧
    "none" ∈ (ruleFor (pttKey "kind".toList)).options := by
  decide +kernel

/-- A callsign and every default are a valid configuration, where the control port's default address is the computer's own. -/
theorem Config.withCallsign_valid {callsign : Text} (named : (Text.trim callsign).isEmpty = false)
    (packs : validateCallsign callsign = .ok ()) (near : Library.loopback "127.0.0.1:8515".toList = true) :
    (Config.withCallsign callsign).Valid where
  named := named
  callsign := packs
  grid := .inl rfl
  bounds := by
    rintro ⟨key, value⟩ among
    rw [violation_eq_none]
    rcases (Config.withCallsign callsign).holds.mem_leaves.mp among with ⟨field, s, is, rfl, rfl⟩ | ⟨members, is, m, member, rfl, rfl⟩
    · have is : (Config.withCallsign callsign).leaf field = s := Option.some.inj is
      rw [field.rule_terms, ← is]
      have plain : (Config.withCallsign callsign).leaf field = field.default_ ∨ field = .schemaVersion ∨ field = .callsign := by
        cases field <;> first | exact .inl (Eq.refl _) | exact .inr (.inl (Eq.refl _)) | exact .inr (.inr (Eq.refl _))
      rcases plain with is | rfl | rfl
      · rw [is]
        exact field.default_taken
      · exact .inr ⟨.inl (Eq.refl _), fun _ _ => ⟨nofun, nofun⟩⟩
      · exact .inr ⟨.inl (Eq.refl _), fun _ _ => ⟨nofun, nofun⟩⟩
    · have is : members = PttConfig.none.members := (Option.some.inj is).symm
      subst is
      obtain rfl := List.mem_singleton.mp member
      obtain ⟨_, _, listed⟩ := kind_none
      exact .inr ⟨.inr (List.mem_map_of_mem listed), nofun⟩
  addressed := rfl
  apart := nofun
  copied _ := by
    show Double.copied (.finite 20) = true
    decide
  guarded _ far := by
    have near : Library.loopback (Config.withCallsign callsign).controlBind = true := near
    rw [near] at far
    cases far

omit [Library] in
theorem Config.withCallsign_finite (callsign : Text) : (Config.withCallsign callsign).Finite := by
  intro field
  cases field <;> first | trivial | exact ⟨_, Eq.refl _⟩

/-- Libraries that know the computer's own address, and say nothing else. -/
@[reducible] def quiet : Library where
  loopback address := "127.0.0.1:".toList.isPrefixOf address
  display _ := ""
  displayDouble _ := ""
  refusal _ := ""

omit [Library] in
theorem callsigns_validate (callsign : Text) (known : callsign ∈ ["G4ABC".toList, "M0XYZ".toList]) :
    @Config.validate quiet (Config.withCallsign callsign) = .ok () := by
  have checked : ∀ callsign ∈ ["G4ABC".toList, "M0XYZ".toList],
      (Text.trim callsign).isEmpty = false ∧ (Link.packCallsign callsign).isOk = true := by
    decide +kernel
  obtain ⟨named, packs⟩ := checked callsign known
  refine (@Config.validate_ok quiet _).mpr (@Config.withCallsign_valid quiet _ named ?_ (by decide +kernel))
  rw [validateCallsign]
  cases packed : Link.packCallsign callsign with
  | ok bytes => rfl
  | error e =>
    rw [packed] at packs
    cases packs

end AetherHF.Settings

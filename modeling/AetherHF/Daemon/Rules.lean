import AetherHF.Base.Lists
import AetherHF.Daemon.Leaves
import AetherHF.Daemon.Registry

/-! What the registry says of each field and of each field of the keying section, and what of a
value it takes. -/
namespace AetherHF.Settings

/-! ### The rules -/

/-- What a rule says of a value. -/
structure Terms where
  scope : Scope := .portable
  nullable : Bool := false
  min : Option ℚ := none
  max : Option ℚ := none
  options : List String := []

/-- The same with the texts spelt out. -/
def Terms.spelt (terms : Terms) : Scope × Bool × Option ℚ × Option ℚ × List Text :=
  (terms.scope, terms.nullable, terms.min, terms.max, terms.options.map String.toList)

def Rule.terms (rule : Rule) : Terms := ⟨rule.scope, rule.nullable, rule.min, rule.max, rule.options⟩

def Field.terms : Field → Terms
  | .operatorPowerW => { nullable := true, min := some positive, max := some 2000 }
  | .audioInput | .audioOutput => { scope := .hardware, nullable := true }
  | .audioSampleRate => { options := ["48000"] }
  | .audioTxLevel => { min := some positive, max := some 1 }
  | .radioMaxKeyS => { min := some positive }
  | .radioBandwidth => { options := ["2300", "500"] }
  | .radioMaxMode | .kissRung => { min := some 0, max := some 19 }
  | .radioAnswerGapMs => { min := some 0, max := some 2000 }
  | .radioTurnaroundMs => { min := some 0, max := some 1500 }
  | .controlEnabled | .controlBind | .recordSendToProject | .simSnrDb | .waterfallAuto | .waterfallFloorDb | .waterfallGainDb
  | .waterfallSpeed | .waterfallPalette | .kissBind => { scope := .machine }
  | .controlToken => { scope := .secret, nullable := true }
  | .controlUiDir | .logFile | .recordDir | .simListen | .simConnect => { scope := .machine, nullable := true }
  | .logFormat => { options := ["text", "json"] }
  | .updateChannel => { options := ["stable", "beta", "nightly"] }
  | .panelInterface => { nullable := true }
  | .regulatoryProfile => { options := ["", "none", "us-fcc-part97"] }
  | .regulatoryControl => { options := ["", "local", "remote", "automatic"] }
  | .regulatoryLicenseClass => { options := ["", "novice", "technician", "general", "advanced", "extra"] }
  | .regulatorySideband => { options := ["usb", "lsb"] }
  | .regulatoryItuRegion => { min := some 1, max := some 3 }
  | .regulatoryEdgeMarginHz => { min := some 0, max := some 1000 }
  | .regulatoryDialHz => { scope := .machine, nullable := true, min := some 1 }
  | .kissMaxClients => { min := some 1, max := some 16 }
  | _ => {}

/-- A field of a keying section: its type, whether it may be unset, and its default. -/
structure KeyingField where
  name : String
  type_ : TypeName
  default_ : Scalar
  scope : Scope := .portable
  nullable : Bool := false

/-- The fields of the keying sections, the template's kind's first. -/
def catFields : List KeyingField := [
  { name := "baud", type_ := .integer, default_ := .int 19200 },
  { name := "civ_address", type_ := .integer, default_ := .int 148, nullable := true },
  { name := "kind", type_ := .string, default_ := .string "none".toList },
  { name := "port", type_ := .string, default_ := .string "COM7".toList, scope := .hardware },
  { name := "protocol", type_ := .string, default_ := .string "icom".toList },
  { name := "source", type_ := .string, default_ := .string "data".toList }]

def otherFields : List KeyingField := [
  { name := "line", type_ := .string, default_ := .string "rts".toList },
  { name := "address", type_ := .string, default_ := .string "127.0.0.1:4532".toList },
  { name := "device", type_ := .string, default_ := .string "hid#vid_0d8c&pid_000c".toList, scope := .hardware, nullable := true },
  { name := "gpio", type_ := .integer, default_ := .int 3 },
  { name := "lead_ms", type_ := .integer, default_ := .int 150 }]

def Field.typeName (field : Field) : TypeName := Settings.typeName (.scalar (field.spec.kind.encode field.spec.template))

def Field.default_ (field : Field) : Scalar := field.spec.kind.encode field.spec.default_

def Field.setting (field : Field) : Setting := ⟨field.key, field.typeName, .scalar field.default_, field.terms.scope⟩

def KeyingField.setting (field : KeyingField) : Setting := ⟨pttKey field.name.toList, field.type_, .scalar field.default_, field.scope⟩

/-- The fields before the keying section in a document, and those after it. -/
def earlier : List Field := Field.all.take 31

def later : List Field := (Field.all.drop 31).filter (· ≠ .schemaVersion)

/-- What the registry says, field by field. -/
theorem registry : (∀ field ∈ Field.all, (ruleFor field.key).terms.spelt = field.terms.spelt) ∧
    (∀ field ∈ catFields ++ otherFields, (ruleFor (pttKey field.name.toList)).nullable = field.nullable ∧
      field.scope.isPortable = true) ∧
    ((catFields ++ otherFields).map fun field => field.name.toList).Nodup ∧
    schema = earlier.map Field.setting ++ catFields.map KeyingField.setting ++ later.map Field.setting ++
      otherFields.map KeyingField.setting := by
  decide +kernel

theorem names_nodup : ((catFields ++ otherFields).map fun field => field.name.toList).Nodup := by
  obtain ⟨_, _, nodup, _⟩ := registry
  exact nodup

theorem Terms.spelt_injective {terms other : Terms} (same : terms.spelt = other.spelt) : terms = other := by
  cases terms
  cases other
  simp only [Terms.spelt, Prod.mk.injEq, Terms.mk.injEq] at same ⊢
  obtain ⟨scope, nullable, min, max, options⟩ := same
  exact ⟨scope, nullable, min, max, List.map_injective_iff.mpr (fun _ _ => String.toList_inj.mp) options⟩

namespace Field

variable {field : Field}

theorem rule_terms (field : Field) : (ruleFor field.key).terms = field.terms :=
  Terms.spelt_injective (registry.1 field field.mem_all)

theorem nullable_eq (field : Field) : (ruleFor field.key).nullable = field.terms.nullable := congrArg Terms.nullable field.rule_terms

theorem earlier_or_later (some_ : field ≠ .schemaVersion) : field ∈ earlier ∨ field ∈ later := by
  have member := field.mem_all
  rw [← List.take_append_drop 31 Field.all] at member
  rcases List.mem_append.mp member with before | after
  · exact .inl before
  · exact .inr (List.mem_filter.mpr ⟨after, decide_eq_true some_⟩)

theorem setting_mem (some_ : field ≠ .schemaVersion) : field.setting ∈ schema := by
  rw [registry.2.2.2]
  rcases earlier_or_later some_ with before | after
  · exact List.mem_append_left _ (List.mem_append_left _ (List.mem_append_left _ (List.mem_map_of_mem before)))
  · exact List.mem_append_left _ (List.mem_append_right _ (List.mem_map_of_mem after))

end Field

theorem KeyingField.setting_mem {field : KeyingField} (among : field ∈ catFields ++ otherFields) : field.setting ∈ schema := by
  rw [registry.2.2.2]
  rcases List.mem_append.mp among with cat | other
  · exact List.mem_append_left _ (List.mem_append_left _ (List.mem_append_right _ (List.mem_map_of_mem cat)))
  · exact List.mem_append_right _ (List.mem_map_of_mem other)

/-- Every setting is a field's or one of the keying section's. -/
theorem mem_schema {setting : Setting} (member : setting ∈ schema) :
    (∃ field, field ≠ Field.schemaVersion ∧ setting = field.setting) ∨
      ∃ field ∈ catFields ++ otherFields, setting = field.setting := by
  rw [registry.2.2.2] at member
  rcases List.mem_append.mp member with member | other
  · rcases List.mem_append.mp member with member | after
    · rcases List.mem_append.mp member with before | cat
      · obtain ⟨field, among, rfl⟩ := List.mem_map.mp before
        refine .inl ⟨field, fun first => ?_, rfl⟩
        subst first
        exact absurd among (by decide)
      · obtain ⟨field, among, rfl⟩ := List.mem_map.mp cat
        exact .inr ⟨field, List.mem_append_left _ among, rfl⟩
    · obtain ⟨field, among, rfl⟩ := List.mem_map.mp after
      exact .inl ⟨field, of_decide_eq_true (List.mem_filter.mp among).2, rfl⟩
  · obtain ⟨field, among, rfl⟩ := List.mem_map.mp other
    exact .inr ⟨field, List.mem_append_right _ among, rfl⟩

theorem find_field {field : Field} (some_ : field ≠ .schemaVersion) :
    (schema.find? fun setting => setting.key = field.key) = some field.setting := by
  refine find?_eq_some_of_unique (Field.setting_mem some_) (decide_eq_true rfl) fun setting member named => ?_
  have named : setting.key = field.key := of_decide_eq_true named
  rcases mem_schema member with ⟨other, _, rfl⟩ | ⟨other, _, rfl⟩
  · rw [Field.key_injective named]
  · exact absurd named.symm (field.key_ne_pttKey _)

theorem find_keying {field : KeyingField} (among : field ∈ catFields ++ otherFields) :
    (schema.find? fun setting => setting.key = pttKey field.name.toList) = some field.setting := by
  refine find?_eq_some_of_unique (KeyingField.setting_mem among) (decide_eq_true rfl) fun setting member named => ?_
  have named : setting.key = pttKey field.name.toList := of_decide_eq_true named
  rcases mem_schema member with ⟨other, _, rfl⟩ | ⟨other, among', rfl⟩
  · exact absurd named (other.key_ne_pttKey _)
  · have named : pttKey other.name.toList = pttKey field.name.toList := named
    have same : other.name.toList = field.name.toList := pttKey_injective named
    rw [List.inj_on_of_nodup_map names_nodup among' among same]

theorem find_cases {key : Text} {setting : Setting} (found : (schema.find? fun setting => setting.key = key) = some setting) :
    (∃ field, field ≠ Field.schemaVersion ∧ key = field.key ∧ setting = field.setting) ∨
      ∃ field ∈ catFields ++ otherFields, key = pttKey field.name.toList ∧ setting = field.setting := by
  have matched := List.find?_some found
  have named : setting.key = key := of_decide_eq_true matched
  rcases mem_schema (List.mem_of_find?_eq_some found) with ⟨field, some_, rfl⟩ | ⟨field, among, rfl⟩
  · exact .inl ⟨field, some_, named.symm, rfl⟩
  · exact .inr ⟨field, among, named.symm, rfl⟩

/-! ### Values and their types -/

namespace Kind

/-- Whether a value is one a document can say: no infinite number, and no number that is none. -/
def Finite : (kind : Kind) → kind.Value → Prop
  | .float, value => ∃ q, value = Double.finite q
  | .optional kind, some value => kind.Finite value
  | _, _ => True

/-- The type of the values of a kind, and of the unset ones when they are set. -/
def typeName : Kind → TypeName
  | .bool => .boolean
  | .uint _ => .integer
  | .float => .number
  | .text | .choice _ => .string
  | .optional kind => kind.typeName

def isOptional : Kind → Bool
  | .optional _ => true
  | _ => false

theorem decode_encode_plain (kind : Kind) (plain : kind.isOptional = false) (value : kind.Value) :
    kind.decode (kind.encode value) = some value ↔ kind.Finite value := by
  cases kind with
  | bool => exact ⟨fun _ => trivial, fun _ => rfl⟩
  | uint max =>
    refine ⟨fun _ => trivial, fun _ => ?_⟩
    rw [encode, decode, dif_pos ⟨Int.natCast_nonneg _, value.2⟩]
    rfl
  | float =>
    cases value with
    | finite q => exact ⟨fun _ => ⟨q, rfl⟩, fun _ => rfl⟩
    | infinite negative => exact ⟨nofun, fun ⟨q, same⟩ => nomatch same⟩
    | nan => exact ⟨nofun, fun ⟨q, same⟩ => nomatch same⟩
  | text => exact ⟨fun _ => trivial, fun _ => rfl⟩
  | choice options =>
    refine ⟨fun _ => trivial, fun _ => ?_⟩
    rw [encode, decode, dif_pos value.2]
    rfl
  | optional kind => cases plain

/-- What is written is read back, but for what a document cannot say. -/
theorem decode_encode (kind : Kind) (single : ∀ inner, kind = .optional inner → inner.isOptional = false) (value : kind.Value) :
    kind.decode (kind.encode value) = some value ↔ kind.Finite value := by
  by_cases optional : kind.isOptional = true
  · cases kind with
    | optional inner =>
      cases value with
      | none => exact ⟨fun _ => trivial, fun _ => rfl⟩
      | some value =>
        have plain := inner.decode_encode_plain (single inner rfl) value
        by_cases null : inner.encode value = .null
        · have unread : inner.decode .null = none := by
            cases inner <;> first | rfl | cases single _ rfl
          refine ⟨fun is => ?_, fun finite => ?_⟩
          · rw [encode, null, decode] at is
            cases is
          · rw [null, unread] at plain
            cases plain.mpr finite
        · have read : (Kind.optional inner).decode (inner.encode value) = (inner.decode (inner.encode value)).map some := by
            cases is : inner.encode value with
            | null => exact absurd is null
            | bool b => rfl
            | int n => rfl
            | float q => rfl
            | string s => rfl
          have reads : (Kind.optional inner).decode (inner.encode value) = some (some value) ↔
              inner.decode (inner.encode value) = some value := by
            rw [read]
            exact Option.map_eq_some_iff.trans ⟨fun ⟨v, is, same⟩ => Option.some.inj same ▸ is, fun is => ⟨value, is, rfl⟩⟩
          exact reads.trans plain
    | bool => cases optional
    | uint max => cases optional
    | float => cases optional
    | text => cases optional
    | choice options => cases optional
  · exact kind.decode_encode_plain (Bool.not_eq_true _ |>.mp optional) value

end Kind

end AetherHF.Settings

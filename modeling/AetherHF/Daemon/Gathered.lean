import AetherHF.Daemon.Sorting

/-! Documents gathered from the leaves of others, and which leaves of a configuration a profile's
sorting takes. -/
namespace AetherHF.Settings

/-! ### A document gathered from leaves -/

/-- A value of a field, or of the keying section under a name with no dot. -/
def Gathers (leaf : Text × Json) : Prop :=
  (∃ (field : Field) (s : Scalar), leaf = (field.key, .scalar s)) ∨
    ∃ (name : Text) (s : Scalar), '.' ∉ name ∧ leaf = (pttKey name, .scalar s)

/-- A document that holds the leaves of a list. -/
structure Gathered (document : Json) (list : List (Text × Json)) (values : Field → Option Scalar)
    (ptt : Option (Keyed Text Json)) : Prop where
  holds : Holds document values ptt
  fields : ∀ field s, values field = some s ↔ (field.key, .scalar s) ∈ list
  keyings : ∀ name value, (ptt.getD []).get? name = some value ↔ (pttKey name, value) ∈ list

theorem gathered (list : List (Text × Json)) (each : ∀ leaf ∈ list, Gathers leaf) (nodup : (list.map Prod.fst).Nodup) :
    ∃ values ptt, Gathered (list.foldl (fun out leaf => setLeaf out leaf.1 leaf.2) (.object [])) list values ptt := by
  induction list using List.reverseRecOn with
  | nil =>
    refine ⟨fun _ => none, none, holds_empty, fun _ _ => ?_, fun _ _ => ?_⟩
    · simp
    · simp
  | append_singleton list leaf ih =>
    rw [List.map_append, List.nodup_append] at nodup
    obtain ⟨nodup, _, apart⟩ := nodup
    have new {value : Json} : (leaf.1, value) ∉ list := fun among => by
      have inList : leaf.1 ∈ list.map Prod.fst := List.mem_map.mpr ⟨_, among, rfl⟩
      exact apart leaf.1 inList leaf.1 (by simp) rfl
    obtain ⟨values, ptt, before⟩ := ih (fun leaf among => each leaf (List.mem_append_left _ among)) nodup
    rw [List.foldl_append, List.foldl_cons, List.foldl_nil]
    rcases each leaf (by simp) with ⟨field, s, rfl⟩ | ⟨name, s, plain, rfl⟩
    · refine ⟨Function.update values field (some s), ptt, before.holds.set field s, fun other t => ?_, fun name value => ?_⟩
      · by_cases same : other = field
        · subst same
          have no : (other.key, Document.scalar t) ∉ list := new
          simp [no, eq_comm]
        · have unlike : other.key ≠ field.key := fun keys => same (Field.key_injective keys)
          simp [same, unlike, before.fields]
      · have unlike : pttKey name ≠ field.key := (field.key_ne_pttKey name).symm
        simp [unlike, before.keyings]
    · have path : (pttKey name).splitOn '.' = ["ptt".toList, name] := by
        rw [splitOn_pttKey, List.splitOn_eq_singleton plain]
      refine ⟨values, some (Document.insert (ptt.getD []) name (.scalar s)), ?_, fun field t => ?_, fun other value => ?_⟩
      · rw [setLeaf, path]
        exact before.holds.key name s
      · have unlike : field.key ≠ pttKey name := field.key_ne_pttKey name
        simp [unlike, before.fields]
      · rw [Option.getD_some, Document.get?_insert]
        by_cases same : other = name
        · subst same
          have no : (pttKey other, value) ∉ list := new
          simp [no, eq_comm]
        · have unlike : pttKey other ≠ pttKey name := fun keys => same (pttKey_injective keys)
          simp [same, unlike, before.keyings]

/-- The leaves of a document gathered from leaves are those, each once. -/
theorem leaves_gathered {list : List (Text × Json)} (each : ∀ leaf ∈ list, Gathers leaf) (nodup : (list.map Prod.fst).Nodup) :
    (∀ leaf, leaf ∈ leaves [] (list.foldl (fun out leaf => setLeaf out leaf.1 leaf.2) (.object [])) ↔ leaf ∈ list) ∧
      ((leaves [] (list.foldl (fun out leaf => setLeaf out leaf.1 leaf.2) (.object []))).map Prod.fst).Nodup := by
  obtain ⟨values, ptt, all⟩ := gathered list each nodup
  refine ⟨fun ⟨key, value⟩ => ?_, all.holds.leaves_nodup⟩
  rw [all.holds.mem_leaves]
  constructor
  · rintro (⟨field, s, is, rfl, rfl⟩ | ⟨members, rfl, m, member, rfl, rfl⟩)
    · exact (all.fields field s).mp is
    · have order := (all.holds.section_ members rfl).order
      exact (all.keyings m.1 m.2).mp (Document.get?_of_mem order member)
  · intro among
    rcases each _ among with ⟨field, s, same⟩ | ⟨name, s, _, same⟩
    · cases same
      exact .inl ⟨field, s, (all.fields field s).mpr among, rfl, rfl⟩
    · cases same
      have found := (all.keyings name (.scalar s)).mpr among
      cases ptt with
      | none => cases found
      | some members => exact .inr ⟨members, rfl, _, Keyed.mem_of_get? found, rfl, rfl⟩

/-! ### What is written fits -/

theorem fits_encode_plain {key : Text} (kind : Kind) (plain : kind.isOptional = false) {value : kind.Value}
    (finite : kind.Finite value) : fits key (.scalar (kind.encode value)) kind.typeName = true := by
  cases kind with
  | bool => rfl
  | uint max => rfl
  | float =>
    obtain ⟨q, rfl⟩ := finite
    rfl
  | text => rfl
  | choice options => rfl
  | optional kind => cases plain

/-- What a field serialises to is of the field's type, where the rule lets the unset ones be. -/
theorem fits_encode_optional {key : Text} (inner : Kind) (plain : inner.isOptional = false) (unset : (ruleFor key).nullable = true)
    {value : (Kind.optional inner).Value} (finite : (Kind.optional inner).Finite value) :
    fits key (.scalar ((Kind.optional inner).encode value)) inner.typeName = true := by
  cases value with
  | none => exact unset
  | some value => exact fits_encode_plain inner plain finite

/-! ### The keying section -/

theorem registry_keying {field : KeyingField} (among : field ∈ catFields ++ otherFields) :
    (ruleFor (pttKey field.name.toList)).nullable = field.nullable ∧ field.scope.isPortable = true := by
  obtain ⟨_, each, _⟩ := registry
  exact each field among

/-- No name of a field of the keying section has a dot. -/
theorem names_plain : ∀ field ∈ catFields ++ otherFields, '.' ∉ field.name.toList := by decide +kernel

/-- A value of a field the registry has in the keying section. -/
def Keys (m : Text × Json) : Prop :=
  ∃ field ∈ catFields ++ otherFields, m.1 = field.name.toList ∧ fits (pttKey m.1) m.2 field.type_ = true

theorem keys_plain (field : KeyingField) (among : field ∈ catFields ++ otherFields) (kind : Kind)
    (typed : kind.typeName = field.type_) (plain : kind.isOptional = false) {value : kind.Value} (finite : kind.Finite value) :
    Keys (PttConfig.member field.name kind value) := by
  refine ⟨field, among, rfl, ?_⟩
  rw [← typed]
  exact fits_encode_plain kind plain finite

theorem keys_optional (field : KeyingField) (among : field ∈ catFields ++ otherFields) (inner : Kind)
    (typed : inner.typeName = field.type_) (plain : inner.isOptional = false) (unset : field.nullable = true)
    {value : (Kind.optional inner).Value} (finite : (Kind.optional inner).Finite value) :
    Keys (PttConfig.member field.name (.optional inner) value) := by
  refine ⟨field, among, rfl, ?_⟩
  rw [← typed]
  exact fits_encode_optional inner plain ((registry_keying among).1.trans unset) finite

/-- Every value of a keying section is of a field the registry has, and fits it. -/
theorem PttConfig.keys {ptt : PttConfig} {m : Text × Json} (member : m ∈ ptt.members) : Keys m := by
  have tagged (kind : String) : Keys (tag kind) :=
    keys_plain ⟨"kind", .string, .string "none".toList, .portable, false⟩ (by simp [catFields]) .text rfl rfl trivial
  have port (s : Text) : Keys (PttConfig.member "port" .text s) :=
    keys_plain ⟨"port", .string, .string "COM7".toList, .hardware, false⟩ (by simp [catFields]) .text rfl rfl trivial
  have address (s : Text) : Keys (PttConfig.member "address" .text s) :=
    keys_plain ⟨"address", .string, .string "127.0.0.1:4532".toList, .portable, false⟩ (by simp [otherFields]) .text rfl rfl trivial
  cases ptt with
  | none =>
    obtain rfl := List.mem_singleton.mp member
    exact tagged "none"
  | serial device line =>
    simp only [members, List.mem_cons, List.not_mem_nil, or_false] at member
    rcases member with rfl | rfl | rfl
    · exact tagged "serial"
    · exact keys_plain ⟨"line", .string, .string "rts".toList, .portable, false⟩ (by simp [otherFields]) _ rfl rfl trivial
    · exact port device
  | rigctld at_ =>
    simp only [members, List.mem_cons, List.not_mem_nil, or_false] at member
    rcases member with rfl | rfl
    · exact address at_
    · exact tagged "rigctld"
  | flrig at_ =>
    simp only [members, List.mem_cons, List.not_mem_nil, or_false] at member
    rcases member with rfl | rfl
    · exact address at_
    · exact tagged "flrig"
  | cat device protocol baud civAddress source =>
    simp only [members, List.mem_cons, List.not_mem_nil, or_false] at member
    rcases member with rfl | rfl | rfl | rfl | rfl | rfl
    · exact keys_plain ⟨"baud", .integer, .int 19200, .portable, false⟩ (by simp [catFields]) .u32 rfl rfl trivial
    · refine keys_optional ⟨"civ_address", .integer, .int 148, .portable, true⟩ (by simp [catFields]) .u8 rfl rfl rfl ?_
      cases civAddress <;> trivial
    · exact tagged "cat"
    · exact port device
    · exact keys_plain ⟨"protocol", .string, .string "icom".toList, .portable, false⟩ (by simp [catFields]) _ rfl rfl trivial
    · exact keys_plain ⟨"source", .string, .string "data".toList, .portable, false⟩ (by simp [catFields]) _ rfl rfl trivial
  | cm108 device gpio =>
    simp only [members, List.mem_cons, List.not_mem_nil, or_false] at member
    rcases member with rfl | rfl | rfl
    · refine keys_optional ⟨"device", .string, .string "hid#vid_0d8c&pid_000c".toList, .hardware, true⟩ (by simp [otherFields])
        .text rfl rfl rfl ?_
      cases device <;> trivial
    · exact keys_plain ⟨"gpio", .integer, .int 3, .portable, false⟩ (by simp [otherFields]) .u8 rfl rfl trivial
    · exact tagged "cm108"
  | host leadMs =>
    simp only [members, List.mem_cons, List.not_mem_nil, or_false] at member
    rcases member with rfl | rfl
    · exact tagged "host"
    · exact keys_plain ⟨"lead_ms", .integer, .int 150, .portable, false⟩ (by simp [otherFields]) .u32 rfl rfl trivial

/-! ### The keying section read back -/

theorem kinds_apart : (["host", "cm108", "cat", "flrig", "rigctld", "serial", "none"].map String.toList).Pairwise (· ≠ ·) := by
  decide +kernel

namespace PttConfig

theorem only_eq (members : Keyed Text Json) (names : List String) : only members names =
    (members.map Prod.fst).all fun name => name = "kind".toList || (names.map String.toList).contains name := by
  rw [only, List.all_map]
  rfl

section

variable {members : Keyed Text Json} (order : members.Pairwise fun a b => a.1 < b.1)
include order

/-- A field written is read back. -/
theorem read_member (name : String) (kind : Kind) (missing : Option kind.Value) (plain : kind.isOptional = false)
    (finite : ∀ value : kind.Value, kind.Finite value) (value : kind.Value) (there : member name kind value ∈ members) :
    read members name kind missing = some value := by
  have found : members.get? name.toList = some (.scalar (kind.encode value)) := Document.get?_of_mem order there
  rw [read, found]
  exact (kind.decode_encode_plain plain value).mpr (finite value)

theorem read_optional (name : String) (inner : Kind) (missing : Option (Kind.optional inner).Value) (plain : inner.isOptional = false)
    (finite : ∀ value : inner.Value, inner.Finite value) (value : (Kind.optional inner).Value)
    (there : member name (.optional inner) value ∈ members) : read members name (.optional inner) missing = some value := by
  have found : members.get? name.toList = some (.scalar ((Kind.optional inner).encode value)) := Document.get?_of_mem order there
  have single : ∀ other, Kind.optional inner = .optional other → other.isOptional = false := by
    rintro other ⟨⟩
    exact plain
  rw [read, found]
  refine ((Kind.optional inner).decode_encode single value).mpr ?_
  cases value with
  | none => trivial
  | some value => exact finite value

theorem read_text (name : String) (missing : Option Kind.text.Value) (value : Text) (there : member name .text value ∈ members) :
    read members name .text missing = some value :=
  read_member order name .text missing rfl (fun _ => trivial) value there

end

/-- A keying section is read from its own members. -/
theorem decode_members (ptt : PttConfig) : decode ptt.members = some ptt := by
  have order := ptt.section_.order
  have apart := kinds_apart
  simp only [List.map_cons, List.map_nil, List.pairwise_cons, List.mem_cons, List.not_mem_nil, or_false, forall_eq_or_imp,
    forall_eq, ne_eq, List.Pairwise.nil] at apart
  obtain ⟨host, cm108, cat, flrig, rigctld, serial, _⟩ := apart
  cases ptt with
  | none => rfl
  | serial device line =>
    have named : only (PttConfig.serial device line).members ["port", "line"] = true := by
      rw [only_eq]
      show ["kind".toList, "line".toList, "port".toList].all _ = true
      decide +kernel
    have kind := read_text order "kind" Option.none "serial".toList (by simp [members, tag])
    have port := read_text order "port" Option.none device (by simp [members])
    have line_ := read_member order "line" (.choice lines) (some lineRts) rfl (fun _ => trivial) line
      (by simp [members])
    simp only [decode, kind, named, port, line_, serial, Option.bind_eq_bind, Option.bind_some, Option.pure_def, guard, if_true, if_false]
    rfl
  | rigctld at_ =>
    have named : only (PttConfig.rigctld at_).members ["address"] = true := by
      rw [only_eq]
      show ["address".toList, "kind".toList].all _ = true
      decide +kernel
    have kind := read_text order "kind" Option.none "rigctld".toList (by simp [members, tag])
    have address := read_text order "address" (some "127.0.0.1:4532".toList) at_ (by simp [members])
    simp only [decode, kind, named, address, rigctld, Option.bind_eq_bind, Option.bind_some, Option.pure_def, guard, if_true, if_false]
    rfl
  | flrig at_ =>
    have named : only (PttConfig.flrig at_).members ["address"] = true := by
      rw [only_eq]
      show ["address".toList, "kind".toList].all _ = true
      decide +kernel
    have kind := read_text order "kind" Option.none "flrig".toList (by simp [members, tag])
    have address := read_text order "address" (some "127.0.0.1:12345".toList) at_ (by simp [members])
    simp only [decode, kind, named, address, flrig, Option.bind_eq_bind, Option.bind_some, Option.pure_def, guard, if_true, if_false]
    rfl
  | cat device protocol baud civAddress source =>
    have named : only (PttConfig.cat device protocol baud civAddress source).members
        ["port", "protocol", "baud", "civ_address", "source"] = true := by
      rw [only_eq]
      show ["baud".toList, "civ_address".toList, "kind".toList, "port".toList, "protocol".toList, "source".toList].all _ = true
      decide +kernel
    have kind := read_text order "kind" Option.none "cat".toList (by simp [members, tag])
    have port := read_text order "port" Option.none device (by simp [members])
    have protocol_ := read_member order "protocol" (.choice protocols) Option.none rfl (fun _ => trivial) protocol
      (by simp [members])
    have baud_ := read_member order "baud" .u32 (some defaultCatBaud) rfl (fun _ => trivial) baud (by simp [members])
    have civ := read_optional order "civ_address" .u8 (some Option.none) rfl (fun _ => trivial) civAddress
      (by simp [members])
    have source_ := read_member order "source" (.choice sources) (some sourceData) rfl (fun _ => trivial)
      source (by simp [members])
    simp only [decode, kind, named, port, protocol_, baud_, civ, source_, cat, Option.bind_eq_bind, Option.bind_some,
      Option.pure_def, guard, if_true, if_false]
    rfl
  | cm108 device gpio =>
    have named : only (PttConfig.cm108 device gpio).members ["device", "gpio"] = true := by
      rw [only_eq]
      show ["device".toList, "gpio".toList, "kind".toList].all _ = true
      decide +kernel
    have kind := read_text order "kind" Option.none "cm108".toList (by simp [members, tag])
    have device_ := read_optional order "device" .text (some Option.none) rfl (fun _ => trivial) device (by simp [members])
    have gpio_ := read_member order "gpio" .u8 (some defaultGpio) rfl (fun _ => trivial) gpio (by simp [members])
    simp only [decode, kind, named, device_, gpio_, cm108, Option.bind_eq_bind, Option.bind_some, Option.pure_def, guard, if_true, if_false]
  | host leadMs =>
    have named : only (PttConfig.host leadMs).members ["lead_ms"] = true := by
      rw [only_eq]
      show ["kind".toList, "lead_ms".toList].all _ = true
      decide +kernel
    have kind := read_text order "kind" Option.none "host".toList (by simp [members, tag])
    have lead := read_member order "lead_ms" .u32 (some defaultHostLead) rfl (fun _ => trivial) leadMs (by simp [members])
    simp only [decode, kind, named, lead, host, Option.bind_eq_bind, Option.bind_some, Option.pure_def, guard, if_true, if_false]

end PttConfig

/-! ### Fields -/

/-- Whether a kind holds no number that a document cannot say once it is written and read back. -/
def Kind.exact : Kind → Bool
  | .optional .float => false
  | _ => true

def Kind.flat : Kind → Bool
  | .optional kind => !kind.isOptional
  | _ => true

theorem field_kinds : ∀ field ∈ Field.all, field.typeName = field.spec.kind.typeName ∧
    field.spec.kind.isOptional = field.terms.nullable ∧ field.spec.kind.flat = true ∧
    (field ≠ .schemaVersion ∧ field.terms.scope.isPortable = true ∨ field.spec.kind.exact = true) := by
  decide +kernel

theorem Kind.single {kind inner : Kind} (flat : kind.flat = true) (is : kind = .optional inner) : inner.isOptional = false := by
  subst is
  exact Bool.not_eq_true' _ |>.mp flat

/-- What is read back of an exact kind is what was written. -/
theorem Kind.decode_encode_eq {kind : Kind} (flat : kind.flat = true) (exact_ : kind.exact = true) {value other : kind.Value}
    (reads : kind.decode (kind.encode value) = some other) : other = value := by
  have written : kind.decode (kind.encode value) = some value → other = value := fun is => Option.some.inj (reads.symm.trans is)
  refine written ((kind.decode_encode (fun _ => Kind.single flat) value).mpr ?_)
  cases kind with
  | bool => trivial
  | uint max => trivial
  | text => trivial
  | choice options => trivial
  | float =>
    cases value with
    | finite q => exact ⟨q, rfl⟩
    | infinite negative => cases reads
    | nan => cases reads
  | optional inner =>
    cases value with
    | none => trivial
    | some value => cases inner <;> trivial

namespace Field

theorem flat (field : Field) : field.spec.kind.flat = true := by
  obtain ⟨_, _, flat, _⟩ := field_kinds field field.mem_all
  exact flat

theorem decode_encode (field : Field) (value : field.spec.kind.Value) :
    field.spec.kind.decode (field.spec.kind.encode value) = some value ↔ field.spec.kind.Finite value :=
  field.spec.kind.decode_encode (fun _ => Kind.single field.flat) value

/-- What is written of a field fits it. -/
theorem fits_value (field : Field) {value : field.spec.kind.Value} (finite : field.spec.kind.Finite value) :
    fits field.key (.scalar (field.spec.kind.encode value)) field.typeName = true := by
  obtain ⟨typed, unset, flat, _⟩ := field_kinds field field.mem_all
  have nullable := field.nullable_eq
  rw [← unset] at nullable
  rw [typed]
  generalize field.spec.kind = kind at value finite flat nullable
  cases kind with
  | optional inner => exact fits_encode_optional inner (Kind.single flat rfl) nullable finite
  | bool => exact fits_encode_plain _ rfl finite
  | uint max => exact fits_encode_plain _ rfl finite
  | float => exact fits_encode_plain _ rfl finite
  | text => exact fits_encode_plain _ rfl finite
  | choice options => exact fits_encode_plain _ rfl finite

end Field

variable [Library]

/-! ### Leaves taken -/

theorem lastTaken_eq_some {settings : List (Text × Json)} (nodup : (settings.map Prod.fst).Nodup) {key : Text} {value : Json}
    (among : (key, value) ∈ settings) (is : taken (key, value) = true) : lastTaken settings key = some value := by
  induction settings with
  | nil => cases among
  | cons leaf rest ih =>
    rw [List.map_cons, List.nodup_cons] at nodup
    rw [lastTaken_cons]
    rcases List.mem_cons.mp among with rfl | inRest
    · have none_ : lastTaken rest key = none := by
        cases last : lastTaken rest key with
        | none => rfl
        | some other =>
          obtain ⟨found, inside, _⟩ := Option.map_eq_some_iff.mp last
          obtain ⟨inRest, both⟩ := List.mem_filter.mp (List.mem_of_getLast? inside)
          have same : found.1 = key := of_decide_eq_true (Bool.and_eq_true_iff.mp both).1
          exact absurd (List.mem_map.mpr ⟨found, inRest, same⟩) nodup.1
      rw [none_, Option.none_or]
      simp [is]
    · rw [ih nodup.2 inRest, Option.some_or]

theorem lastTaken_eq_none {settings : List (Text × Json)} {key : Text} (none_ : ∀ value, (key, value) ∉ settings) :
    lastTaken settings key = none := by
  cases last : lastTaken settings key with
  | none => rfl
  | some other =>
    obtain ⟨found, inside, _⟩ := Option.map_eq_some_iff.mp last
    obtain ⟨inRest, both⟩ := List.mem_filter.mp (List.mem_of_getLast? inside)
    have same : found.1 = key := of_decide_eq_true (Bool.and_eq_true_iff.mp both).1
    exact absurd (same ▸ inRest) (none_ found.2)

omit [Library] in
/-- Every rule about the keying section is one a profile carries. -/
theorem isPortable_pttKey (name : Text) : isPortable (pttKey name) = true := by
  have about : ∀ rule ∈ rules, (pttPrefix.isPrefixOf rule.key.toList = true → rule.scope.isPortable = true) ∧
      (".*".toList.isSuffixOf rule.key.toList = true → rule.key.toList.dropLast.isPrefixOf pttPrefix = false ∧
        pttPrefix.isPrefixOf rule.key.toList.dropLast = false) := by
    decide +kernel
  have before : pttPrefix <+: pttKey name := List.isPrefixOf_iff_prefix.mp (isPrefixOf_pttPrefix name).1
  have scope : (ruleFor (pttKey name)).scope.isPortable = true := by
    unfold ruleFor
    generalize rules = all at about
    have wide : (all.find? fun rule => covers rule.key.toList (pttKey name)) = none := by
      refine List.find?_eq_none.mpr fun rule member covered => ?_
      obtain ⟨ends, begins⟩ := Bool.and_eq_true_iff.mp covered
      obtain ⟨less, more⟩ := (about rule member).2 ends
      rcases List.prefix_or_prefix_of_prefix (List.isPrefixOf_iff_prefix.mp begins) before with inside | inside
      · rw [List.isPrefixOf_iff_prefix.mpr inside] at less
        cases less
      · rw [List.isPrefixOf_iff_prefix.mpr inside] at more
        cases more
    rw [wide, Option.or_none]
    cases own : all.find? fun rule => rule.key.toList = pttKey name with
    | none => rfl
    | some rule =>
      have matched := List.find?_some own
      have named : rule.key.toList = pttKey name := of_decide_eq_true matched
      exact (about rule (List.mem_of_find?_eq_some own)).1 (named ▸ (isPrefixOf_pttPrefix name).1)
  have other : pttKey name ≠ "schema_version".toList := fun same => by
    have apart : pttPrefix.isPrefixOf "schema_version".toList = false := by decide +kernel
    rw [← same, (isPrefixOf_pttPrefix name).1] at apart
    cases apart
  exact Bool.and_eq_true_iff.mpr ⟨decide_eq_true other, scope⟩

end AetherHF.Settings

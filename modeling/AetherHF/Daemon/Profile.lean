import Mathlib.Algebra.Order.Ring.Unbundled.Rat
import AetherHF.Base.Keyed
import AetherHF.Daemon.Dials

/-! Profiles: a station's settings as one portable file, and the store that keeps them
beside the configuration. -/
namespace AetherHF.Daemon

/-! ### The configuration -/

/-- How the radio is keyed. -/
inductive PttConfig where
  | none
  | serial (port line : Text)
  | rigctld (address : Text)
  | flrig (address : Text)
  | cat (port protocol : Text) (baud : Nat) (civAddress : Option UInt8) (source : Text)
  | cm108 (device : Option Text) (gpio : Nat)
  | host (leadMs : Nat)
  deriving DecidableEq

structure Operator where
  grid : Text := []
  rig : Text := []
  powerW : Option ℚ := none
  antenna : Text := []
  deriving DecidableEq

structure Audio where
  input : Option Text := none
  output : Option Text := none
  txLevel : ℚ := 1 / 4
  deriving DecidableEq

structure Radio where
  maxKeyS : ℚ
  waitForClear : Bool
  busyThresholdDb : ℚ
  bandwidth : Nat
  answerOnly : Bool
  answerGapMs : Nat
  turnaroundMs : Nat
  maxMode : Nat
  cwId : Bool
  cwIdWpm : ℚ
  deriving DecidableEq

structure Record where
  auto : Bool
  sendToProject : Bool
  notes : Text
  deriving DecidableEq

/-- A configuration: what this part of the daemon reads of it by name, the regulatory
section `G`, and the rest of its settings `R`. -/
structure Config (G R : Type) where
  callsign : Text
  operator : Operator
  audio : Audio
  ptt : PttConfig
  radio : Radio
  record : Record
  regulatory : G
  rest : R

/-! ### The running station -/

/-- The Morse identifier, beyond its speed. -/
structure Tone where
  toneHz : ℚ
  level : ℚ
  deriving DecidableEq

/-- `CwId::default`. -/
def Tone.default : Tone := ⟨1500, 1 / 5⟩

/-- What the station runs on that `apply_live` sets. -/
structure Live (G : Type) where
  txLevel : ℚ
  maxKeyS : ℚ
  waitForClear : Bool
  answerGapS : ℚ
  turnaroundS : ℚ
  engineTurnaroundS : ℚ
  maxModeSetting : Option Nat
  linkMaxMode : Nat
  engineMaxMode : Nat
  homeHz : Nat
  answerOnly : Bool
  pttMaxKeyS : ℚ
  thresholdDb : ℚ
  recordAuto : Bool
  recordHostSessions : Bool
  recordNotes : Text
  operator : Operator
  regulatory : G
  /-- Speed and tone. -/
  cwId : Option (ℚ × Tone)
  cwIdWpm : ℚ
  keyedByHost : Bool
  /-- The rungs of the air it runs. -/
  rungs : Nat

namespace Live

variable {G R : Type}

/-- `[radio] max_mode` held to the last rung of the ladder in use. -/
def topRung (live : Live G) : Nat := min (live.maxModeSetting.getD live.linkMaxMode) (live.rungs - 1)

def applyLive (live : Live G) (config : Config G R) : Live G :=
  let live := { live with
    txLevel := config.audio.txLevel
    maxKeyS := config.radio.maxKeyS
    waitForClear := config.radio.waitForClear
    answerGapS := config.radio.answerGapMs / 1000
    turnaroundS := config.radio.turnaroundMs / 1000
    engineTurnaroundS := config.radio.turnaroundMs / 1000
    maxModeSetting := some config.radio.maxMode }
  { live with
    linkMaxMode := live.topRung
    engineMaxMode := live.topRung
    homeHz := config.radio.bandwidth
    answerOnly := config.radio.answerOnly
    pttMaxKeyS := config.radio.maxKeyS
    thresholdDb := config.radio.busyThresholdDb
    recordAuto := config.record.auto
    recordHostSessions := config.record.sendToProject
    recordNotes := config.record.notes
    operator := config.operator
    regulatory := config.regulatory
    cwId := if config.radio.cwId then
        some (config.radio.cwIdWpm,
          ⟨live.cwId.elim Tone.default.toneHz (·.2.toneHz), Tone.default.level⟩)
      else none
    cwIdWpm := config.radio.cwIdWpm
    keyedByHost := match config.ptt with
      | .host _ => true
      | _ => false }

/-- The station runs on these settings. -/
structure Runs (live : Live G) (config : Config G R) : Prop where
  txLevel : live.txLevel = config.audio.txLevel
  maxKeyS : live.maxKeyS = config.radio.maxKeyS ∧ live.pttMaxKeyS = config.radio.maxKeyS
  waitForClear : live.waitForClear = config.radio.waitForClear
  answerGapS : live.answerGapS = config.radio.answerGapMs / 1000
  turnaroundS : live.turnaroundS = config.radio.turnaroundMs / 1000 ∧
    live.engineTurnaroundS = config.radio.turnaroundMs / 1000
  maxMode : live.maxModeSetting = some config.radio.maxMode ∧
    live.engineMaxMode = min config.radio.maxMode (live.rungs - 1) ∧ live.linkMaxMode = live.engineMaxMode
  homeHz : live.homeHz = config.radio.bandwidth
  answerOnly : live.answerOnly = config.radio.answerOnly
  thresholdDb : live.thresholdDb = config.radio.busyThresholdDb
  record : live.recordAuto = config.record.auto ∧ live.recordHostSessions = config.record.sendToProject ∧
    live.recordNotes = config.record.notes
  operator : live.operator = config.operator
  regulatory : live.regulatory = config.regulatory
  cwId : live.cwId.map Prod.fst = (if config.radio.cwId then some config.radio.cwIdWpm else none) ∧
    live.cwIdWpm = config.radio.cwIdWpm
  keyedByHost : live.keyedByHost = true ↔ ∃ lead, config.ptt = .host lead

theorem runs_applyLive (live : Live G) (config : Config G R) : (live.applyLive config).Runs config where
  txLevel := rfl
  maxKeyS := ⟨rfl, rfl⟩
  waitForClear := rfl
  answerGapS := rfl
  turnaroundS := ⟨rfl, rfl⟩
  maxMode := ⟨rfl, rfl, rfl⟩
  homeHz := rfl
  answerOnly := rfl
  thresholdDb := rfl
  record := ⟨rfl, rfl, rfl⟩
  operator := rfl
  regulatory := rfl
  cwId := by
    refine ⟨?_, rfl⟩
    simp only [applyLive]
    split <;> rfl
  keyedByHost := by
    simp only [applyLive]
    split
    · rename_i lead keyed
      exact ⟨fun _ => ⟨lead, keyed⟩, fun _ => rfl⟩
    · rename_i other
      exact ⟨fun h => absurd h Bool.false_ne_true, fun ⟨lead, keyed⟩ => absurd keyed (other lead)⟩

end Live

/-! ### A profile -/

/-- What the driver said was behind a name. -/
structure DeviceHint where
  name : Text
  description : Text
  deriving DecidableEq

structure Hardware where
  pttPort : Option DeviceHint := none
  pttDevice : Option DeviceHint := none
  deriving DecidableEq

/-- What this machine has. -/
structure Inventory where
  inputs : List Text := []
  outputs : List Text := []
  serialPorts : List DeviceHint := []
  gpioInterfaces : List DeviceHint := []

def Inventory.isEmpty (inventory : Inventory) : Bool :=
  inventory.inputs.isEmpty && inventory.outputs.isEmpty && inventory.serialPorts.isEmpty &&
    inventory.gpioInterfaces.isEmpty

/-- A profile, its settings the document `J`. -/
structure Profile (J : Type) where
  format : Text
  schema : Nat
  settingsSchema : Nat
  aetherVersion : Text
  name : Text
  created : Text
  modified : Text
  settings : J
  hardware : Hardware
  memories : Option (List Memory)

/-- Why a profile could not be used. -/
inductive ProfileError where
  | notAProfile (detail : String)
  | newer (detail : String)
  | invalid (detail : String)
  | io (detail : String)
  | noSuchProfile (id : Text)
  | nameTaken (name : Text)
  | badName (detail : String)
  | noDirectory
  deriving DecidableEq

/-- The error in words; `{:?}` of an identifier is it between quotes. -/
def ProfileError.toText : ProfileError → String
  | .notAProfile detail => s!"this is not an Aether HF profile: {detail}"
  | .invalid detail => s!"the profile cannot be applied: {detail}"
  | .newer detail | .io detail | .badName detail => detail
  | .noSuchProfile id => s!"there is no profile called \"{String.ofList id}\""
  | .nameTaken name => s!"a profile called \"{String.ofList name}\" already exists"
  | .noDirectory => "this daemon was started without a configuration file, so it has nowhere to keep profiles"

structure MissingHardware where
  key : String
  name : Text
  suggestion : Option Text
  deriving DecidableEq

/-- A value the profile carried that was not taken. -/
structure Rejected (J : Type) where
  key : String
  value : J
  reason : String

/-- What a profile's settings were sorted into, beyond the ones that were taken. -/
structure Sorted (J : Type) where
  unknown : List String := []
  ignored : List String := []
  invalid : List (Rejected J) := []

/-- What applying a profile to a configuration produced. -/
structure Applied (G R J : Type) where
  config : Config G R
  memories : Option (List Memory)
  changed : List String
  unknown : List String
  ignored : List String
  invalid : List (Rejected J)
  missingHardware : List MissingHardware

/-- The documents and texts behind settings and profiles: the settings registry, the
serialisers and the two files' parsers. -/
structure Codec (G R J T : Type) where
  /-- The portable part of a configuration. -/
  portable : Config G R → J
  /-- A profile's settings put into a configuration, and what was not taken. -/
  sortSettings : J → Config G R → Except String (Config G R) × Sorted J
  validate : Config G R → Except String Unit
  /-- The keys whose value differs. -/
  changedKeys : Config G R → Config G R → List String
  isLive : String → Bool
  /-- `Config::with_callsign`. -/
  withCallsign : Text → Config G R
  null : J
  configText : Config G R → Except String T
  dialsText : List Memory → T
  stateText : Option Text → T
  toText : Profile J → T
  parse : T → Except ProfileError (Profile J)
  /-- `str::to_lowercase`. -/
  lower : Text → Text
  version : Text
  settingsSchema : Nat

namespace Profile

variable {G R J T : Type} (codec : Codec G R J T)

def format_ : Text := "aether-hf-profile".toList

def schema_ : Nat := 1

def hint (list : List DeviceHint) (name : Text) : DeviceHint :=
  ⟨name, ((list.find? (·.name = name)).map DeviceHint.description).getD []⟩

/-- A profile of a configuration as it stands. -/
def capture (name : Text) (config : Config G R) (memories : List Memory) (inventory : Option Inventory)
    (now : Text) : Profile J where
  format := format_
  schema := schema_
  settingsSchema := codec.settingsSchema
  aetherVersion := codec.version
  name := Text.trim name
  created := now
  modified := now
  settings := codec.portable config
  hardware := match config.ptt with
    | .serial port _ | .cat port .. => { pttPort := some (hint (inventory.elim [] (·.serialPorts)) port) }
    | .cm108 (some path) _ => { pttDevice := some (hint (inventory.elim [] (·.gpioInterfaces)) path) }
    | _ => {}
  memories := some memories

/-- A profile of the defaults, keeping only who the station is. -/
def fresh (name : Text) (identity : Config G R) (now : Text) : Profile J :=
  capture codec name { codec.withCallsign identity.callsign with operator := identity.operator }
    Memory.defaults none now

/-- The one device with the description, if there is exactly one. -/
def onlyMatch (list : List DeviceHint) (device : Option DeviceHint) : Option Text :=
  let description := device.elim [] DeviceHint.description
  if description = [] then none
  else match list.filter (·.description = description) with
    | [one] => some one.name
    | _ => none

/-- The devices a configuration names that this computer does not report. -/
def missingHardware (profile : Profile J) (config : Config G R) (inventory : Option Inventory) :
    List MissingHardware :=
  match inventory.filter (!·.isEmpty) with
  | none => []
  | some inventory =>
    let device (key : String) (name : Option Text) (names : List Text) : List MissingHardware :=
      match name with
      | some name => if name ∈ names then [] else [⟨key, name, none⟩]
      | none => []
    device "audio.input" config.audio.input inventory.inputs ++
      device "audio.output" config.audio.output inventory.outputs ++
      match config.ptt with
      | .serial port _ | .cat port .. =>
        if inventory.serialPorts.any (·.name = port) then []
        else [⟨"ptt.port", port, onlyMatch inventory.serialPorts profile.hardware.pttPort⟩]
      | .cm108 (some path) _ =>
        if inventory.gpioInterfaces.any (·.name = path) then []
        else [⟨"ptt.device", path, onlyMatch inventory.gpioInterfaces profile.hardware.pttDevice⟩]
      | _ => []

/-- The dials a profile carries, checked, and what is said of a list that was not taken. -/
def dials (profile : Profile J) : Option (List Memory) × List (Rejected J) :=
  match profile.memories with
  | none => (none, [])
  | some list => match Memory.replace list with
    | .ok list => (some list, [])
    | .error reason => (none, [⟨"memories", codec.null, s!"the dial list was left alone: {reason}"⟩])

/-- The profile applied to a configuration. -/
def apply (profile : Profile J) (base : Config G R) (inventory : Option Inventory) :
    Except ProfileError (Applied G R J) :=
  match codec.sortSettings profile.settings base with
  | (.error detail, _) => .error (.invalid detail)
  | (.ok config, sorted) => match codec.validate config with
    | .error detail => .error (.invalid detail)
    | .ok () => .ok
      { config
        memories := (profile.dials codec).1
        changed := codec.changedKeys base config
        unknown := sorted.unknown
        ignored := sorted.ignored
        invalid := sorted.invalid ++ (profile.dials codec).2
        missingHardware := profile.missingHardware config inventory }

variable {codec} {profile : Profile J} {base : Config G R} {inventory : Option Inventory}
  {applied : Applied G R J}

/-- What is applied has been checked: the settings as the file's are, the dials as a list. -/
theorem apply_checked (works : profile.apply codec base inventory = .ok applied) :
    codec.validate applied.config = .ok () ∧
      ∀ list, applied.memories = some list → Memory.replace list = .ok list := by
  unfold apply at works
  split at works
  · cases works
  split at works
  · cases works
  · rename_i valid
    cases works
    refine ⟨valid, fun list has => ?_⟩
    simp only [dials] at has
    split at has
    · cases has
    split at has
    · rename_i kept
      cases has
      exact Memory.replace_replace kept
    · cases has

end Profile

end AetherHF.Daemon

import AetherHF.Daemon.Profile
import AetherHF.Daemon.Registry

/-! Profiles of a configuration: what is taken out of one into a profile, and what putting a
profile's settings into another takes, sets aside and reports. -/
namespace AetherHF.Settings

open Daemon (Profile ProfileError Hardware DeviceHint Inventory Memory MissingHardware)

variable [Library]

/-! ### Taking the settings out -/

/-- The portable part of a configuration, in its own shape. -/
def portable (config : Config) : Json :=
  ((leaves [] config.toValue).filter fun leaf => isPortable leaf.1).foldl
    (fun out leaf => setLeaf out leaf.1 leaf.2) (.object [])

/-- What is remembered of the keying hardware. -/
def PttConfig.hardware (ptt : PttConfig) (inventory : Option Inventory) : Hardware :=
  match ptt with
  | .serial port _ | .cat port .. =>
    { pttPort := some (Profile.hint (inventory.elim [] (·.serialPorts)) port) }
  | .cm108 (some path) _ => { pttDevice := some (Profile.hint (inventory.elim [] (·.gpioInterfaces)) path) }
  | _ => {}

/-- A profile of a configuration as it stands. -/
def capture (name : Text) (config : Config) (memories : List Memory) (inventory : Option Inventory) (now : Text) :
    Profile Json where
  format := Profile.format_
  schema := Profile.schema_
  settingsSchema := Config.schemaVersion.1
  aetherVersion := packageVersion.toList
  name := Text.trim name
  created := now
  modified := now
  settings := portable config
  hardware := config.ptt.hardware inventory
  memories := some memories

/-- A profile of the defaults, keeping only who the station is. -/
def fresh (name : Text) (identity : Config) (now : Text) : Profile Json :=
  let plain := Config.withCallsign identity.callsign
  capture name
    { plain with
      value := fun
        | .operatorGrid => identity.value .operatorGrid
        | .operatorRig => identity.value .operatorRig
        | .operatorPowerW => identity.value .operatorPowerW
        | .operatorAntenna => identity.value .operatorAntenna
        | field => plain.value field }
    Memory.defaults none now

/-! ### Putting them in -/

/-- A value a profile carried that was not taken. -/
structure Rejected where
  key : Text
  value : Json
  reason : String

/-- What a profile's settings have been sorted into: the document they were put in, the keying section, and what was
set aside. -/
structure Sorting where
  document : Json
  ptt : Keyed Text Json := []
  unknown : List Text := []
  ignored : List Text := []
  invalid : List Rejected := []

/-- `ptt.`, before the name of a field of the keying section. -/
def pttPrefix : Text := "ptt.".toList

/-- One of a profile's values taken or set aside with the reason, by what the registry has under its key. -/
def sortAs (sorting : Sorting) (key : Text) (value : Json) : Option Setting → Sorting
  | none => { sorting with unknown := sorting.unknown ++ [key] }
  | some setting =>
    if !setting.scope.isPortable then { sorting with ignored := sorting.ignored ++ [key] }
    else if !fits key value setting.type_ then
      let reason := s!"{String.ofList key} must be a {setting.type_.word}, not {Library.display value}"
      { sorting with invalid := sorting.invalid ++ [⟨key, value, reason⟩] }
    else match violation key value with
      | some reason => { sorting with invalid := sorting.invalid ++ [⟨key, value, reason⟩] }
      | none =>
        if pttPrefix.isPrefixOf key then
          { sorting with ptt := Document.insert sorting.ptt (key.drop pttPrefix.length) value }
        else { sorting with document := setLeaf sorting.document key value }

def sortLeaf (sorting : Sorting) (leaf : Text × Json) : Sorting :=
  sortAs sorting leaf.1 leaf.2 (schema.find? (·.key = leaf.1))

/-- Every portable setting set to its default; the keying section is rebuilt from what the profile says. -/
def resetPortable (document : Json) : Json :=
  (schema.filter fun setting => setting.scope.isPortable && !pttPrefix.isPrefixOf setting.key).foldl
    (fun document setting => setLeaf document setting.key setting.default_) document

/-- The keying section put in: without a kind its fields have nothing to hang on. -/
def putKeying (sorting : Sorting) : Sorting :=
  if (sorting.ptt.get? "kind".toList).isSome then
    { sorting with document := sorting.document.setPath ["ptt".toList] (.object sorting.ptt) }
  else
    { sorting with
      invalid := sorting.invalid ++ sorting.ptt.map fun field =>
        ⟨pttPrefix ++ field.1, field.2, "the profile names no keying kind for it to belong to"⟩
      document := sorting.document.setPath ["ptt".toList] (.object PttConfig.none.members) }

/-- A profile's settings put into a document that starts as the running configuration. -/
def sortSettings (settings document : Json) : Sorting :=
  putKeying ((leaves [] settings).foldl sortLeaf { document := resetPortable document })

/-- The dotted keys whose value differs between two serialised configurations, sorted. -/
def changedKeys (before after : Json) : List Text :=
  let was := leaves [] before
  (((leaves [] after).filter fun leaf =>
    !(was.find? (·.1 = leaf.1)).any fun old => sameValue old.2 leaf.2).map Prod.fst).insertionSort (· ≤ ·)

/-- The devices a configuration names that this computer does not report. -/
def missingHardware (hardware : Hardware) (config : Config) (inventory : Option Inventory) : List MissingHardware :=
  match inventory.filter (!·.isEmpty) with
  | none => []
  | some inventory =>
    let device (key : String) (name : Option Text) (names : List Text) : List MissingHardware :=
      match name with
      | some name => if name ∈ names then [] else [⟨key, name, none⟩]
      | none => []
    device "audio.input" (config.value .audioInput) inventory.inputs ++
      device "audio.output" (config.value .audioOutput) inventory.outputs ++
      match config.ptt with
      | .serial port _ | .cat port .. =>
        if inventory.serialPorts.any (·.name = port) then []
        else [⟨"ptt.port", port, Profile.onlyMatch inventory.serialPorts hardware.pttPort⟩]
      | .cm108 (some (path : Text)) _ =>
        if inventory.gpioInterfaces.any (·.name = (path : Text)) then []
        else [⟨"ptt.device", path, Profile.onlyMatch inventory.gpioInterfaces hardware.pttDevice⟩]
      | _ => []

/-- What applying a profile to a configuration produced. -/
structure Applied where
  config : Config
  memories : Option (List Memory)
  changed : List Text
  unknown : List Text
  ignored : List Text
  invalid : List Rejected
  missingHardware : List MissingHardware

/-- The dials a profile carries, checked, and what is said of a list that was not taken. -/
def dials (memories : Option (List Memory)) : Option (List Memory) × List Rejected :=
  match memories with
  | none => (none, [])
  | some list => match Memory.replace list with
    | .ok list => (some list, [])
    | .error reason => (none, [⟨"memories".toList, .scalar .null, s!"the dial list was left alone: {reason}"⟩])

/-- A profile applied to a configuration. -/
def apply (profile : Profile Json) (base : Config) (inventory : Option Inventory) : Except ProfileError Applied :=
  let sorted := sortSettings profile.settings base.toValue
  match Config.fromValue sorted.document with
  | none => .error (.invalid (Library.refusal sorted.document))
  | some config => match config.validate with
    | .error detail => .error (.invalid detail)
    | .ok () => .ok
      { config
        memories := (dials profile.memories).1
        changed := changedKeys base.toValue sorted.document
        unknown := sorted.unknown
        ignored := sorted.ignored
        invalid := sorted.invalid ++ (dials profile.memories).2
        missingHardware := missingHardware profile.hardware config inventory }

end AetherHF.Settings

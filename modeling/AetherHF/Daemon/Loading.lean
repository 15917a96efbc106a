import Mathlib.Data.Char
import Mathlib.Data.List.Lex
import Mathlib.Data.List.Sort
import AetherHF.Daemon.Profile

/-! The `profile.*` methods that switch the station or write a profile, on a disk whose
every write may be refused. -/
namespace AetherHF.Daemon

variable {G R J T : Type}

/-! ### The disk -/

/-- The files: the configuration, the dial list, the mark of the active profile, and the
profiles by the stems of their names, one that cannot be read with the reason. -/
structure Disk (T : Type) where
  config : Option T
  dials : Option T
  active : Option T
  profiles : Keyed Text (Except String T)

/-- Why each file cannot be written, when it cannot. -/
structure Faults where
  config : Option String
  dials : Option String
  active : Option String
  profile : Option String

/-- A file written beside its target and renamed over it: all of it or nothing. -/
def writeAtomically (fault : Option String) (written disk : Disk T) : Except String Unit × Disk T :=
  match fault with
  | some detail => (.error detail, disk)
  | none => (.ok (), written)

/-! ### The store -/

/-- A profile as the list describes it. -/
structure Entry where
  id : Text
  name : Text
  created : Text
  modified : Text
  aetherVersion : Text
  error : Option String
  deriving DecidableEq

/-- What no file system takes in a name. -/
def illegal (c : Char) : Bool :=
  c.toNat < 0x20 || (0x7F ≤ c.toNat && c.toNat < 0xA0) || "/\\:*?\"<>|".toList.contains c

def edge (c : Char) : Bool := c = '.' || c = ' ' || c = '-'

/-- The name a file's stem is, and the file a name gets. -/
def idFor (name : Text) : Text :=
  let cleaned := (Text.trim name).map fun c => if illegal c then '-' else c
  let trimmed := ((cleaned.dropWhile edge).reverse.dropWhile edge).reverse
  if trimmed.isEmpty then "profile".toList else trimmed

/-- With the file of the profile of an id: its stem is again the id's, without what it may not have. -/
def Disk.put (disk : Disk T) (id : Text) (text : T) : Disk T :=
  { disk with profiles := disk.profiles.insert (idFor id) (.ok text) }

/-- `str::eq_ignore_ascii_case`. -/
def eqIgnoreAsciiCase (a b : Text) : Bool := Text.toAsciiUppercase a = Text.toAsciiUppercase b

/-- The profiles beside a configuration file, when there is one, and which is active. -/
structure Store where
  dir : Option Text
  active : Option Text
  deriving DecidableEq

namespace Store

def nameChars : Nat := 60

variable (codec : Codec G R J T) (store : Store) (disk : Disk T)

/-- A profile parsed, with the file's stem for a name when it has none. -/
def parseNamed (text : T) (id : Text) : Except ProfileError (Profile J) :=
  match codec.parse text with
  | .error e => .error e
  | .ok profile => .ok (if profile.name.isEmpty then { profile with name := id } else profile)

/-- What a file is listed as. -/
def entry (id : Text) (file : Except String T) : Entry :=
  match file with
  | .error detail => ⟨id, id, [], [], [], some (ProfileError.io detail).toText⟩
  | .ok text => match parseNamed codec text id with
    | .error e => ⟨id, id, [], [], [], some e.toText⟩
    | .ok profile => ⟨id, profile.name, profile.created, profile.modified, profile.aetherVersion, none⟩

/-- Every profile, by name. -/
def list : List Entry :=
  if store.dir.isNone then []
  else (disk.profiles.map fun file => entry codec file.1 file.2).insertionSort fun a b =>
    codec.lower a.name ≤ codec.lower b.name

/-- The id of the profile with this name. -/
def find (name : Text) : Option Text :=
  let wanted := codec.lower (Text.trim name)
  ((store.list codec disk).find? fun e => codec.lower e.name = wanted || codec.lower e.id = wanted).map Entry.id

def read (id : Text) : Except ProfileError (Profile J) :=
  if store.dir.isNone then .error .noDirectory
  else match disk.profiles.get? (idFor id) with
    | none => .error (.noSuchProfile id)
    | some (.error detail) => .error (.io detail)
    | some (.ok text) => parseNamed codec text id

/-- The name a profile must have. -/
def checkName (name : Text) : Except ProfileError Text :=
  let name := Text.trim name
  if name.isEmpty then .error (.badName "a profile needs a name")
  else if name.length > nameChars then .error (.badName s!"a name is at most {nameChars} characters")
  else .ok name

/-- Whether another profile has the name than the one to be replaced. -/
def taken (name : Text) (replace : Option Text) : Bool :=
  (store.find codec disk name).any fun existing => replace.all fun r => !eqIgnoreAsciiCase r existing

/-- A profile's file, under its name. -/
def write (faults : Faults) (profile : Profile J) (replace : Option Text) :
    Except ProfileError Entry × Disk T :=
  match checkName profile.name with
  | .error e => (.error e, disk)
  | .ok name =>
    let id := idFor name
    if store.taken codec disk name replace then (.error (.nameTaken name), disk)
    else if store.dir.isNone then (.error .noDirectory, disk)
    else match writeAtomically faults.profile (disk.put id (codec.toText profile)) disk with
      | (.error detail, disk) => (.error (.io detail), disk)
      | (.ok (), disk) =>
        (.ok ⟨id, name, profile.created, profile.modified, profile.aetherVersion, none⟩, disk)

/-- A profile made active, and the mark of it written. -/
def setActive (faults : Faults) (id : Option Text) : Except ProfileError Unit × Store × Disk T :=
  if store.dir.isNone then (.error .noDirectory, store, disk)
  else match writeAtomically faults.active { disk with active := some (codec.stateText id) } disk with
    | (.error detail, disk) => (.error (.io detail), store, disk)
    | (.ok (), disk) => (.ok (), { store with active := id }, disk)

end Store

theorem mem_list {codec : Codec G R J T} {store : Store} {disk : Disk T} (there : store.dir.isSome) {e : Entry} :
    e ∈ store.list codec disk ↔ ∃ file ∈ disk.profiles, Store.entry codec file.1 file.2 = e := by
  have present : ¬store.dir.isNone = true := by simpa [← Option.isSome_iff_ne_none] using there
  rw [Store.list, if_neg present, List.mem_insertionSort, List.mem_map]

theorem checkName_ok {name checked : Text} (ok : Store.checkName name = .ok checked) :
    checked = Text.trim name ∧ checked ≠ [] := by
  simp only [Store.checkName] at ok
  split at ok
  · cases ok
  split at ok
  · cases ok
  · rename_i filled _
    cases ok
    exact ⟨rfl, by simpa using filled⟩

/-! ### The methods -/

structure ApiError where
  code : String
  message : String
  retryable : Bool
  deriving DecidableEq

def api (error : ProfileError) : ApiError :=
  ⟨match error with
    | .notAProfile _ | .newer _ | .badName _ => "bad_params"
    | .invalid _ => "refused"
    | .io _ => "cannot_save"
    | .noSuchProfile _ => "not_found"
    | .nameTaken _ => "conflict"
    | .noDirectory => "unsupported",
   error.toText,
   match error with
    | .io _ => true
    | _ => false⟩

/-- The dial list, and whether it has a file. -/
structure Memories where
  entries : List Memory
  kept : Bool
  deriving DecidableEq

/-- The daemon with its station and its files. -/
structure World (G R T : Type) where
  config : Config G R
  memories : Memories
  profiles : Store
  profilesChanged : Bool
  /-- This machine's devices, as last listed. -/
  inventory : Inventory
  now : Text
  live : Live G
  disk : Disk T

/-- What a request carries, as far as these methods read it. -/
structure Params (T : Type) where
  id : Option Text := none
  name : Option Text := none
  text : Option T := none
  replace : Option Bool := none

/-- The load's report. -/
structure Report (J : Type) where
  changed : List String
  restartRequired : List String
  unknown : List String
  ignored : List String
  invalid : List (Rejected J)
  missingHardware : List MissingHardware

/-- What every answer about profiles carries. -/
structure Status where
  active : Option Text
  name : Option Text
  dirty : Option Bool
  profiles : List Entry
  dir : Option Text

inductive Answer (J : Type) where
  | saved (status : Status) (entry : Entry)
  | loaded (status : Status) (id name : Text) (report : Report J)
  | imported (status : Status) (entry : Entry) (report : Report J) (aetherVersion : Text)

/-- A text among the parameters that says something. -/
def textParam (param : Option Text) : Option Text := (param.map Text.trim).filter (!·.isEmpty)

def idParam (params : Params T) : Except ApiError Text :=
  match textParam params.id with
  | some id => .ok id
  | none => .error ⟨"bad_params", "Which profile? `id` names one, as `profile.list` lists them.", false⟩

def nameParam (params : Params T) : Except ApiError Text :=
  match textParam params.name with
  | some name => .ok name
  | none => .error ⟨"bad_params", "A `name` for the profile is needed.", false⟩

section
variable (codec : Codec G R J T) [DecidableEq J]

def report (applied : Applied G R J) : Report J where
  changed := applied.changed
  restartRequired := applied.changed.filter (!codec.isLive ·)
  unknown := applied.unknown
  ignored := applied.ignored
  invalid := applied.invalid
  missingHardware := applied.missingHardware

/-- Whether the running configuration has moved from what the active profile says. -/
def Store.dirty (store : Store) (disk : Disk T) (config : Config G R) (memories : List Memory) : Option Bool := do
  let id ← store.active
  let profile ← (store.read codec disk id).toOption
  let applied ← (profile.apply codec config none).toOption
  if codec.portable applied.config ≠ codec.portable config then some true
  else match Memory.replace memories with
    | .error _ => some true
    | .ok running => some (applied.memories.any (· ≠ running))

def status (world : World G R T) : Status :=
  let profiles := world.profiles.list codec world.disk
  { active := world.profiles.active
    name := world.profiles.active.bind fun a => (profiles.find? fun p => eqIgnoreAsciiCase p.id a).map Entry.name
    dirty := world.profiles.dirty codec world.disk world.config world.memories.entries
    profiles
    dir := world.profiles.dir }

def captureWorld (world : World G R T) (name : Text) : Profile J :=
  Profile.capture codec name world.config world.memories.entries (some world.inventory) world.now

variable (faults : Faults)

/-- `Config::save`. -/
def saveConfig (config : Config G R) (disk : Disk T) : Except String Unit × Disk T :=
  match codec.validate config with
  | .error detail => (.error detail, disk)
  | .ok () => match codec.configText config with
    | .error detail => (.error s!"cannot write these settings: {detail}", disk)
    | .ok text => writeAtomically faults.config { disk with config := some text } disk

/-- `Memories::save`. -/
def Memories.save (memories : Memories) (disk : Disk T) : Except String Unit × Disk T :=
  if memories.kept then
    writeAtomically faults.dials { disk with dials := some (codec.dialsText memories.entries) } disk
  else (.ok (), disk)

/-- The dials of a profile taken on and written. -/
def takeDials (dials : Option (List Memory)) (world : World G R T) : Except String Unit × World G R T :=
  match dials with
  | none => (.ok (), world)
  | some list =>
    let memories := match Memory.replace list with
      | .ok entries => { world.memories with entries }
      | .error _ => world.memories
    let (saved, disk) := memories.save codec faults world.disk
    (saved, { world with memories, disk })

/-- Apply a profile to the station: validated, written, live keys taken on, made active. -/
def commit (world : World G R T) (profile : Profile J) (id : Text) :
    Except ApiError (Answer J) × World G R T :=
  match profile.apply codec world.config (some world.inventory) with
  | .error e => (.error (api e), world)
  | .ok applied =>
    -- the dials are checked before anything is written
    match applied.memories.elim (.ok []) Memory.replace with
    | .error reason => (.error ⟨"refused", reason, false⟩, world)
    | .ok _ => match saveConfig codec faults applied.config world.disk with
      | (.error detail, disk) => (.error ⟨"cannot_save", detail, true⟩, { world with disk })
      | (.ok (), disk) => match takeDials codec faults applied.memories { world with disk } with
        | (.error detail, world) =>
          (.error ⟨"cannot_save",
            s!"the settings were applied but the dial list could not be written: {detail}", true⟩, world)
        | (.ok (), world) =>
          let world := { world with live := world.live.applyLive applied.config, config := applied.config }
          match world.profiles.setActive codec world.disk faults (some id) with
          | (.error e, profiles, disk) => (.error (api e), { world with profiles, disk })
          | (.ok (), profiles, disk) =>
            let world := { world with profiles, disk, profilesChanged := true }
            (.ok (.loaded (status codec world) id profile.name (report codec applied)), world)

/-- `profile.load`: switch the station to a profile. -/
def load (world : World G R T) (params : Params T) : Except ApiError (Answer J) × World G R T :=
  match idParam params with
  | .error e => (.error e, world)
  | .ok id => match world.profiles.read codec world.disk id with
    | .error e => (.error (api e), world)
    | .ok profile => commit codec faults world profile id

/-- `profile.create`: a new profile of the defaults, keeping only who the station is, made
active. -/
def create (world : World G R T) (params : Params T) : Except ApiError (Answer J) × World G R T :=
  match nameParam params with
  | .error e => (.error e, world)
  | .ok name =>
    let profile := Profile.fresh codec name world.config world.now
    match world.profiles.write codec world.disk faults profile none with
    | (.error e, disk) => (.error (api e), { world with disk })
    | (.ok entry, disk) => commit codec faults { world with disk } profile entry.id

/-- `profile.save`: the running configuration into the active profile, or with a name into a
new one that becomes active. -/
def save (world : World G R T) (params : Params T) : Except ApiError (Answer J) × World G R T :=
  match textParam params.name with
  | some name =>
    match world.profiles.write codec world.disk faults (captureWorld codec world name) none with
    | (.error e, disk) => (.error (api e), { world with disk })
    | (.ok entry, disk) => match world.profiles.setActive codec disk faults (some entry.id) with
      | (.error e, profiles, disk) => (.error (api e), { world with profiles, disk })
      | (.ok (), profiles, disk) =>
        let world := { world with profiles, disk, profilesChanged := true }
        (.ok (.saved (status codec world) entry), world)
  | none => match world.profiles.active with
    | none => (.error ⟨"refused",
        "No profile is active: give the settings a `name` to save them as a new one.", false⟩, world)
    | some active => match world.profiles.read codec world.disk active with
      | .error e => (.error (api e), world)
      | .ok existing =>
        let profile : Profile J := captureWorld codec world existing.name
        let profile := { profile with
          created := if existing.created.isEmpty then profile.created else existing.created }
        match world.profiles.write codec world.disk faults profile (some active) with
        | (.error e, disk) => (.error (api e), { world with disk })
        | (.ok entry, disk) =>
          let world := { world with disk, profilesChanged := true }
          (.ok (.saved (status codec world) entry), world)

/-- `profile.import`: a profile file's text into the store. -/
def import_ (world : World G R T) (params : Params T) : Except ApiError (Answer J) × World G R T :=
  match params.text with
  | none => (.error ⟨"bad_params", "The profile file's contents are needed, as `text`.", false⟩, world)
  | some text => match codec.parse text with
    | .error e => (.error (api e), world)
    | .ok profile =>
      let named := { profile with name := (textParam params.name).getD profile.name }
      let profile := if named.name.isEmpty then { named with name := "Imported".toList } else named
      match profile.apply codec world.config (some world.inventory) with
      | .error e => (.error (api e), world)
      | .ok preview =>
        let replace := (world.profiles.find codec world.disk profile.name).filter fun _ =>
          params.replace.getD false
        match world.profiles.write codec world.disk faults profile replace with
        | (.error e, disk) => (.error (api e), { world with disk })
        | (.ok entry, disk) =>
          let world := { world with disk, profilesChanged := true }
          (.ok (.imported (status codec world) entry (report codec preview) profile.aetherVersion), world)

end

end AetherHF.Daemon

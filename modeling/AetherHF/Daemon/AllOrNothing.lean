import AetherHF.Daemon.Loading

/-! What a request about profiles leaves behind when a write is refused on the way. -/
namespace AetherHF.Daemon

variable {G R J T : Type} (codec : Codec G R J T) (faults : Faults)

/-! ### The stages of a commit -/

namespace World

variable (world : World G R T)

/-- With the configuration written. -/
def configured (text : T) : World G R T := { world with disk := { world.disk with config := some text } }

/-- With a dial list in memory. -/
def listed (dials : Option (List Memory)) : World G R T :=
  { world with memories := { world.memories with entries := dials.getD world.memories.entries } }

/-- With the dial list written, where there is one and it is kept. -/
def dialled (dials : Option (List Memory)) : World G R T :=
  { world.listed dials with disk := { world.disk with
      dials := if world.memories.kept then (dials.map codec.dialsText).or world.disk.dials else world.disk.dials } }

/-- On these settings. -/
def running (config : Config G R) : World G R T := { world with live := world.live.applyLive config, config }

/-- With a profile active, and the mark written. -/
def marked (id : Text) : World G R T :=
  { world with
    profiles := { world.profiles with active := some id }
    disk := { world.disk with active := some (codec.stateText (some id)) } }

/-- Everything up to the active mark. -/
def switched (text : T) (applied : Applied G R J) : World G R T :=
  ((world.configured text).dialled codec applied.memories).running applied.config

end World

/-- The dial list is written and cannot be. -/
def dialsFault (world : World G R T) (dials : Option (List Memory)) : Option String :=
  if dials.isSome ∧ world.memories.kept then faults.dials else none

theorem takeDials_eq {dials : Option (List Memory)} (checked : ∀ list, dials = some list → Memory.replace list = .ok list)
    (world : World G R T) : takeDials codec faults dials world = match dialsFault faults world dials with
      | some detail => (.error detail, world.listed dials)
      | none => (.ok (), world.dialled codec dials) := by
  cases dials with
  | none => simp [takeDials, dialsFault, World.dialled, World.listed]
  | some list =>
    have kept := checked list rfl
    cases on : world.memories.kept with
    | false => simp [takeDials, dialsFault, World.dialled, World.listed, Memories.save, kept, on]
    | true => cases fault : faults.dials <;>
        simp [takeDials, dialsFault, World.dialled, World.listed, Memories.save, writeAtomically, kept, on, fault]

theorem saveConfig_eq {config : Config G R} (valid : codec.validate config = .ok ()) (disk : Disk T) :
    saveConfig codec faults config disk = match codec.configText config, faults.config with
      | .error detail, _ => (.error s!"cannot write these settings: {detail}", disk)
      | .ok _, some detail => (.error detail, disk)
      | .ok text, none => (.ok (), { disk with config := some text }) := by
  simp only [saveConfig, valid]
  cases codec.configText config with
  | error _ => rfl
  | ok _ => cases h : faults.config <;> simp only [writeAtomically]

variable [DecidableEq J]

/-- How a commit goes: nothing done, or the dials in memory and not on the disk, or
everything but the mark, or everything. -/
inductive Commit (world : World G R T) (profile : Profile J) (id : Text) : Except ApiError (Answer J) × World G R T → Prop
  | refused (e : ApiError)
      (why : ∀ applied text, profile.apply codec world.config (some world.inventory) = .ok applied →
        codec.configText applied.config = .ok text → faults.config ≠ none) : Commit world profile id (.error e, world)
  | undialled {applied : Applied G R J} {text : T} (e : ApiError)
      (applies : profile.apply codec world.config (some world.inventory) = .ok applied)
      (serial : codec.configText applied.config = .ok text) (free : faults.config = none)
      (fault : dialsFault faults world applied.memories ≠ none) :
      Commit world profile id (.error e, (world.configured text).listed applied.memories)
  | unmarked {applied : Applied G R J} {text : T} (e : ApiError)
      (applies : profile.apply codec world.config (some world.inventory) = .ok applied)
      (serial : codec.configText applied.config = .ok text) (free : faults.config = none)
      (written : dialsFault faults world applied.memories = none) (fault : faults.active ≠ none) :
      Commit world profile id (.error e, world.switched codec text applied)
  | done {applied : Applied G R J} {text : T} (answer : Answer J)
      (applies : profile.apply codec world.config (some world.inventory) = .ok applied)
      (serial : codec.configText applied.config = .ok text) (free : faults.config = none)
      (written : dialsFault faults world applied.memories = none) (free' : faults.active = none) :
      Commit world profile id
        (.ok answer, { (world.switched codec text applied).marked codec id with profilesChanged := true })

theorem commit_cases {world : World G R T} (there : world.profiles.dir.isSome) (profile : Profile J) (id : Text) :
    Commit codec faults world profile id (commit codec faults world profile id) := by
  unfold commit
  cases applies : profile.apply codec world.config (some world.inventory) with
  | error e => exact .refused _ fun _ _ works => by rw [applies] at works; cases works
  | ok applied =>
    obtain ⟨valid, checked⟩ := Profile.apply_checked applies
    have clear : ∃ list, applied.memories.elim (.ok []) Memory.replace = .ok list := by
      cases has : applied.memories with
      | none => exact ⟨[], rfl⟩
      | some list => exact ⟨list, checked list has⟩
    obtain ⟨list, clear⟩ := clear
    simp only [clear, saveConfig_eq codec faults valid]
    cases serial : codec.configText applied.config with
    | error detail =>
      refine .refused _ fun applied' text works serial' => ?_
      cases applies.symm.trans works
      rw [serial] at serial'
      cases serial'
    | ok text =>
      cases free : faults.config with
      | some detail => exact .refused _ fun _ _ _ _ => by simp [free]
      | none =>
        have took := takeDials_eq codec faults checked (world.configured text)
        change takeDials codec faults applied.memories
          { world with disk := { world.disk with config := some text } } = _ at took
        change _ = (match dialsFault faults world applied.memories with | some _ => _ | none => _) at took
        cases fault : dialsFault faults world applied.memories with
        | some detail =>
          rw [fault] at took
          simp only [took]
          exact .undialled _ applies serial free (by simp [fault])
        | none =>
          rw [fault] at took
          simp only [took]
          have dir : world.profiles.dir.isNone = false := by simpa using there
          cases active : faults.active with
          | some detail =>
            have kept : Commit codec faults world profile id _ :=
              .unmarked (api (.io detail)) applies serial free fault (by simp [active])
            simpa [Store.setActive, World.dialled, World.listed, World.configured, World.switched, World.running,
              dir, active, writeAtomically] using kept
          | none =>
            simp only [Store.setActive, World.dialled, World.listed, World.configured, dir, active, writeAtomically,
              Bool.false_eq_true, if_false]
            exact .done _ applies serial free fault active

omit [DecidableEq J] in
/-- Whatever becomes of it, a commit writes no profile. -/
theorem Commit.frame {codec : Codec G R J T} {faults : Faults} {world : World G R T} {profile : Profile J} {id : Text}
    {outcome : Except ApiError (Answer J) × World G R T} (went : Commit codec faults world profile id outcome) :
    outcome.2.disk.profiles = world.disk.profiles ∧ outcome.2.profiles.dir = world.profiles.dir := by
  cases went <;> exact ⟨rfl, rfl⟩

/-! ### What is promised -/

/-- The configuration in memory and on the disk, the dial list in memory and on the disk,
the live settings and the active profile. -/
structure Untouched (before after : World G R T) : Prop where
  config : after.config = before.config
  configFile : after.disk.config = before.disk.config
  dials : after.memories = before.memories
  dialsFile : after.disk.dials = before.disk.dials
  live : after.live = before.live
  active : after.profiles.active = before.profiles.active
  activeFile : after.disk.active = before.disk.active

theorem Untouched.rfl {world : World G R T} : Untouched world world := ⟨by rfl, by rfl, by rfl, by rfl, by rfl, by rfl, by rfl⟩

/-- Memory, disk and station agree with what a profile made. -/
structure Agrees (codec : Codec G R J T) (applied : Applied G R J) (id : Text) (world : World G R T) : Prop where
  config : world.config = applied.config
  configFile : ∃ text, codec.configText applied.config = .ok text ∧ world.disk.config = some text
  dials : ∀ list, applied.memories = some list →
    world.memories.entries = list ∧ (world.memories.kept → world.disk.dials = some (codec.dialsText list))
  live : world.live.Runs applied.config
  active : world.profiles.active = some id ∧ world.disk.active = some (codec.stateText (some id))

/-- The list of profiles and the active one. -/
def Listing (codec : Codec G R J T) (world : World G R T) : List Entry × Option Text :=
  (world.profiles.list codec world.disk, world.profiles.active)

inductive Request (T : Type) where
  | load (params : Params T)
  | create (params : Params T)
  | save (params : Params T)
  | import_ (params : Params T)

def serve (world : World G R T) : Request T → Except ApiError (Answer J) × World G R T
  | .load params => load codec faults world params
  | .create params => create codec faults world params
  | .save params => save codec faults world params
  | .import_ params => import_ codec faults world params

/-- Loading is all or nothing, and a refused writing of a profile is nothing. -/
def AllOrNothing (world : World G R T) (request : Request T) : Prop :=
  match request with
  | .load params =>
    (∀ e after, load codec faults world params = (.error e, after) → Untouched world after) ∧
      ∀ answer after, load codec faults world params = (.ok answer, after) →
        ∃ id profile applied, idParam params = .ok id ∧ world.profiles.read codec world.disk id = .ok profile ∧
          profile.apply codec world.config (some world.inventory) = .ok applied ∧ Agrees codec applied id after
  | request => ∀ e after, serve codec faults world request = (.error e, after) →
      Listing codec after = Listing codec world

/-! ### When it is kept -/

/-- What a switch would write before a given file stands already. -/
structure Stands (world : World G R T) (text : T) (applied : Applied G R J) : Prop where
  configFile : world.disk.config = some text
  dials : ∀ list, applied.memories = some list → world.memories.entries = list

/-- The whole switch but the mark stands already. -/
structure Switched (codec : Codec G R J T) (world : World G R T) (text : T) (applied : Applied G R J) : Prop
    extends Stands world text applied where
  config : world.config = applied.config
  dialsFile : ∀ list, applied.memories = some list → world.memories.kept →
    world.disk.dials = some (codec.dialsText list)
  live : world.live.applyLive applied.config = world.live

/-- A profile of this name can be written. -/
def Writable (world : World G R T) (name : Text) : Prop :=
  ∃ checked, Store.checkName name = .ok checked ∧ world.profiles.find codec world.disk checked = none ∧
    world.profiles.dir.isSome ∧ faults.profile = none

/-- No step of a switch to this profile is refused. -/
def Loadable (world : World G R T) (profile : Profile J) : Prop :=
  ∃ applied text, profile.apply codec world.config (some world.inventory) = .ok applied ∧
    codec.configText applied.config = .ok text ∧ faults.config = none ∧
    dialsFault faults world applied.memories = none ∧ faults.active = none

/-- No write is refused after one of the same request has changed something, and no new
profile is written that the station cannot then be switched to. -/
def Unbroken (world : World G R T) : Request T → Prop
  | .load params => ∀ id profile applied text, idParam params = .ok id →
      world.profiles.read codec world.disk id = .ok profile →
      profile.apply codec world.config (some world.inventory) = .ok applied →
      codec.configText applied.config = .ok text → faults.config = none →
        (dialsFault faults world applied.memories ≠ none → Stands world text applied) ∧
        (dialsFault faults world applied.memories = none → faults.active ≠ none → Switched codec world text applied)
  | .create params => ∀ name, nameParam params = .ok name → Writable codec faults world name →
      Loadable codec faults world (Profile.fresh codec name world.config world.now)
  | .save params => ∀ name, textParam params.name = some name → Writable codec faults world name →
      faults.active = none
  | .import_ _ => True

/-! ### One request at a time -/

section
variable {codec faults} {world : World G R T}

omit [DecidableEq J] in
theorem untouched_listed {text : T} {applied : Applied G R J}
    (fault : dialsFault faults world applied.memories ≠ none) :
    Untouched world ((world.configured text).listed applied.memories) ↔ Stands world text applied := by
  cases has : applied.memories with
  | none => simp [dialsFault, has] at fault
  | some list =>
    refine ⟨fun same => ⟨same.configFile.symm, fun list' is => ?_⟩, fun stands => ?_⟩
    · cases has.symm.trans is
      exact congrArg Memories.entries same.dials.symm
    · exact ⟨rfl, stands.configFile.symm, by rw [World.listed, ← stands.dials list has]; rfl, rfl, rfl, rfl, rfl⟩

omit [DecidableEq J] in
theorem untouched_switched {text : T} {applied : Applied G R J} :
    Untouched world (world.switched codec text applied) ↔ Switched codec world text applied := by
  refine ⟨fun same => ⟨⟨same.configFile.symm, fun list is => ?_⟩, same.config.symm, fun list is kept => ?_, same.live⟩,
    fun stands => ⟨stands.config.symm, stands.configFile.symm, ?_, ?_, stands.live, rfl, rfl⟩⟩
  · have := congrArg Memories.entries same.dials.symm
    simpa [World.switched, World.running, World.dialled, World.listed, World.configured, is] using this
  · have := same.dialsFile.symm
    simpa [World.switched, World.running, World.dialled, World.listed, World.configured, is, kept] using this
  · cases has : applied.memories with
    | none => simp [World.switched, World.running, World.dialled, World.listed, World.configured, has]
    | some list =>
      simp [World.switched, World.running, World.dialled, World.listed, World.configured, has, ← stands.dials list has]
  · cases has : applied.memories with
    | none => simp [World.switched, World.running, World.dialled, World.listed, World.configured, has]
    | some list =>
      simp only [World.switched, World.running, World.dialled, World.listed, World.configured, has]
      split
      · rename_i kept
        simp [stands.dialsFile list has kept]
      · rfl

omit [DecidableEq J] in
theorem agrees_marked {text : T} {applied : Applied G R J} (id : Text) (serial : codec.configText applied.config = .ok text) :
    Agrees codec applied id { (world.switched codec text applied).marked codec id with profilesChanged := true } where
  config := rfl
  configFile := ⟨text, serial, rfl⟩
  dials list is := by
    refine ⟨?_, fun kept => ?_⟩
    · simp [World.marked, World.switched, World.running, World.dialled, World.listed, World.configured, is]
    · have on : world.memories.kept = true := kept
      simp [World.marked, World.switched, World.running, World.dialled, World.listed, World.configured, is, on]
  live := Live.runs_applyLive world.live applied.config
  active := ⟨rfl, rfl⟩

end

theorem load_allOrNothing (world : World G R T) (params : Params T) :
    AllOrNothing codec faults world (.load params) ↔ Unbroken codec faults world (.load params) := by
  simp only [AllOrNothing, Unbroken]
  cases named : idParam params with
  | error e => simp [load, named, Untouched.rfl]
  | ok id =>
    cases found : world.profiles.read codec world.disk id with
    | error e =>
      have left : load codec faults world params = (.error (api e), world) := by simp only [load, named, found]
      refine iff_of_true ⟨?_, ?_⟩ fun id' profile applied text same read => ?_
      · rintro e' after is
        cases left.symm.trans is
        exact .rfl
      · rintro answer after is
        cases left.symm.trans is
      · cases same
        cases found.symm.trans read
    | ok profile =>
      have there : world.profiles.dir.isSome := by
        by_contra absent
        simp [Store.read, Option.not_isSome_iff_eq_none.mp absent] at found
      have went := commit_cases codec faults there profile id
      have left : load codec faults world params = commit codec faults world profile id := by
        simp only [load, named, found]
      rw [left]
      generalize commit codec faults world profile id = outcome at went
      cases went with
      | refused e why =>
        refine iff_of_true ⟨?_, ?_⟩ ?_
        · rintro e' after is
          cases is
          exact .rfl
        · rintro answer after is
          cases is
        · rintro id' profile' applied text same read applies serial free
          cases same
          cases found.symm.trans read
          exact absurd free (why applied text applies serial)
      | @undialled applied text e applies serial free fault =>
        refine ⟨?_, fun unbroken => ⟨?_, ?_⟩⟩
        · rintro ⟨kept, -⟩ id' profile' applied' text' same read applies' serial' -
          cases same
          cases found.symm.trans read
          cases applies.symm.trans applies'
          cases serial.symm.trans serial'
          exact ⟨fun _ => (untouched_listed fault).mp (kept e _ rfl), fun written => absurd written fault⟩
        · rintro e' after is
          cases is
          exact (untouched_listed fault).mpr ((unbroken id profile applied text rfl found applies serial free).1 fault)
        · rintro answer after is
          cases is
      | @unmarked applied text e applies serial free written fault =>
        refine ⟨?_, fun unbroken => ⟨?_, ?_⟩⟩
        · rintro ⟨kept, -⟩ id' profile' applied' text' same read applies' serial' -
          cases same
          cases found.symm.trans read
          cases applies.symm.trans applies'
          cases serial.symm.trans serial'
          exact ⟨fun fault' => absurd written fault', fun _ _ => untouched_switched.mp (kept e _ rfl)⟩
        · rintro e' after is
          cases is
          exact untouched_switched.mpr
            ((unbroken id profile applied text rfl found applies serial free).2 written fault)
        · rintro answer after is
          cases is
      | @done applied text answer applies serial free written free' =>
        refine iff_of_true ⟨?_, ?_⟩ ?_
        · rintro e' after is
          cases is
        · rintro answer' after is
          cases is
          exact ⟨id, profile, applied, rfl, found, applies, agrees_marked id serial⟩
        · rintro id' profile' applied' text' same read applies' - -
          cases same
          cases found.symm.trans read
          cases applies.symm.trans applies'
          exact ⟨fun fault => absurd written fault, fun _ fault => absurd free' fault⟩

/-! ### What is written shows in the list -/

section
variable {codec faults} {world : World G R T}

/-- A profile just captured reads back under its name. -/
def Codec.Returns (codec : Codec G R J T) : Prop := ∀ name config memories inventory now,
  ∃ back, codec.parse (codec.toText (Profile.capture codec name config memories inventory now)) = .ok back ∧
    back.name = Text.trim name

omit [DecidableEq J] in
/-- A new profile is another list. -/
theorem list_new (returns : codec.Returns) {name checked : Text} {config : Config G R} {memories : List Memory}
    {inventory : Option Inventory} {now : Text} {store : Store} {disk disk' : Disk T} (there : store.dir.isSome)
    (checks : Store.checkName (Text.trim name) = .ok checked) (new : store.find codec disk checked = none) {id : Text}
    (written : disk'.profiles = disk.profiles.insert id
      (.ok (codec.toText (Profile.capture codec name config memories inventory now)))) :
    store.list codec disk' ≠ store.list codec disk := by
  obtain ⟨rfl, filled⟩ := checkName_ok checks
  rw [Text.trim_trim] at new filled
  intro same
  obtain ⟨back, parses, named⟩ := returns name config memories inventory now
  set text := codec.toText (Profile.capture codec name config memories inventory now)
  have entry : (Store.entry codec id (.ok text)).name = Text.trim name := by
    have solid : back.name.isEmpty = false := by simpa [named] using filled
    simp only [Store.entry, Store.parseNamed, parses, solid, Bool.false_eq_true, if_false]
    exact named
  have inside : Store.entry codec id (.ok text) ∈ store.list codec disk' :=
    (mem_list there).mpr ⟨(id, .ok text), by rw [written]; exact List.mem_cons_self, rfl⟩
  rw [same] at inside
  have absent := List.find?_eq_none.mp (Option.map_eq_none_iff.mp new) _ inside
  rw [Text.trim_trim] at absent
  simp [entry] at absent

omit [DecidableEq J] in
/-- A profile that is not written leaves the disk alone. -/
theorem write_error {profile : Profile J} {replace : Option Text} {store : Store} {disk disk' : Disk T} {e : ProfileError}
    (failed : store.write codec disk faults profile replace = (.error e, disk')) : disk' = disk := by
  simp only [Store.write] at failed
  split at failed
  · cases failed
    rfl
  split_ifs at failed
  · cases failed
    rfl
  · cases failed
    rfl
  cases fault : faults.profile with
  | some detail =>
    simp only [fault, writeAtomically] at failed
    cases failed
    rfl
  | none =>
    simp only [fault, writeAtomically] at failed
    cases failed

omit [DecidableEq J] in
theorem writable_trim (name : Text) :
    Writable codec faults world (Text.trim name) ↔ Writable codec faults world name := by
  have same : Store.checkName (Text.trim name) = Store.checkName name := by simp only [Store.checkName, Text.trim_trim]
  simp only [Writable, same]

omit [DecidableEq J] in
theorem setActive_eq {store : Store} (there : store.dir.isSome) (disk : Disk T) (id : Option Text) :
    store.setActive codec disk faults id = match faults.active with
      | some detail => (.error (.io detail), store, disk)
      | none => (.ok (), { store with active := id }, { disk with active := some (codec.stateText id) }) := by
  have present : ¬store.dir.isNone = true := by simpa [← Option.isSome_iff_ne_none] using there
  rw [Store.setActive, if_neg present]
  cases faults.active <;> rfl

omit [DecidableEq J] in
theorem write_new (profile : Profile J) (writable : Writable codec faults world profile.name) :
    world.profiles.dir.isSome ∧ ∃ entry, world.profiles.write codec world.disk faults profile none =
      (.ok entry, world.disk.put entry.id (codec.toText profile)) := by
  obtain ⟨checked, checks, new, there, free⟩ := writable
  have present : ¬world.profiles.dir.isNone = true := by simpa [← Option.isSome_iff_ne_none] using there
  simp only [Store.write, Store.taken, checks, new, Option.any_none, Bool.false_eq_true, if_false, if_neg present,
    free, writeAtomically]
  exact ⟨there, _, rfl⟩

omit [DecidableEq J] in
theorem write_refused (profile : Profile J) (unwritable : ¬Writable codec faults world profile.name) :
    ∃ e, world.profiles.write codec world.disk faults profile none = (.error e, world.disk) := by
  cases checks : Store.checkName profile.name with
  | error e => exact ⟨e, by simp only [Store.write, checks]⟩
  | ok checked =>
    cases taken : world.profiles.find codec world.disk checked with
    | some existing => exact ⟨.nameTaken checked, by simp [Store.write, Store.taken, checks, taken]⟩
    | none =>
      cases there : world.profiles.dir with
      | none => exact ⟨.noDirectory, by simp [Store.write, Store.taken, checks, taken, there]⟩
      | some dir =>
        cases fault : faults.profile with
        | none => exact absurd ⟨checked, checks, taken, by simp [there], fault⟩ unwritable
        | some detail => exact ⟨.io detail, by simp [Store.write, Store.taken, checks, taken, there, fault, writeAtomically]⟩

end

theorem import_allOrNothing (world : World G R T) (params : Params T) :
    AllOrNothing codec faults world (.import_ params) := by
  intro e after failed
  simp only [serve, import_] at failed
  split at failed
  · cases failed
    rfl
  split at failed
  · cases failed
    rfl
  split at failed
  · cases failed
    rfl
  split at failed
  · rename_i refused
    cases failed
    rw [Listing, write_error refused]
    rfl
  · cases failed

theorem save_allOrNothing (returns : codec.Returns) (world : World G R T) (params : Params T) :
    AllOrNothing codec faults world (.save params) ↔ Unbroken codec faults world (.save params) := by
  simp only [AllOrNothing, Unbroken, serve]
  cases named : textParam params.name with
  | none =>
    refine iff_of_true (fun e after failed => ?_) fun name same => by cases same
    simp only [save, named] at failed
    split at failed
    · cases failed
      rfl
    split at failed
    · cases failed
      rfl
    split at failed
    · rename_i refused
      cases failed
      rw [Listing, write_error refused]
      rfl
    · cases failed
  | some name =>
    have sameName : (captureWorld codec world name).name = Text.trim name := rfl
    by_cases writable : Writable codec faults world name
    · obtain ⟨there, entry, wrote⟩ := write_new (captureWorld codec world name)
        ((writable_trim name).mpr writable)
      cases fault : faults.active with
      | none =>
        refine iff_of_true (fun e after failed => ?_) fun _ _ _ => rfl
        simp only [save, named, wrote, setActive_eq there, fault] at failed
        cases failed
      | some detail =>
        refine iff_of_false (fun kept => ?_) fun unbroken => ?_
        · have left : save codec faults world params = (.error (api (.io detail)), { world with
              disk := world.disk.put entry.id (codec.toText (captureWorld codec world name)) }) := by
            simp only [save, named, wrote, setActive_eq there, fault]
          obtain ⟨checked, checks, new, -, -⟩ := (writable_trim name).mpr writable
          exact list_new returns there checks new rfl (congrArg Prod.fst (kept _ _ left))
        · cases unbroken name rfl writable
    · obtain ⟨e, refused⟩ := write_refused (captureWorld codec world name)
        (mt (writable_trim name).mp writable)
      refine iff_of_true (fun e' after failed => ?_) fun name' same writable' => ?_
      · simp only [save, named, refused] at failed
        cases failed
        rfl
      · cases same
        exact absurd writable' writable

theorem create_allOrNothing (returns : codec.Returns) (world : World G R T) (params : Params T) :
    AllOrNothing codec faults world (.create params) ↔ Unbroken codec faults world (.create params) := by
  simp only [AllOrNothing, Unbroken, serve]
  cases named : nameParam params with
  | error e =>
    refine iff_of_true (fun e' after failed => ?_) fun name same => by cases same
    simp only [create, named] at failed
    cases failed
    rfl
  | ok name =>
    set profile : Profile J := Profile.fresh codec name world.config world.now with fresh
    by_cases writable : Writable codec faults world name
    · obtain ⟨there, entry, wrote⟩ := write_new profile ((writable_trim name).mpr writable)
      set written : World G R T := { world with disk := world.disk.put entry.id (codec.toText profile) }
      have left : create codec faults world params = commit codec faults written profile entry.id := by
        simp only [create, named, ← fresh, wrote]
        rfl
      have here : written.profiles.dir.isSome := there
      have went := commit_cases codec faults here profile entry.id
      have frame := went.frame
      rw [← left] at went frame
      obtain ⟨checked, checks, new, -, -⟩ := (writable_trim name).mpr writable
      have changed (after : World G R T) (dir : after.profiles.dir = world.profiles.dir)
          (files : after.disk.profiles = written.disk.profiles) : Listing codec after ≠ Listing codec world := by
        intro same
        have lists : after.profiles.list codec after.disk = world.profiles.list codec world.disk := congrArg Prod.fst same
        have dirs : after.profiles.list codec after.disk = world.profiles.list codec after.disk := by
          simp only [Store.list, dir]
        exact list_new returns there checks new files (dirs.symm.trans lists)
      generalize create codec faults world params = outcome at went frame
      cases went with
      | refused e why =>
        refine iff_of_false (fun kept => changed written rfl rfl (kept e written rfl)) fun unbroken => ?_
        obtain ⟨applied, text, applies, serial, free, -⟩ := unbroken name rfl writable
        exact why applied text applies serial free
      | undialled e applies serial free fault =>
        refine iff_of_false (fun kept => changed _ frame.2 frame.1 (kept e _ rfl)) fun unbroken => ?_
        obtain ⟨applied, text, applies', -, -, clear, -⟩ := unbroken name rfl writable
        cases applies.symm.trans applies'
        exact fault clear
      | unmarked e applies serial free clear fault =>
        refine iff_of_false (fun kept => changed _ frame.2 frame.1 (kept e _ rfl)) fun unbroken => ?_
        obtain ⟨applied, text, -, -, -, -, marks⟩ := unbroken name rfl writable
        exact fault marks
      | @done applied text answer applies serial free clear marks =>
        refine iff_of_true (fun e after failed => by cases failed) fun name' same _ => ?_
        cases same
        exact ⟨applied, text, applies, serial, free, clear, marks⟩
    · obtain ⟨e, refused⟩ := write_refused profile (mt (writable_trim name).mp writable)
      refine iff_of_true (fun e' after failed => ?_) fun name' same writable' => ?_
      · simp only [create, named, ← fresh, refused] at failed
        cases failed
        rfl
      · cases same
        exact absurd writable' writable

/-! ### Every request -/

/-- A request about profiles is all or nothing just when no write of it is refused after
another has changed something. -/
theorem profiles_allOrNothing (returns : codec.Returns) (world : World G R T) (request : Request T) :
    AllOrNothing codec faults world request ↔ Unbroken codec faults world request := by
  cases request with
  | load params => exact load_allOrNothing codec faults world params
  | create params => exact create_allOrNothing codec faults returns world params
  | save params => exact save_allOrNothing codec faults returns world params
  | import_ params => exact iff_of_true (import_allOrNothing codec faults world params) trivial

/-! ### A station with two profiles -/

/-- A file as what it holds. -/
inductive File where
  | config (config : Config Unit Unit)
  | dials (list : List Memory)
  | mark (id : Option Text)
  | profile (profile : Profile Nat)

/-- Settings of which only the bandwidth is portable. -/
def plain : Codec Unit Unit Nat File where
  portable config := config.radio.bandwidth
  sortSettings bandwidth base := (.ok { base with radio := { base.radio with bandwidth } }, {})
  validate _ := .ok ()
  changedKeys before after := if before.radio.bandwidth = after.radio.bandwidth then [] else ["radio.bandwidth"]
  isLive key := key = "radio.bandwidth"
  withCallsign callsign := ⟨callsign, {}, {}, .none, ⟨20, true, 6, 2300, false, 0, 0, 15, false, 20⟩, ⟨false, true, []⟩, (), ()⟩
  null := 0
  configText config := .ok (.config config)
  dialsText := .dials
  stateText := .mark
  toText := .profile
  parse
    | .profile profile => .ok profile
    | _ => .error (.notAProfile "the file is not a JSON object")
  lower text := text.map Char.toLower
  version := "0.1.0".toList
  settingsSchema := 1

theorem plain_returns : plain.Returns := fun _ _ _ _ _ => ⟨_, rfl, rfl⟩

/-- At 2300 Hz with no dials, and a profile for 500 Hz with one. -/
def day : World Unit Unit File :=
  let config := plain.withCallsign "KK4ODA".toList
  { config
    memories := ⟨[], true⟩
    profiles := ⟨some "profiles".toList, some "Day".toList⟩
    profilesChanged := false
    inventory := {}
    now := []
    live := ⟨1 / 4, 20, true, 0, 0, 0, some 15, 15, 15, 2300, false, 20, 6, false, true, [], {}, (), none, 20, false, 16⟩
    disk :=
      { config := some (.config config)
        dials := none
        active := some (.mark (some "Day".toList))
        profiles := [("Night".toList, .ok (.profile (Profile.capture plain "Night".toList
          { config with radio := { config.radio with bandwidth := 500 } } [⟨7101000, "40 m".toList⟩] none [])))] } }

def night : Request File := .load { id := some "Night".toList }

theorem night_allOrNothing : AllOrNothing plain ⟨none, none, none, none⟩ day night :=
  (profiles_allOrNothing plain ⟨none, none, none, none⟩ plain_returns day night).mpr
    fun _ _ _ _ _ _ _ _ _ => ⟨fun fault => absurd (by simp [dialsFault]) fault, fun _ fault => absurd rfl fault⟩

/-- With the dial list's file refused, the settings are on the disk and not in memory, and the
dials in memory and not on the disk. -/
theorem night_halfLoaded : ¬AllOrNothing plain ⟨none, some "dials.json: disk full", none, none⟩ day night := by
  intro kept
  obtain ⟨e, failed⟩ : ∃ e, load plain ⟨none, some "dials.json: disk full", none, none⟩ day
      { id := some "Night".toList } = (.error e, (load plain ⟨none, some "dials.json: disk full", none, none⟩ day
      { id := some "Night".toList }).2) := ⟨_, rfl⟩
  exact absurd (kept.1 e _ failed).dials (by decide)

end AetherHF.Daemon

import AetherHF.Base.Directory
import AetherHF.Daemon.Loading

/-! The profile store on any file system, its names told apart by their case or not: a
profile written, renamed, deleted, made active, and what each leaves of the others. -/
namespace AetherHF.Daemon

variable {G R J T φ : Type} [DecidableEq φ]

open Directory (lookup place remove)

namespace Store

/-- The files are there to be written. -/
def sound : Faults := ⟨none, none, none, none⟩

variable (names : FileNames Text φ) (codec : Codec G R J T) (store : Store) (disk : Disk T)

def readOn (id : Text) : Except ProfileError (Profile J) :=
  if store.dir.isNone then .error .noDirectory
  else match lookup names disk.profiles (idFor id) with
    | none => .error (.noSuchProfile id)
    | some (_, .error detail) => .error (.io detail)
    | some (_, .ok text) => parseNamed codec text id

def writeOn (faults : Faults) (profile : Profile J) (replace : Option Text) :
    Except ProfileError Entry × Disk T :=
  match checkName profile.name with
  | .error e => (.error e, disk)
  | .ok name =>
    let id := idFor name
    if store.taken codec disk name replace then (.error (.nameTaken name), disk)
    else if store.dir.isNone then (.error .noDirectory, disk)
    else
      let written := { disk with profiles := place names disk.profiles (idFor id) (.ok (codec.toText profile)) }
      match writeAtomically faults.profile written disk with
      | (.error detail, disk) => (.error (.io detail), disk)
      | (.ok (), disk) =>
        (.ok ⟨id, name, profile.created, profile.modified, profile.aetherVersion, none⟩, disk)

/-- `std::fs::remove_file` of a profile's file. -/
def removeFile (fault : Option String) (id : Text) : Except ProfileError Unit × Disk T :=
  match fault with
  | some detail => (.error (.io detail), disk)
  | none => match lookup names disk.profiles (idFor id) with
    | none => (.error (.io "No such file or directory"), disk)
    | some _ => (.ok (), { disk with profiles := remove names disk.profiles (idFor id) })

/-- A profile deleted. The active one cannot be. -/
def delete (fault : Option String) (id : Text) : Except ProfileError Unit × Disk T :=
  if store.active.any fun a => eqIgnoreAsciiCase a id then
    (.error (.invalid "the active profile cannot be deleted: switch to another one first"), disk)
  else if store.dir.isNone then (.error .noDirectory, disk)
  else match lookup names disk.profiles (idFor id) with
    | none => (.error (.noSuchProfile id), disk)
    | some _ => removeFile names disk fault id

/-- A profile given a new name: the file moves with it, and so does the active mark. -/
def rename (faults : Faults) (fault : Option String) (id name now : Text) :
    Except ProfileError Entry × Store × Disk T :=
  match store.readOn names codec disk id with
  | .error e => (.error e, store, disk)
  | .ok profile => match checkName name with
    | .error e => (.error e, store, disk)
    | .ok name =>
      let newId := idFor name
      if (store.find codec disk name).any fun existing => !eqIgnoreAsciiCase existing id then
        (.error (.nameTaken name), store, disk)
      else match store.writeOn names codec disk faults { profile with name, modified := now } (some id) with
        | (.error e, disk) => (.error e, store, disk)
        | (.ok entry, disk) =>
          if eqIgnoreAsciiCase newId id then (.ok entry, store, disk)
          else match removeFile names disk fault id with
            | (.error e, disk) => (.error e, store, disk)
            | (.ok (), disk) =>
              if store.active.any fun a => eqIgnoreAsciiCase a id then
                match store.setActive codec disk faults (some newId) with
                | (.error e, store, disk) => (.error e, store, disk)
                | (.ok (), store, disk) => (.ok entry, store, disk)
              else (.ok entry, store, disk)

theorem readOn_exact (id : Text) : store.readOn (.exact Text) codec disk id = store.read codec disk id := by
  unfold readOn read
  rw [← Directory.lookup_exact]
  cases lookup (.exact Text) disk.profiles (idFor id) with
  | none => rfl
  | some file =>
    obtain ⟨stem, text⟩ := file
    cases text with
    | error detail => rfl
    | ok text => rfl

theorem writeOn_exact (faults : Faults) (profile : Profile J) (replace : Option Text) :
    store.writeOn (.exact Text) codec disk faults profile replace = store.write codec disk faults profile replace := by
  unfold writeOn write Disk.put
  simp only [Directory.place_exact]
  all_goals rfl

end Store

/-! ### Operations -/

inductive Operation (J : Type) where
  | write (profile : Profile J) (replace : Option Text)
  | rename (id name now : Text)
  | delete (id : Text)
  | activate (id : Text)

/-- What a name's profile is kept in. -/
def fileOf (name : Text) : Text := idFor (idFor name)

/-- The name a file is listed under. -/
def title (codec : Codec G R J T) (file : Text × Except String T) : Text := (Store.entry codec file.1 file.2).name

namespace Operation

variable (names : FileNames Text φ) (codec : Codec G R J T)

/-- An operation, every write of it succeeding. -/
def run (store : Store) (disk : Disk T) : Operation J → Except ProfileError Unit × Store × Disk T
  | .write profile replace =>
    let out := store.writeOn names codec disk Store.sound profile replace
    (out.1.map fun _ => (), store, out.2)
  | .rename id name now =>
    let out := store.rename names codec disk Store.sound none id name now
    (out.1.map fun _ => (), out.2)
  | .delete id =>
    let out := store.delete names disk none id
    (out.1, store, out.2)
  | .activate id => store.setActive codec disk Store.sound (some id)

/-- What the station does to its profiles: it writes what it captures or parses, and makes one listed active. -/
def Fits (made : Profile J → Prop) (store : Store) (disk : Disk T) : Operation J → Prop
  | .write profile _ => made profile
  | .rename .. => True
  | .delete _ => True
  | .activate id => ∃ entry ∈ store.list codec disk, entry.id = id

/-- What an operation leaves: its own profile added, replaced or moved, every other file as it was. -/
def Leaves (store : Store) (disk disk' : Disk T) : Operation J → Prop
  | .write profile _ =>
    (∀ other, names.fold other ≠ names.fold (fileOf profile.name) → lookup names disk'.profiles other = lookup names disk.profiles other) ∧
    (∃ stem, lookup names disk'.profiles (fileOf profile.name) = some (stem, .ok (codec.toText profile))) ∧
    (∀ file, lookup names disk.profiles (fileOf profile.name) = some file →
      codec.lower (title codec file) = codec.lower (Text.trim profile.name)) ∧
    (codec.parse (codec.toText profile) = .ok profile → store.readOn names codec disk' (idFor profile.name) = .ok profile)
  | .rename id name now =>
    (∀ other, names.fold other ≠ names.fold (idFor id) → names.fold other ≠ names.fold (fileOf name) →
      lookup names disk'.profiles other = lookup names disk.profiles other) ∧
    (names.fold (idFor id) ≠ names.fold (fileOf name) →
      lookup names disk'.profiles (idFor id) = none ∧ lookup names disk.profiles (fileOf name) = none) ∧
    ∃ profile stem, store.readOn names codec disk id = .ok profile ∧ lookup names disk'.profiles (fileOf name) =
      some (stem, .ok (codec.toText { profile with name := Text.trim name, modified := now }))
  | .delete id =>
    (∀ other, names.fold other ≠ names.fold (idFor id) → lookup names disk'.profiles other = lookup names disk.profiles other) ∧
    lookup names disk'.profiles (idFor id) = none
  | .activate _ => disk'.profiles = disk.profiles

/-- When an operation that is not refused keeps to its own profile: the file of a name is that of the profile of
the name and of no other; a profile is renamed by an id that is its file's, to a name whose file is another exactly
when its id is; what is deleted is not the active one under another spelling. -/
def Keeps (store : Store) (disk : Disk T) : Operation J → Prop
  | .write profile replace => store.taken codec disk (Text.trim profile.name) replace = false →
    ∀ file ∈ disk.profiles, names.fold file.1 = names.fold (fileOf profile.name) ↔
      codec.lower (title codec file) = codec.lower (Text.trim profile.name)
  | .rename id name _ => store.taken codec disk (Text.trim name) (some id) = false →
    (∀ file ∈ disk.profiles, names.fold file.1 = names.fold (fileOf name) ∨
      codec.lower (title codec file) = codec.lower (Text.trim name) → names.fold file.1 = names.fold (idFor id)) ∧
    (eqIgnoreAsciiCase (idFor name) id = true ↔ names.fold (fileOf name) = names.fold (idFor id)) ∧
    ∀ a, store.active = some a → names.fold (fileOf name) ≠ names.fold (idFor id) →
      (names.fold a = names.fold (idFor id) → eqIgnoreAsciiCase a id = true) ∧
      (eqIgnoreAsciiCase a id = true → names.fold (idFor name) = names.fold (fileOf name))
  | .delete id => ∀ a, store.active = some a → names.fold a = names.fold (idFor id) → eqIgnoreAsciiCase a id = true
  | .activate _ => True

end Operation

/-- What can be come to from no profiles at all, each operation keeping to its own. -/
inductive Kept (names : FileNames Text φ) (codec : Codec G R J T) (made : Profile J → Prop) : Store → Disk T → Prop
  | none (dir : Text) {disk : Disk T} (empty : disk.profiles = []) : Kept names codec made ⟨some dir, .none⟩ disk
  | step {store : Store} {disk : Disk T} (kept : Kept names codec made store disk) (op : Operation J)
      (fits : op.Fits codec made store disk) (keeps : op.Keeps names codec store disk) :
      Kept names codec made (op.run names codec store disk).2.1 (op.run names codec store disk).2.2

/-! ### What is kept -/

/-- What reading and writing a profile's file comes to, its settings read back as they may be. -/
structure Codec.Files (codec : Codec G R J T) (made : Profile J → Prop) : Prop where
  parsed : ∀ {text profile}, codec.parse text = .ok profile → made profile
  renamed : ∀ {profile}, made profile → ∀ name modified, made { profile with name, modified }
  reads : ∀ {profile}, made profile →
    ∃ settings, codec.parse (codec.toText profile) = .ok { profile with name := Text.trim profile.name, settings }

/-- A file some profile was written to. -/
structure FileOf (codec : Codec G R J T) (made : Profile J → Prop) (file : Text × Except String T) (profile : Profile J) :
    Prop where
  made : made profile
  text : file.2 = .ok (codec.toText profile)
  named : Text.trim profile.name ≠ []

/-- The files of a store: each some profile's, no two of one name. -/
structure Shelf (names : FileNames Text φ) (codec : Codec G R J T) (made : Profile J → Prop) (store : Store) (disk : Disk T) :
    Prop where
  dir : store.dir.isSome = true
  files : ∀ file ∈ disk.profiles, ∃ profile, FileOf codec made file profile
  proper : Directory.Proper names disk.profiles
  titles : ∀ file ∈ disk.profiles, ∀ other ∈ disk.profiles, codec.lower (title codec file) = codec.lower (title codec other) →
    names.fold file.1 = names.fold other.1

/-- The active profile has its file. -/
def Marked (names : FileNames Text φ) (store : Store) (disk : Disk T) : Prop :=
  ∀ a, store.active = some a → ∃ file ∈ disk.profiles, names.fold file.1 = names.fold a

theorem idFor_trim (name : Text) : idFor (Text.trim name) = idFor name := by
  unfold idFor
  rw [Text.trim_trim]

theorem fileOf_trim (name : Text) : fileOf (Text.trim name) = fileOf name := congrArg idFor (idFor_trim name)

section

variable {names : FileNames Text φ} {codec : Codec G R J T} {made : Profile J → Prop} {store : Store} {disk : Disk T}

theorem FileOf.parseNamed (files : codec.Files made) {file : Text × Except String T} {profile : Profile J}
    (of : FileOf codec made file profile) (id : Text) : ∃ settings,
      Store.parseNamed codec (codec.toText profile) id = .ok { profile with name := Text.trim profile.name, settings } := by
  obtain ⟨settings, reads⟩ := files.reads of.made
  refine ⟨settings, ?_⟩
  have some_ : (Text.trim profile.name).isEmpty = false := List.isEmpty_eq_false_iff.mpr of.named
  simp only [Store.parseNamed, reads, some_, Bool.false_eq_true, if_false]

theorem FileOf.title_eq (files : codec.Files made) {file : Text × Except String T} {profile : Profile J}
    (of : FileOf codec made file profile) : title codec file = Text.trim profile.name := by
  obtain ⟨settings, parsed⟩ := of.parseNamed files file.1
  simp only [title, Store.entry, of.text, parsed]

theorem entry_id (id : Text) (file : Except String T) : (Store.entry codec id file).id = id := by
  unfold Store.entry
  split
  · rfl
  · split
    · rfl
    · rfl

omit [DecidableEq φ] in
/-- No two profiles listed have one name. -/
theorem Shelf.list_unlike (shelf : Shelf names codec made store disk) :
    (store.list codec disk).Pairwise fun a b => codec.lower a.name ≠ codec.lower b.name := by
  have there : store.dir.isNone = false := by simpa using shelf.dir
  unfold Store.list
  rw [there]
  simp only [Bool.false_eq_true, if_false]
  refine (List.Perm.pairwise_iff (fun unlike => unlike.symm) (List.perm_insertionSort _ _)).mpr ?_
  rw [List.pairwise_map]
  exact shelf.proper.imp_of_mem fun inA inB apart same => apart (shelf.titles _ inA _ inB same)

/-- A profile written: in place of the one of its name, or beside those of other names. -/
theorem Shelf.place (files : codec.Files made) (shelf : Shelf names codec made store disk) {profile : Profile J}
    (is : made profile) (named : Text.trim profile.name ≠ [])
    (own : ∀ file ∈ disk.profiles, codec.lower (title codec file) = codec.lower (Text.trim profile.name) →
      names.fold file.1 = names.fold (fileOf profile.name)) :
    Shelf names codec made store
      { disk with profiles := Directory.place names disk.profiles (fileOf profile.name) (.ok (codec.toText profile)) } := by
  refine ⟨shelf.dir, fun file member => ?_, shelf.proper.place, ?_⟩
  · rcases Directory.mem_place.mp member with rfl | ⟨old, _⟩
    · exact ⟨profile, is, rfl, named⟩
    · exact shelf.files file old
  · have new (stem : Text) : title codec (stem, .ok (codec.toText profile)) = Text.trim profile.name :=
      FileOf.title_eq files ⟨is, rfl, named⟩
    intro file member other member' same
    rcases Directory.mem_place.mp member with rfl | ⟨old, apart⟩
    · rcases Directory.mem_place.mp member' with rfl | ⟨old', apart'⟩
      · rfl
      · rw [new] at same
        exact absurd (own other old' same.symm) apart'
    · rcases Directory.mem_place.mp member' with rfl | ⟨old', apart'⟩
      · rw [new] at same
        exact absurd (own file old same) apart
      · exact shelf.titles file old other old' same

theorem Shelf.remove (shelf : Shelf names codec made store disk) (id : Text) :
    Shelf names codec made store { disk with profiles := Directory.remove names disk.profiles id } := by
  have still {file : Text × Except String T} (member : file ∈ Directory.remove names disk.profiles id) :=
    (Directory.mem_remove.mp member).1
  exact ⟨shelf.dir, fun file member => shelf.files file (still member), shelf.proper.remove,
    fun file member other member' => shelf.titles file (still member) other (still member')⟩

/-- The mark stands on what is written. -/
theorem Marked.place (marked : Marked names store disk) (id : Text) (file : Except String T) :
    Marked names store { disk with profiles := Directory.place names disk.profiles id file } := by
  intro a active
  obtain ⟨old, member, same⟩ := marked a active
  by_cases here : names.fold old.1 = names.fold id
  · obtain ⟨new, member', at_⟩ := Directory.exists_placed names disk.profiles id file
    exact ⟨new, member', at_.trans (here.symm.trans same)⟩
  · exact ⟨old, Directory.mem_place.mpr (.inr ⟨member, here⟩), same⟩

theorem Marked.remove (marked : Marked names store disk) {id : Text}
    (apart : ∀ a, store.active = some a → names.fold a ≠ names.fold id) :
    Marked names store { disk with profiles := Directory.remove names disk.profiles id } := by
  intro a active
  obtain ⟨old, member, same⟩ := marked a active
  exact ⟨old, Directory.mem_remove.mpr ⟨member, fun here => apart a active (same.symm.trans here)⟩, same⟩

/-! ### Each operation -/

/-- With a profile written. -/
def shelved (names : FileNames Text φ) (codec : Codec G R J T) (disk : Disk T) (profile : Profile J) : Disk T :=
  { disk with profiles := Directory.place names disk.profiles (fileOf profile.name) (.ok (codec.toText profile)) }

variable (names codec) in
theorem writeOn_cases (dir : store.dir.isSome = true) (profile : Profile J) (replace : Option Text) :
    (∃ e, store.writeOn names codec disk Store.sound profile replace = (.error e, disk)) ∨
      Text.trim profile.name ≠ [] ∧ store.taken codec disk (Text.trim profile.name) replace = false ∧
      ∃ entry, store.writeOn names codec disk Store.sound profile replace = (.ok entry, shelved names codec disk profile) := by
  have there : store.dir.isNone = false := by simpa using dir
  unfold Store.writeOn
  cases checks : Store.checkName profile.name with
  | error e => exact .inl ⟨e, rfl⟩
  | ok name =>
    obtain ⟨rfl, some_⟩ := checkName_ok checks
    dsimp only
    by_cases taken : store.taken codec disk (Text.trim profile.name) replace = true
    · rw [if_pos taken]
      exact .inl ⟨_, rfl⟩
    · rw [if_neg taken]
      refine .inr ⟨some_, Bool.not_eq_true _ |>.mp taken, ?_⟩
      simp only [there, Bool.false_eq_true, if_false, Store.sound, writeAtomically, idFor_trim]
      exact ⟨_, rfl⟩

variable (names codec) in
/-- A rename refused, or the profile written under its new name and what is left of it under the old. -/
theorem rename_cases (dir : store.dir.isSome = true) (id name now : Text) :
    (∃ e, store.rename names codec disk Store.sound none id name now = (.error e, store, disk)) ∨
      ∃ profile entry, store.readOn names codec disk id = .ok profile ∧ Text.trim name ≠ [] ∧
        store.taken codec disk (Text.trim name) (some id) = false ∧
        let moved := shelved names codec disk { profile with name := Text.trim name, modified := now }
        store.rename names codec disk Store.sound none id name now =
          if eqIgnoreAsciiCase (idFor name) id then (.ok entry, store, moved)
          else match lookup names moved.profiles (idFor id) with
            | none => (.error (.io "No such file or directory"), store, moved)
            | some _ =>
              let left := { moved with profiles := remove names moved.profiles (idFor id) }
              if store.active.any fun a => eqIgnoreAsciiCase a id then
                (.ok entry, { store with active := some (idFor name) },
                  { left with active := some (codec.stateText (some (idFor name))) })
              else (.ok entry, store, left) := by
  have there : store.dir.isNone = false := by simpa using dir
  unfold Store.rename
  cases reads : store.readOn names codec disk id with
  | error e => exact .inl ⟨e, rfl⟩
  | ok profile =>
    cases checks : Store.checkName name with
    | error e => exact .inl ⟨e, rfl⟩
    | ok checked =>
      obtain ⟨rfl, some_⟩ := checkName_ok checks
      dsimp only
      by_cases other : (store.find codec disk (Text.trim name)).any fun existing => !eqIgnoreAsciiCase existing id
      · rw [if_pos other]
        exact .inl ⟨_, rfl⟩
      · rw [if_neg other]
        rcases writeOn_cases names codec dir
          { profile with name := Text.trim name, modified := now } (some id) with ⟨e, refused⟩ | ⟨_, free, entry, written⟩
        · rw [refused]
          exact .inl ⟨e, rfl⟩
        · rw [written]
          simp only [Text.trim_trim] at free
          refine .inr ⟨profile, entry, rfl, some_, free, ?_⟩
          simp only [idFor_trim, Store.removeFile]
          by_cases same : eqIgnoreAsciiCase (idFor name) id = true
          · rw [if_pos same, if_pos same]
          · rw [if_neg same, if_neg same]
            generalize shelved names codec disk _ = moved
            cases lookup names moved.profiles (idFor id) with
            | none => rfl
            | some file =>
              simp only [Store.setActive, there, Bool.false_eq_true, if_false, Store.sound, writeAtomically]

/-- What an operation comes to: the store it leaves, and where it is not refused the files. -/
structure Steps (names : FileNames Text φ) (codec : Codec G R J T) (made : Profile J → Prop) (store : Store) (disk : Disk T)
    (op : Operation J) (out : Except ProfileError Unit × Store × Disk T) : Prop where
  shelf : Shelf names codec made out.2.1 out.2.2
  marked : Marked names out.2.1 out.2.2
  leaves : out.1 = .ok () → op.Leaves names codec store disk out.2.2

/-- An operation refused. -/
theorem Steps.refused (shelf : Shelf names codec made store disk) (marked : Marked names store disk) (op : Operation J)
    (e : ProfileError) : Steps names codec made store disk op (.error e, store, disk) :=
  ⟨shelf, marked, fun ok => by cases ok⟩

theorem write_steps (files : codec.Files made) (shelf : Shelf names codec made store disk) (marked : Marked names store disk)
    {profile : Profile J} {replace : Option Text} (is : made profile)
    (keeps : (Operation.write profile replace).Keeps names codec store disk) :
    Steps names codec made store disk (.write profile replace) ((Operation.write profile replace).run names codec store disk) := by
  rcases writeOn_cases names codec shelf.dir profile replace with ⟨e, refused⟩ | ⟨named, free, entry, written⟩
  · rw [Operation.run, refused]
    exact .refused shelf marked _ e
  · have own := keeps free
    rw [Operation.run, written]
    refine ⟨shelf.place files is named fun file member same => (own file member).mpr same, marked.place _ _, fun _ => ⟨?_, ?_, ?_, ?_⟩⟩
    · exact fun other apart => Directory.lookup_place_other apart
    · exact ⟨_, Directory.lookup_place_same rfl⟩
    · exact fun file found => (own file (Directory.lookup_mem found)).mp (Directory.lookup_fold found)
    · intro reads
      obtain ⟨settings, again⟩ := files.reads is
      have trimmed : profile.name = Text.trim profile.name := congrArg Profile.name (Except.ok.inj (reads.symm.trans again))
      have some_ : profile.name.isEmpty = false := List.isEmpty_eq_false_iff.mpr (trimmed ▸ named)
      have there : store.dir.isNone = false := by simpa using shelf.dir
      have found : lookup names (place names disk.profiles (fileOf profile.name) (.ok (codec.toText profile)))
          (fileOf profile.name) = some _ := Directory.lookup_place_same rfl
      unfold Store.readOn shelved
      rw [there, if_neg Bool.false_ne_true, show idFor (idFor profile.name) = fileOf profile.name from rfl, found]
      simp only [Store.parseNamed, reads, some_, Bool.false_eq_true, if_false]

theorem delete_steps (shelf : Shelf names codec made store disk) (marked : Marked names store disk) {id : Text}
    (keeps : (Operation.delete id : Operation J).Keeps names codec store disk) :
    Steps names codec made store disk (.delete id) ((Operation.delete id).run names codec store disk) := by
  have there : store.dir.isNone = false := by simpa using shelf.dir
  rw [Operation.run, Store.delete]
  by_cases active : (store.active.any fun a => eqIgnoreAsciiCase a id) = true
  · rw [if_pos active]
    exact .refused shelf marked _ _
  · rw [if_neg active, there, if_neg Bool.false_ne_true]
    cases found : lookup names disk.profiles (idFor id) with
    | none => exact .refused shelf marked _ _
    | some file =>
      simp only [Store.removeFile, found]
      refine ⟨shelf.remove _, marked.remove fun a is same => active ?_, fun _ => ⟨?_, ?_⟩⟩
      · rw [is, Option.any_some]
        exact keeps a is same
      · exact fun other apart => Directory.lookup_remove_other apart
      · exact Directory.lookup_remove_same rfl

theorem activate_steps (shelf : Shelf names codec made store disk) {id : Text}
    (fits : (Operation.activate id : Operation J).Fits codec made store disk) :
    Steps names codec made store disk (.activate id) ((Operation.activate id).run names codec store disk) := by
  have there : store.dir.isNone = false := by simpa using shelf.dir
  obtain ⟨entry, member, is⟩ := fits
  obtain ⟨file, inside, rfl⟩ := (mem_list shelf.dir).mp member
  rw [entry_id] at is
  simp only [Operation.run, Store.setActive, there, Bool.false_eq_true, if_false, Store.sound, writeAtomically]
  refine ⟨⟨shelf.dir, shelf.files, shelf.proper, shelf.titles⟩, ?_, fun _ => rfl⟩
  rintro a ⟨⟩
  exact ⟨file, inside, congrArg names.fold is⟩

omit [DecidableEq φ] in
theorem Shelf.of_eq (shelf : Shelf names codec made store disk) {store' : Store} {disk' : Disk T} (dir : store'.dir = store.dir)
    (profiles : disk'.profiles = disk.profiles) : Shelf names codec made store' disk' :=
  ⟨dir ▸ shelf.dir, profiles ▸ shelf.files, profiles ▸ shelf.proper, profiles ▸ shelf.titles⟩

/-- A profile read is some file's. -/
theorem readOn_ok (files : codec.Files made) {id : Text} {profile : Profile J} (reads : store.readOn names codec disk id = .ok profile) :
    made profile ∧ ∃ file, lookup names disk.profiles (idFor id) = some file := by
  unfold Store.readOn at reads
  split at reads
  · cases reads
  · cases found : lookup names disk.profiles (idFor id) with
    | none =>
      rw [found] at reads
      cases reads
    | some file =>
      rw [found] at reads
      obtain ⟨stem, text⟩ := file
      cases text with
      | error detail => cases reads
      | ok text =>
        refine ⟨?_, _, rfl⟩
        simp only [Store.parseNamed] at reads
        cases parsed : codec.parse text with
        | error e =>
          rw [parsed] at reads
          cases reads
        | ok read =>
          rw [parsed] at reads
          have is := files.parsed parsed
          cases reads
          split
          · exact files.renamed is id read.modified
          · exact is

theorem rename_steps (files : codec.Files made) (shelf : Shelf names codec made store disk) (marked : Marked names store disk)
    {id name now : Text} (keeps : (Operation.rename id name now : Operation J).Keeps names codec store disk) :
    Steps names codec made store disk (.rename id name now) ((Operation.rename id name now).run names codec store disk) := by
  rcases rename_cases names codec shelf.dir id name now with ⟨e, refused⟩ | ⟨profile, entry, reads, named, free, is⟩
  · rw [Operation.run, refused]
    exact .refused shelf marked _ e
  · obtain ⟨own, spelled, mark⟩ := keeps free
    obtain ⟨made', file, source⟩ := readOn_ok files reads
    have placed : fileOf (Text.trim name) = fileOf name := fileOf_trim name
    have again := files.renamed made' (Text.trim name) now
    have trimmed : Text.trim (Text.trim name) = Text.trim name := Text.trim_trim name
    rw [Operation.run, is]
    by_cases same : names.fold (fileOf name) = names.fold (idFor id)
    · -- the profile's own file, written over
      rw [if_pos (spelled.mpr same)]
      refine ⟨shelf.place files again (trimmed.symm ▸ named) fun file member titled => ?_, marked.place _ _, fun _ => ⟨?_, ?_, ?_⟩⟩
      · rw [placed, same]
        exact own file member (.inr (titled.trans (congrArg codec.lower trimmed)))
      · exact fun other _ apart => Directory.lookup_place_other (placed.symm ▸ apart)
      · exact fun apart => absurd same.symm apart
      · exact ⟨profile, _, reads, Directory.lookup_place_same (congrArg names.fold placed.symm)⟩
    · -- another file, which none is: written, and the old removed
      have other : eqIgnoreAsciiCase (idFor name) id ≠ true := fun like => same (spelled.mp like)
      have free_ : lookup names disk.profiles (fileOf name) = none := by
        refine Directory.lookup_eq_none.mpr fun file member here => same ?_
        exact here.symm.trans (own file member (.inl here))
      have still : lookup names (shelved names codec disk { profile with name := Text.trim name, modified := now }).profiles
          (idFor id) = some file := (Directory.lookup_place_other (placed.symm ▸ Ne.symm same)).trans source
      rw [if_neg other, still]
      have apart : names.fold (fileOf (Text.trim name)) ≠ names.fold (idFor id) := placed.symm ▸ same
      have order : remove names (shelved names codec disk { profile with name := Text.trim name, modified := now }).profiles (idFor id) =
          place names (remove names disk.profiles (idFor id)) (fileOf (Text.trim name))
            (.ok (codec.toText { profile with name := Text.trim name, modified := now })) := Directory.remove_place apart
      have left := (shelf.remove (idFor id)).place files again (trimmed.symm ▸ named) fun file member titled =>
        absurd (own file (Directory.mem_remove.mp member).1 (.inr (titled.trans (congrArg codec.lower trimmed))))
          (Directory.mem_remove.mp member).2
      have leaves (disk' : Disk T) (is : disk'.profiles = place names (remove names disk.profiles (idFor id)) (fileOf (Text.trim name))
          (.ok (codec.toText { profile with name := Text.trim name, modified := now }))) :
          (Operation.rename id name now : Operation J).Leaves names codec store disk disk' := by
        unfold Operation.Leaves
        rw [is]
        refine ⟨fun other unlike unlike' => ?_, fun _ => ⟨?_, free_⟩, profile, _, reads, Directory.lookup_place_same (congrArg names.fold placed.symm)⟩
        · rw [Directory.lookup_place_other (placed.symm ▸ unlike')]
          exact Directory.lookup_remove_other unlike
        · rw [Directory.lookup_place_other apart.symm]
          exact Directory.lookup_remove_same rfl
      dsimp only
      by_cases active : (store.active.any fun a => eqIgnoreAsciiCase a id) = true
      · rw [if_pos active]
        obtain ⟨a, is, like⟩ := (Option.any_eq_true _ _).mp active
        refine ⟨left.of_eq rfl order, ?_, fun _ => leaves _ order⟩
        rintro _ ⟨⟩
        obtain ⟨file, member, at_⟩ := Directory.exists_placed names (remove names disk.profiles (idFor id)) (fileOf (Text.trim name))
          (Except.ok (codec.toText { profile with name := Text.trim name, modified := now }))
        rw [← order] at member
        exact ⟨file, member, at_.trans ((congrArg names.fold placed).trans ((mark a is same).2 like).symm)⟩
      · rw [if_neg active]
        have elsewhere : ∀ a, store.active = some a → names.fold a ≠ names.fold (idFor id) := by
          intro a is here
          exact active (by rw [is, Option.any_some]; exact (mark a is same).1 here)
        refine ⟨left.of_eq rfl order, ?_, fun _ => leaves _ order⟩
        have marks := (marked.remove elsewhere).place (fileOf (Text.trim name))
          (.ok (codec.toText { profile with name := Text.trim name, modified := now }))
        intro a is
        obtain ⟨file, member, at_⟩ := marks a is
        exact ⟨file, order ▸ member, at_⟩

/-- What the station sees of its profiles: no two listed of one name, the active one among them. -/
structure Sees (names : FileNames Text φ) (codec : Codec G R J T) (store : Store) (disk : Disk T) : Prop where
  unlike : (store.list codec disk).Pairwise fun a b => codec.lower a.name ≠ codec.lower b.name
  active : ∀ a, store.active = some a → ∃ entry ∈ store.list codec disk, names.fold entry.id = names.fold a

omit [DecidableEq φ] in
theorem Shelf.sees (shelf : Shelf names codec made store disk) (marked : Marked names store disk) :
    Sees names codec store disk := by
  refine ⟨shelf.list_unlike, fun a is => ?_⟩
  obtain ⟨file, member, same⟩ := marked a is
  exact ⟨_, (mem_list shelf.dir).mpr ⟨file, member, rfl⟩, (congrArg names.fold (entry_id file.1 file.2)).trans same⟩

theorem Operation.steps (files : codec.Files made) (shelf : Shelf names codec made store disk) (marked : Marked names store disk)
    {op : Operation J} (fits : op.Fits codec made store disk) (keeps : op.Keeps names codec store disk) :
    Steps names codec made store disk op (op.run names codec store disk) := by
  cases op with
  | write profile replace => exact write_steps files shelf marked fits keeps
  | rename id name now => exact rename_steps files shelf marked keeps
  | delete id => exact delete_steps shelf marked keeps
  | activate id => exact activate_steps shelf fits

theorem Kept.shelf (files : codec.Files made) (kept : Kept names codec made store disk) :
    Shelf names codec made store disk ∧ Marked names store disk := by
  induction kept with
  | none dir empty =>
    refine ⟨⟨rfl, ?_, ?_, ?_⟩, fun a is => by cases is⟩
    · rw [empty]
      exact fun file member => absurd member List.not_mem_nil
    · rw [empty]
      exact .nil
    · rw [empty]
      exact fun file member => absurd member List.not_mem_nil
  | step kept op fits keeps ih =>
    have steps := Operation.steps files ih.1 ih.2 fits keeps
    exact ⟨steps.shelf, steps.marked⟩

end

def bare : Disk (Option (Profile Nat)) := ⟨none, none, none, []⟩

end AetherHF.Daemon

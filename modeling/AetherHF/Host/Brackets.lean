import AetherHF.Base.Monitor
import AetherHF.Host.Server

/-! What a host program is told of sessions, kept in a ledger: each `CONNECTED` has its
`DISCONNECTED`, each call taken its end, each `PENDING` its outcome, and of a session that is
not the program's nothing is said. -/
namespace AetherHF.Host

/-- Whose a session of the modem's is. -/
inductive Whose where
  /-- Another station called. -/
  | called
  /-- The program called. -/
  | own
  /-- The panel started it. -/
  | panel
  deriving DecidableEq, Repr

/-- The account of what has passed. -/
structure Ledger where
  /-- Sessions heard of; the last is the one that may be up. -/
  sessions : Nat
  /-- The session that is up, and the event that told of it. -/
  up : Option (Whose × StateEvent)
  /-- A call the program placed is going out. -/
  calling : Bool
  /-- The session the last `CONNECTED` was said of, no `DISCONNECTED` since. -/
  told : Option Nat
  /-- A call the modem took has had neither `CONNECTED` nor `DISCONNECTED`. -/
  waiting : Bool
  /-- Something ended since the last call was taken. -/
  ended : Bool
  /-- The session the last `PENDING` was said of, neither `CONNECTED` nor `CANCELPENDING`
  since. -/
  pending : Option Nat
  /-- The `DISCONNECTED` of a refused call is to come. -/
  refusing : Bool
  deriving DecidableEq, Repr

namespace Ledger

def start : Ledger := ⟨0, none, false, none, false, false, none, false⟩

variable (l : Ledger)

/-- The session of the last `CONNECTED` is still up. -/
def current : Bool := l.up.isSome && l.told = some l.sessions

/-- A session told of, or a call taken, is over and its `DISCONNECTED` not yet said. -/
def owed : Bool := (l.told.isSome && !l.current) || (l.waiting && l.ended)

/-- What the modem does: one session at a time, and no call taken in one or while another
goes out, as far as what it said of its end has been read. -/
def obeys : Entry → Prop
  | .heard event => event.name = .connected → l.up = none
  | .answered true unread => unread ∨ (l.up = none ∧ !l.calling)
  | _ => True

/-- No call comes, and none is taken, while a `DISCONNECTED` is owed; and none is taken with
a `disconnected` unread. -/
def clear : Entry → Prop
  | .heard event => event.name = .connected → event.called → !l.owed
  | .answered true unread => !unread ∧ !l.owed
  | _ => True

instance : DecidablePred l.obeys
  | .heard event => inferInstanceAs (Decidable (event.name = .connected → l.up = none))
  | .answered true unread => inferInstanceAs (Decidable (unread ∨ (l.up = none ∧ !l.calling)))
  | .answered false _ | .asked _ | .said _ => .isTrue trivial

instance : DecidablePred l.clear
  | .heard event => inferInstanceAs (Decidable (event.name = .connected → event.called → !l.owed))
  | .answered true unread => inferInstanceAs (Decidable (!unread ∧ !l.owed))
  | .answered false _ | .asked _ | .said _ => .isTrue trivial

/-- What was said of `PENDING` was said of the session that is up. -/
def pendingHere : Bool := l.pending.all (· = l.sessions)

/-- What may be said. -/
def permits (apart : Bool) : Entry → Prop
  | .said (.note (.connected caller called _)) =>
    l.told = none ∧ l.pendingHere ∧
      match l.up with
      | some (whose, event) => whose ≠ .panel ∧ event.remote = if event.called then caller else called
      | none => False
  | .said (.note .disconnected) =>
    l.refusing ∨ (!l.current ∧ (l.told.isSome ∨ l.waiting) ∧ (l.waiting → l.told = none ∧ l.ended) ∧ l.pending = none)
  | .said (.note .pending) => l.pendingHere ∧ l.up.any (·.1 = .called)
  | .said (.note .cancelPending) => l.pending.isSome ∧ l.up = none
  | .answered taken _ => taken || !apart → !l.waiting
  | _ => True

instance (apart : Bool) : DecidablePred (l.permits apart)
  | .said (.note (.connected caller called hz)) => by
    unfold permits
    cases l.up <;> infer_instance
  | .said (.note .disconnected) => inferInstanceAs (Decidable (l.refusing ∨ (!l.current ∧ (l.told.isSome ∨ l.waiting) ∧
      (l.waiting → l.told = none ∧ l.ended) ∧ l.pending = none)))
  | .said (.note .pending) => inferInstanceAs (Decidable (l.pendingHere ∧ l.up.any (·.1 = .called)))
  | .said (.note .cancelPending) => inferInstanceAs (Decidable (l.pending.isSome ∧ l.up = none))
  | .answered taken _ => inferInstanceAs (Decidable (taken || !apart → !l.waiting))
  | .heard _ | .asked _ | .said (.reply _) | .said (.note (.ptt _)) | .said (.note .encryptionDisabled)
  | .said (.note (.buffer _)) | .said (.note (.registered _)) | .said (.note .linkRegistered) => .isTrue trivial

/-- What an entry makes of the ledger; `apart`, the `DISCONNECTED` of a refused call is. -/
def enter (apart : Bool) : Entry → Ledger
  | .heard event => match event.name with
    | .connected =>
      let whose := if event.called then .called else if l.calling then .own else .panel
      { l with sessions := l.sessions + 1, up := some (whose, event), calling := false }
    | .disconnected => { l with up := none, calling := false, ended := true }
    | _ => l
  | .answered true _ => { l with calling := true, waiting := true, ended := false }
  | .answered false _ => { l with refusing := apart }
  | .said (.note (.connected _ _ _)) => { l with told := some l.sessions, waiting := false, pending := none }
  | .said (.note .disconnected) =>
    if l.refusing then { l with refusing := false } else { l with told := none, waiting := false }
  | .said (.note .pending) => { l with pending := some l.sessions }
  | .said (.note .cancelPending) => { l with pending := none }
  | _ => l

end Ledger

/-- The monitor of the command port: the `DISCONNECTED` of refused calls set `apart` or not,
and so what follows a call that meets a `DISCONNECTED` owed. -/
def brackets (apart spared : Bool) : Monitor Ledger Entry where
  expects l e := l.obeys e ∧ (spared → l.clear e)
  permits l := l.permits apart
  enter l := l.enter apart

instance (apart spared : Bool) (l : Ledger) : DecidablePred ((brackets apart spared).expects l) :=
  fun e => inferInstanceAs (Decidable (l.obeys e ∧ (spared → l.clear e)))

instance (apart spared : Bool) (l : Ledger) : DecidablePred ((brackets apart spared).permits l) :=
  fun e => inferInstanceAs (Decidable (l.permits apart e))

/-- The sessions told of along what passed are well bracketed and true. -/
def Bracketed (apart spared : Bool) (entries : List Entry) : Prop :=
  (brackets apart spared).Keeps (fun _ => True) .start entries

instance (apart spared : Bool) (entries : List Entry) : Decidable (Bracketed apart spared entries) :=
  inferInstanceAs (Decidable ((brackets apart spared).Keeps (fun _ => True) .start entries))

/-! ### The loop and the ledger agree -/

structure Agrees (s : Server) (l : Ledger) : Prop where
  refusing : l.refusing = false
  numbered : ∀ session ∈ l.told, session ≤ l.sessions
  pending : l.pending = if s.pendingSaid then some l.sessions else none
  announced : s.pendingSaid → s.pendingConnected.isSome
  waits : ∀ event ∈ s.pendingConnected, event.name = .connected ∧ event.called ∧ l.up = some (.called, event) ∧
    s.connectedTo = none ∧ s.disconnectHeld = none
  current : s.connectedTo.isSome = l.current
  calling : l.calling = (s.calling && l.up.isNone)
  free : s.disconnectHeld = none →
    l.told.isSome = l.current ∧ l.waiting = s.calling ∧ (s.calling → l.told = none ∧ !l.ended)
  held : s.disconnectHeld.isSome →
    l.up = none ∧ !s.calling ∧ (l.told.isSome ∨ l.waiting) ∧ (l.waiting → l.told = none ∧ l.ended)

theorem agrees_start : Agrees {} .start := by
  constructor <;> simp [Ledger.start, Ledger.current]

/-- What the ledger takes no account of. -/
def Entry.idle : Entry → Bool
  | .asked _ | .said (.reply _) => true
  | .said (.note n) => match n with
    | .disconnected | .pending | .cancelPending | .connected _ _ _ => false
    | _ => true
  | _ => false

variable {apart spared : Bool} {P : Ledger → Prop} {s : Server} {l : Ledger}

theorem enter_idle {e : Entry} (idle : e.idle) : l.enter apart e = l := by
  cases e with
  | asked request => rfl
  | answered taken unread => cases idle
  | heard event => cases idle
  | said line =>
    cases line with
    | note n => cases n <;> first | rfl | cases idle
    | reply text => rfl

theorem permits_idle {e : Entry} (idle : e.idle) : l.permits apart e := by
  cases e with
  | asked request => trivial
  | answered taken unread => cases idle
  | heard event => cases idle
  | said line =>
    cases line with
    | note n => cases n <;> trivial
    | reply text => trivial

theorem keeps_idle {entries : List Entry} (idle : ∀ e ∈ entries, e.idle) (here : P l) :
    (brackets apart spared).Keeps P l entries := by
  induction entries with
  | nil => exact here
  | cons e rest ih =>
    obtain ⟨quiet, later⟩ := List.forall_mem_cons.mp idle
    refine fun _ => ⟨permits_idle quiet, ?_⟩
    show Monitor.Keeps _ _ (l.enter apart e) rest
    rw [enter_idle quiet]
    exact ih later

/-! ### Commands -/

/-- A command but `CONNECT` asks and replies. -/
theorem apply_idle {action : HostAction} (other : ∀ caller called, action ≠ .connect caller called) (own : Bool)
    (answers : Answers) (unread : Bool) (host : HostState) :
    (apply action own answers unread host).2.1 = false ∧ ∀ e ∈ (apply action own answers unread host).2.2, e.idle := by
  cases action with
  | connect caller called => exact absurd rfl (other caller called)
  | disconnect => cases own <;> simp [apply, Entry.idle]
  | abort => cases own <;> simp [apply, Entry.idle]
  | cqFrame source => cases refused : answers.nameRefused <;> simp [apply, Entry.idle, refused]
  | _ => simp [apply, Entry.idle]

/-- A `DISCONNECTED` held is owed. -/
theorem Agrees.unheld (h : Agrees s l) (clear : !l.owed) : s.disconnectHeld = none := by
  by_contra some_
  obtain ⟨down, -, either, ended⟩ := h.held (Option.isSome_iff_ne_none.mpr some_)
  have notCurrent : l.current = false := by simp [Ledger.current, down]
  rw [Ledger.owed, notCurrent] at clear
  rcases either with told | waiting
  · simp [told] at clear
  · simp [waiting, ended waiting] at clear

/-- The modem takes a call only where nothing is told of, placed or owed. -/
theorem Agrees.ready (h : Agrees s l) (down : l.up = none) (idle : !l.calling) (clear : !l.owed) :
    s.disconnectHeld = none ∧ s.calling = false ∧ l.told = none ∧ l.waiting = false := by
  have notCurrent : l.current = false := by simp [Ledger.current, down]
  have unheld := h.unheld clear
  obtain ⟨told, waiting, -⟩ := h.free unheld
  have notCalling : s.calling = false := by simpa [h.calling, down] using idle
  exact ⟨unheld, notCalling, by simpa [notCurrent] using told, waiting.trans notCalling⟩

/-- Of what the ledger reads, a command changes only the call placed. -/
theorem Agrees.same {s' : Server} (h : Agrees s l) (connectedTo : s'.connectedTo = s.connectedTo)
    (calling : s'.calling = s.calling) (pendingConnected : s'.pendingConnected = s.pendingConnected)
    (disconnectHeld : s'.disconnectHeld = s.disconnectHeld) (pendingSaid : s'.pendingSaid = s.pendingSaid) :
    Agrees s' l where
  refusing := h.refusing
  numbered := h.numbered
  pending := by rw [pendingSaid]; exact h.pending
  announced := by rw [pendingSaid, pendingConnected]; exact h.announced
  waits := by rw [pendingConnected, connectedTo, disconnectHeld]; exact h.waits
  current := by rw [connectedTo]; exact h.current
  calling := by rw [calling]; exact h.calling
  free := by rw [disconnectHeld, calling]; exact h.free
  held := by rw [disconnectHeld, calling]; exact h.held

/-- Nothing is held for the program's `LISTEN` with no session up. -/
theorem Agrees.notHeld (h : Agrees s l) (down : l.up = none) :
    s.pendingConnected = none ∧ s.pendingSaid = false ∧ l.pending = none := by
  have noneHeld : s.pendingConnected = none := by
    cases held : s.pendingConnected with
    | none => rfl
    | some event =>
      obtain ⟨-, -, up, -⟩ := h.waits event held
      rw [down] at up
      cases up
  have notSaid : s.pendingSaid = false := by
    by_contra said
    simpa [noneHeld] using h.announced (by simpa using said)
  exact ⟨noneHeld, notSaid, by simp [h.pending, notSaid]⟩

/-- The modem's answer to a `CONNECT`. -/
theorem Agrees.answered (h : Agrees s l) (taken unread : Bool) :
    (brackets true true).Keeps (Agrees { s with calling := s.calling || taken }) l
      (.answered taken unread :: if taken then [] else [.note .disconnected]) := by
  cases taken with
  | true =>
    rintro ⟨obeys, clear⟩
    obtain ⟨nothing, clear⟩ := clear rfl
    obtain ⟨down, idle⟩ := obeys.resolve_left (by simpa using nothing)
    obtain ⟨unheld, notCalling, told, waiting⟩ := h.ready down idle clear
    refine ⟨by simp [brackets, Ledger.permits, waiting], ?_⟩
    show Agrees _ { l with calling := true, waiting := true, ended := false }
    exact
      { refusing := h.refusing
        numbered := h.numbered
        pending := h.pending
        announced := h.announced
        waits := by simp [(h.notHeld down).1]
        current := h.current
        calling := by simp [down]
        free := fun _ => ⟨(h.free unheld).1, by simp, fun _ => ⟨told, rfl⟩⟩
        held := by simp [unheld] }
  | false =>
    refine fun _ => ⟨by simp [brackets, Ledger.permits], fun _ => ⟨.inl rfl, ?_⟩⟩
    have same : { l with refusing := false } = l := by rw [← h.refusing]
    show Agrees _ { l with refusing := false }
    rw [same]
    exact h.same rfl (Bool.or_false _) rfl rfl rfl

/-- A command carried out. -/
theorem Agrees.apply (h : Agrees s l) (action : HostAction) (own : Bool) (answers : Answers) (unread : Bool)
    (host : HostState) :
    (brackets true true).Keeps (Agrees { s with calling := s.calling || (Host.apply action own answers unread host).2.1 }) l
      (Host.apply action own answers unread host).2.2 := by
  by_cases connects : ∃ caller called, action = .connect caller called
  · obtain ⟨caller, called, rfl⟩ := connects
    exact fun _ => ⟨trivial, h.answered answers.taken unread⟩
  · simp only [not_exists] at connects
    obtain ⟨none_, idle⟩ := apply_idle connects own answers unread host
    rw [none_]
    exact keeps_idle idle (h.same rfl (Bool.or_false _) rfl rfl rfl)

theorem Agrees.command [FloatText] (h : Agrees s l) (text : Text) (answers : Answers) (unread : Bool) (at_ : Nat) :
    (brackets true true).Keeps (Agrees (s.command text answers unread at_).1) l (s.command text answers unread at_).2 := by
  have replies : ∀ e ∈ (s.host.command text).2.replies.map fun reply => Entry.said (.reply reply), e.idle := by
    simp [Entry.idle]
  refine (keeps_idle replies h).trans fun l h => ?_
  refine (h.apply (s.host.command text).2.action (s.connectedTo.isSome || s.calling) answers unread
    (s.host.command text).1).mono fun l h => ?_
  exact h.same rfl rfl rfl rfl rfl

/-! ### Sessions -/

/-- The lines of a session that is the program's. -/
def connectedLines (event : StateEvent) (host : HostState) (pendingSaid : Bool) : List Entry :=
  (reportState event host none true pendingSaid).2.2

theorem reportState_mine {event : StateEvent} (name : event.name = .connected) {calling : Bool}
    (mine : event.called || calling) (host : HostState) (connectedTo : Option Text) (pendingSaid : Bool) :
    reportState event host connectedTo calling pendingSaid =
      (some event.remote, false, connectedLines event host pendingSaid) := by
  cases called : event.called <;> simp_all [reportState, connectedLines]

theorem reportState_panel {event : StateEvent} (name : event.name = .connected) (called : event.called = false)
    (host : HostState) (connectedTo : Option Text) (pendingSaid : Bool) :
    reportState event host connectedTo false pendingSaid = (connectedTo, false, []) := by
  simp [reportState, name, called]

/-- `CONNECTED`, the lines around it, and the `PENDING` before it where it is said. -/
theorem connectedLines_eq {event : StateEvent} (name : event.name = .connected) (host : HostState) (pendingSaid : Bool) :
    ∃ mine caller called, (event.remote = if event.called then caller else called) ∧
      connectedLines event host pendingSaid =
        (if !event.called || pendingSaid then [] else [.note .pending]) ++
          [.note (.registered mine), .note (.connected caller called host.bandwidthHz),
            .note .encryptionDisabled, .note .linkRegistered] := by
  refine ⟨((event.callsign.filter fun call => !call.isEmpty).or host.myCall).getD [],
    if event.called then event.remote else ((event.callsign.filter fun call => !call.isEmpty).or host.myCall).getD [],
    if event.called then ((event.callsign.filter fun call => !call.isEmpty).or host.myCall).getD [] else event.remote,
    ?_, ?_⟩
  · cases event.called <;> rfl
  · cases called : event.called <;> simp [connectedLines, reportState, name, called]

/-- `PENDING`, of the call that is up. -/
theorem keeps_pending {event : StateEvent} (up : l.up = some (.called, event)) (here : l.pendingHere)
    (after : P { l with pending := some l.sessions }) : (brackets apart spared).Keeps P l [.note .pending] :=
  fun _ => ⟨⟨here, by simp [up]⟩, after⟩

/-- `CONNECTED`, of the session that is up. -/
theorem keeps_connected {event : StateEvent} (name : event.name = .connected) {whose : Whose}
    (up : l.up = some (whose, event)) (whose_ : event.called → whose = .called) (notPanel : whose ≠ .panel)
    (told : l.told = none) (here : l.pendingHere) {pendingSaid : Bool} {host : HostState}
    (after : P { l with told := some l.sessions, waiting := false, pending := none }) :
    (brackets apart spared).Keeps P l (connectedLines event host pendingSaid) := by
  obtain ⟨mine, caller, called, remote, is⟩ := connectedLines_eq name host pendingSaid
  have lines : ∀ l' : Ledger, l'.up = l.up → l'.told = none → l'.pendingHere →
      P { l' with told := some l'.sessions, waiting := false, pending := none } →
      (brackets apart spared).Keeps P l' [.note (.registered mine), .note (.connected caller called host.bandwidthHz),
        .note .encryptionDisabled, .note .linkRegistered] := by
    intro l' same told here after
    have true_ : match l'.up with
        | some (whose, event) => whose ≠ .panel ∧ event.remote = if event.called then caller else called
        | none => False := by
      rw [same, up]
      exact ⟨notPanel, remote⟩
    refine fun _ => ⟨trivial, fun _ => ⟨⟨told, here, true_⟩, ?_⟩⟩
    exact keeps_idle (by simp [Entry.note, Entry.idle]) after
  rw [is]
  split
  · exact lines l rfl told here after
  · rename_i pends
    have isCalled : event.called := by simp_all
    rw [whose_ isCalled] at up
    refine (keeps_pending (P := fun l' => l' = { l with pending := some l.sessions }) up here rfl).trans fun l' same => ?_
    subst same
    exact lines _ rfl told (by simp [Ledger.pendingHere]) after

theorem Agrees.pendingHere (h : Agrees s l) : l.pendingHere := by
  rw [Ledger.pendingHere, h.pending]
  split <;> simp

/-- Once `CONNECTED` is said nothing waits. -/
theorem agrees_connected {session : Whose × StateEvent} (refusing : l.refusing = false) (up : l.up = some session)
    (calling : l.calling = false) {s' : Server} (connectedTo : s'.connectedTo.isSome) (notCalling : s'.calling = false)
    (pendingConnected : s'.pendingConnected = none) (pendingSaid : s'.pendingSaid = false)
    (disconnectHeld : s'.disconnectHeld = none) :
    Agrees s' { l with told := some l.sessions, waiting := false, pending := none } where
  refusing := refusing
  numbered := by simp
  pending := by simp [pendingSaid]
  announced := by simp [pendingSaid]
  waits := by simp [pendingConnected]
  current := by simp [connectedTo, Ledger.current, up]
  calling := by simp [calling, notCalling]
  free := fun _ => by simp [Ledger.current, up, notCalling]
  held := by simp [disconnectHeld]

/-- The `CONNECTED` held, said. -/
theorem Agrees.release (h : Agrees s l) (at_ : Nat) :
    (brackets true true).Keeps (Agrees (s.release at_).1) l (s.release at_).2 := by
  unfold Server.release
  cases held : s.pendingConnected with
  | none => exact h
  | some event =>
    obtain ⟨name, called, up, notTold, unheld⟩ := h.waits event held
    dsimp only
    split
    · rw [reportState_mine name (by simp [called])]
      have notCurrent : l.current = false := by rw [← h.current, notTold]; rfl
      have told : l.told = none := by simpa [notCurrent] using (h.free unheld).1
      have calling : l.calling = false := by simp [h.calling, up]
      refine keeps_connected name up (fun _ => rfl) (by simp) told h.pendingHere ?_
      exact agrees_connected h.refusing up calling rfl rfl rfl rfl unheld
    · exact h

/-- `DISCONNECTED`, of what is over. -/
theorem keeps_disconnected (refusing : l.refusing = false) (notCurrent : l.current = false)
    (either : l.told.isSome ∨ l.waiting) (ended : l.waiting → l.told = none ∧ l.ended) (pending : l.pending = none)
    (after : P { l with told := none, waiting := false }) : (brackets apart spared).Keeps P l [.note .disconnected] := by
  refine fun _ => ⟨.inr ⟨by simp [notCurrent], either, ended, pending⟩, ?_⟩
  show P (if l.refusing then _ else _)
  simpa [refusing] using after

/-- With nothing told of, placed or held, nothing is owed. -/
theorem agrees_over {s' : Server} (refusing : l.refusing = false) (calling : l.calling = false)
    (pending : l.pending = none) (connectedTo : s'.connectedTo = none) (notCalling : s'.calling = false)
    (pendingConnected : s'.pendingConnected = none) (pendingSaid : s'.pendingSaid = false)
    (disconnectHeld : s'.disconnectHeld = none) : Agrees s' { l with told := none, waiting := false } where
  refusing := refusing
  numbered := by simp
  pending := by simp [pendingSaid, pending]
  announced := by simp [pendingSaid]
  waits := by simp [pendingConnected]
  current := by simp [connectedTo, Ledger.current]
  calling := by simp [calling, notCalling]
  free := fun _ => by simp [Ledger.current, notCalling]
  held := by simp [disconnectHeld]

/-- While a `DISCONNECTED` is held nothing else is. -/
theorem Agrees.alone (h : Agrees s l) (held : s.disconnectHeld.isSome) :
    s.connectedTo = none ∧ s.calling = false ∧ s.pendingConnected = none ∧ s.pendingSaid = false ∧ l.pending = none ∧
      l.calling = false := by
  obtain ⟨down, notCalling, -, -⟩ := h.held held
  obtain ⟨noneHeld, notSaid, pending⟩ := h.notHeld down
  have notCalling : s.calling = false := by simpa using notCalling
  refine ⟨?_, notCalling, noneHeld, notSaid, pending, ?_⟩
  · simpa [Ledger.current, down] using h.current
  · simp [h.calling, notCalling]

/-- A `DISCONNECTED` held, said. -/
theorem Agrees.unhold (h : Agrees s l) : (brackets true true).Keeps (Agrees s.unhold.1) l s.unhold.2 := by
  unfold Server.unhold
  cases held : s.disconnectHeld with
  | none => exact h.same rfl rfl rfl held.symm rfl
  | some since =>
    have isHeld : s.disconnectHeld.isSome := by simp [held]
    obtain ⟨down, -, either, ended⟩ := h.held isHeld
    obtain ⟨connectedTo, notCalling, noneHeld, notSaid, pending, calling⟩ := h.alone isHeld
    refine keeps_disconnected h.refusing (by simp [Ledger.current, down]) either ended pending ?_
    exact agrees_over h.refusing calling pending connectedTo notCalling noneHeld notSaid rfl

theorem Agrees.expire (h : Agrees s l) (at_ : Nat) :
    (brackets true true).Keeps (Agrees (s.expire at_).1) l (s.expire at_).2 := by
  unfold Server.expire
  split
  · exact h.unhold
  · exact h

/-! ### State events -/

/-- What is read of the ledger stays, the event not one of a session's start or end. -/
theorem Agrees.stateEvent_other (h : Agrees s l) {event : StateEvent} (name : event.name = .identified ∨ event.name = .other)
    (at_ : Nat) : (brackets true true).Keeps (Agrees (s.stateEvent event at_).1) l (.heard event :: (s.stateEvent event at_).2) := by
  refine fun _ => ⟨trivial, ?_⟩
  have same : (brackets true true).enter l (.heard event) = l := by
    rcases name with name | name <;> simp [brackets, Ledger.enter, name]
  rw [same]
  rcases name with name | name
  · have is : s.stateEvent event at_ = { s with untold := false }.unhold := by
      simp [Server.stateEvent, Server.announce, Server.cancel, Server.settle, name]
    rw [is]
    exact (h.same rfl rfl rfl rfl rfl : Agrees { s with untold := false } l).unhold
  · have is : s.stateEvent event at_ = (s, []) := by
      simp [Server.stateEvent, Server.announce, Server.cancel, Server.settle, Server.report, reportState, name]
    rw [is]
    exact h

/-- The ledger once a disconnection is heard, and a `PENDING` cancelled. -/
def Ledger.down (l : Ledger) : Ledger := { l with up := none, calling := false, ended := true, pending := none }

/-- A `PENDING` that came to nothing. -/
theorem Agrees.cancel (h : Agrees s l) {event : StateEvent} (name : event.name = .disconnected) :
    (brackets true true).Keeps (· = l.down) { l with up := none, calling := false, ended := true } (s.cancel event).2 := by
  simp only [Server.cancel, name, if_true]
  cases said : s.pendingSaid with
  | true =>
    rw [h.announced said]
    have pending : l.pending = some l.sessions := by simpa [said] using h.pending
    exact fun _ => ⟨⟨by simp [pending], rfl⟩, rfl⟩
  | false =>
    have pending : l.pending = none := by simpa [said] using h.pending
    simp [Ledger.down, pending]

/-- What a disconnection ends: a session told of or a call placed, and not both. -/
theorem Agrees.ends (h : Agrees s l) (unheld : s.disconnectHeld = none) :
    (l.told.isSome ∨ l.waiting ↔ s.connectedTo.isSome ∨ s.calling) ∧ (l.waiting → l.told = none) := by
  obtain ⟨told, waiting, calls⟩ := h.free unheld
  rw [told, ← h.current, waiting]
  exact ⟨Iff.rfl, fun calling => (calls calling).1⟩

theorem report_disconnected {event : StateEvent} (name : event.name = .disconnected) :
    s.report event = ({ s with connectedTo := none, calling := false },
      if s.connectedTo.isSome || s.calling then [.note .disconnected] else []) := by
  simp [Server.report, reportState, name]

/-- A disconnection, past the cancellation. -/
theorem Agrees.settle_disconnected (h : Agrees s l) {event : StateEvent} (name : event.name = .disconnected) {s' : Server}
    (cancelled : s' = (s.cancel event).1) (at_ : Nat) :
    (brackets true true).Keeps (Agrees (s'.settle event at_).1) l.down (s'.settle event at_).2 := by
  have connectedTo : s'.connectedTo = s.connectedTo := by simp [cancelled, Server.cancel, name]
  have calling : s'.calling = s.calling := by simp [cancelled, Server.cancel, name]
  have disconnectHeld : s'.disconnectHeld = s.disconnectHeld := by simp [cancelled, Server.cancel, name]
  have noneHeld : s'.pendingConnected = none := by simp [cancelled, Server.cancel, name]
  have notSaid : s'.pendingSaid = false := by simp [cancelled, Server.cancel, name]
  have notCurrent : l.down.current = false := by simp [Ledger.current, Ledger.down]
  simp only [Server.settle, name]
  split
  · -- held for the closing identifier
    rename_i holds
    rw [connectedTo, calling] at holds
    have unheld : s.disconnectHeld = none := by
      by_contra some_
      obtain ⟨notTold, notCalling, -⟩ := h.alone (Option.isSome_iff_ne_none.mpr some_)
      simp [notTold, notCalling] at holds
    obtain ⟨either, apart⟩ := h.ends unheld
    exact
      { refusing := h.refusing
        numbered := h.numbered
        pending := by simp [Ledger.down, notSaid]
        announced := by simp [notSaid]
        waits := by simp [noneHeld]
        current := notCurrent.symm
        calling := rfl
        free := by simp
        held := fun _ => ⟨rfl, rfl, either.mpr holds.2, fun waiting => ⟨apart waiting, rfl⟩⟩ }
  · rw [report_disconnected name, connectedTo, calling]
    cases held : s.disconnectHeld with
    | some since =>
      have isHeld : s.disconnectHeld.isSome := by simp [held]
      obtain ⟨notTold, notCalling, -⟩ := h.alone isHeld
      obtain ⟨-, -, either, ended⟩ := h.held isHeld
      rw [notTold, notCalling]
      exact
        { refusing := h.refusing
          numbered := h.numbered
          pending := by simp [Ledger.down, notSaid]
          announced := by simp [notSaid]
          waits := by simp [noneHeld]
          current := notCurrent.symm
          calling := rfl
          free := by simp [disconnectHeld, held]
          held := fun _ => ⟨rfl, rfl, either, fun waiting => ⟨(ended waiting).1, rfl⟩⟩ }
    | none =>
      obtain ⟨either, apart⟩ := h.ends held
      have unheld := disconnectHeld.trans held
      split
      · rename_i ends_
        refine keeps_disconnected (l := l.down) h.refusing notCurrent (either.mpr (by simpa using ends_)) ?_ rfl ?_
        · exact fun waiting => ⟨apart waiting, rfl⟩
        · exact agrees_over (l := l.down) h.refusing rfl rfl rfl rfl noneHeld notSaid unheld
      · rename_i none_
        have nothing : ¬(l.told.isSome ∨ l.waiting) := by rw [either]; simpa using none_
        simp only [not_or, Bool.not_eq_true, Option.isSome_eq_false_iff, Option.isNone_iff_eq_none] at nothing
        have same : { l.down with told := none, waiting := false } = l.down := by
          simp [Ledger.down, nothing.1, nothing.2]
        rw [Monitor.keeps_nil, ← same]
        exact agrees_over (l := l.down) h.refusing rfl rfl rfl rfl noneHeld notSaid unheld

theorem Agrees.stateEvent_disconnected (h : Agrees s l) {event : StateEvent} (name : event.name = .disconnected)
    (at_ : Nat) : (brackets true true).Keeps (Agrees (s.stateEvent event at_).1) l (.heard event :: (s.stateEvent event at_).2) := by
  refine fun _ => ⟨trivial, ?_⟩
  have entered : (brackets true true).enter l (.heard event) = { l with up := none, calling := false, ended := true } := by
    simp [brackets, Ledger.enter, name]
  have is : s.stateEvent event at_ = (((s.cancel event).1.settle event at_).1,
      (s.cancel event).2 ++ ((s.cancel event).1.settle event at_).2) := by
    simp [Server.stateEvent, Server.announce, name]
  rw [entered, is]
  refine (h.cancel name).trans fun l' same => ?_
  rw [same]
  exact h.settle_disconnected name rfl at_

/-- The ledger once a session is heard of. -/
def Ledger.rise (l : Ledger) (whose : Whose) (event : StateEvent) : Ledger :=
  { l with sessions := l.sessions + 1, up := some (whose, event), calling := false }

theorem report_mine {event : StateEvent} (name : event.name = .connected) (mine : event.called || s.calling) :
    s.report event =
      ({ s with
        connectedTo := some event.remote, calling := false, pendingSaid := false, pendingAt := none
        untold := false }, connectedLines event s.host s.pendingSaid) := by
  simp [Server.report, reportState_mine name mine, name]

theorem report_panel {event : StateEvent} (name : event.name = .connected) (called : event.called = false)
    (notCalling : s.calling = false) :
    s.report event = ({ s with pendingSaid := false, pendingAt := none, untold := s.connectedTo.isNone }, []) := by
  simp [Server.report, notCalling, reportState_panel name called, name]

theorem unhold_none (unheld : s.disconnectHeld = none) : s.unhold = (s, []) := by
  cases s
  simp_all [Server.unhold]

/-- A session of the program's own, or the panel's. -/
theorem Agrees.stateEvent_own (h : Agrees s l) {event : StateEvent} (name : event.name = .connected)
    (called : event.called = false) (down : l.up = none) (at_ : Nat) :
    (brackets true true).Keeps (Agrees (s.stateEvent event at_).1) (l.rise (if l.calling then .own else .panel) event)
      (s.stateEvent event at_).2 := by
  have is : s.stateEvent event at_ = ((s.unhold.1.report event).1, s.unhold.2 ++ (s.unhold.1.report event).2) := by
    simp [Server.stateEvent, Server.announce, Server.cancel, Server.settle, name, called]
  obtain ⟨noneHeld, notSaid, pending⟩ := h.notHeld down
  have callingIs : l.calling = s.calling := by simp [h.calling, down]
  have notConnected : s.connectedTo = none := by simpa [Ledger.current, down] using h.current
  rw [is]
  cases held : s.disconnectHeld with
  | some since =>
    have isHeld : s.disconnectHeld.isSome := by simp [held]
    obtain ⟨-, notCalling, -⟩ := h.alone isHeld
    obtain ⟨-, -, either, ended⟩ := h.held isHeld
    have older : (l.rise .panel event).current = false := by
      cases told : l.told with
      | none => simp [Ledger.current, Ledger.rise, told]
      | some session =>
        have := h.numbered session told
        simp only [Ledger.current, Ledger.rise, told, Option.isSome_some, Bool.true_and, Option.some.injEq,
          decide_eq_false_iff_not]
        omega
    rw [report_panel name called (by exact notCalling), callingIs, notCalling]
    simp only [Server.unhold, held, List.append_nil]
    refine keeps_disconnected (l := l.rise .panel event) h.refusing older either ended pending ?_
    exact agrees_over (l := l.rise .panel event) h.refusing rfl pending notConnected notCalling noneHeld rfl rfl
  | none =>
    have told : l.told = none := by simpa [Ledger.current, down] using (h.free held).1
    rw [unhold_none held, List.nil_append]
    cases calls : s.calling with
    | true =>
      rw [report_mine name (by simp [calls]), callingIs, calls]
      refine keeps_connected (l := l.rise .own event) name rfl (by simp [called]) (by simp) told ?_ ?_
      · simp [Ledger.pendingHere, Ledger.rise, pending]
      · exact agrees_connected (l := l.rise .own event) h.refusing rfl rfl rfl rfl noneHeld rfl held
    | false =>
      rw [report_panel name called calls, callingIs, calls, Monitor.keeps_nil]
      have same : { l.rise .panel event with told := none, waiting := false } = l.rise .panel event := by
        simp [Ledger.rise, told, (h.free held).2.1, calls]
      show Agrees _ (l.rise .panel event)
      rw [← same]
      exact agrees_over (l := l.rise .panel event) h.refusing rfl pending notConnected rfl noneHeld rfl held

/-- The ledger once a call is heard of, `PENDING` said or not. -/
def Ledger.ring (l : Ledger) (event : StateEvent) (said : Bool) : Ledger :=
  { l.rise .called event with pending := if said then some (l.sessions + 1) else none }

/-- `PENDING`, where the program listens. -/
theorem Agrees.announce (h : Agrees s l) {event : StateEvent} (name : event.name = .connected)
    (called : event.called) (down : l.up = none) (at_ : Nat) :
    ∃ since, (s.announce event at_).1 = { s with pendingSaid := s.host.listening, pendingAt := since } ∧
      (brackets true true).Keeps (· = l.ring event s.host.listening) (l.rise .called event) (s.announce event at_).2 := by
  obtain ⟨-, notSaid, pending⟩ := h.notHeld down
  cases listens : s.host.listening with
  | true =>
    refine ⟨some at_, by simp [Server.announce, name, called, listens, notSaid], ?_⟩
    have said : (s.announce event at_).2 = [.note .pending] := by simp [Server.announce, name, called, listens, notSaid]
    rw [said]
    refine keeps_pending (l := l.rise .called event) rfl ?_ rfl
    simp [Ledger.pendingHere, Ledger.rise, pending]
  | false =>
    have silent : s.announce event at_ = (s, []) := by simp [Server.announce, listens]
    refine ⟨s.pendingAt, by rw [silent, ← notSaid], ?_⟩
    rw [silent, Monitor.keeps_nil]
    simp [Ledger.ring, Ledger.rise, pending]

/-- Another station's call, heard or held. -/
theorem Agrees.stateEvent_called (h : Agrees s l) {event : StateEvent} (name : event.name = .connected)
    (called : event.called) (down : l.up = none) (clear : !l.owed) (at_ : Nat) :
    (brackets true true).Keeps (Agrees (s.stateEvent event at_).1) (l.rise .called event) (s.stateEvent event at_).2 := by
  obtain ⟨since, after, announced⟩ := h.announce name called down at_
  have unheld := h.unheld clear
  have told : l.told = none := by simpa [Ledger.current, down] using (h.free unheld).1
  have notConnected : s.connectedTo = none := by simpa [Ledger.current, down] using h.current
  obtain ⟨noneHeld, -⟩ := h.notHeld down
  unfold Server.stateEvent
  dsimp only
  split
  · -- held for the program's `LISTEN`
    refine announced.mono fun l' same => ?_
    rw [same, after]
    exact
      { refusing := h.refusing
        numbered := by simp [Ledger.ring, Ledger.rise, told]
        pending := rfl
        announced := fun _ => rfl
        waits := by
          intro held is
          cases Option.some.inj is
          exact ⟨name, called, rfl, notConnected, unheld⟩
        current := by simp [notConnected, Ledger.current, Ledger.ring, Ledger.rise, told]
        calling := by simp [Ledger.ring, Ledger.rise]
        free := fun _ => by
          obtain ⟨-, waiting, calls⟩ := h.free unheld
          exact ⟨by simp [Ledger.current, Ledger.ring, Ledger.rise, told], waiting, calls⟩
        held := by simp [unheld] }
  · have settled (s' : Server) (unheld : s'.disconnectHeld = none) :
        (s'.cancel event).2 = [] ∧ (s'.cancel event).1.settle event at_ = s'.report event := by
      simp [Server.cancel, Server.settle, name, unhold_none unheld]
    obtain ⟨silent, reports⟩ := settled (s.announce event at_).1 (by rw [after]; exact unheld)
    rw [silent, reports, List.append_nil, report_mine name (by simp [called])]
    refine announced.trans fun l' same => ?_
    subst same
    refine keeps_connected (l := l.ring event s.host.listening) name rfl (fun _ => rfl) (by simp) told ?_ ?_
    · cases s.host.listening <;> simp [Ledger.pendingHere, Ledger.ring, Ledger.rise]
    · refine agrees_connected (l := l.ring event s.host.listening) h.refusing rfl rfl rfl rfl ?_ rfl ?_
      · rw [after]; exact noneHeld
      · rw [after]; exact unheld

theorem Agrees.stateEvent_connected (h : Agrees s l) {event : StateEvent} (name : event.name = .connected)
    (at_ : Nat) : (brackets true true).Keeps (Agrees (s.stateEvent event at_).1) l (.heard event :: (s.stateEvent event at_).2) := by
  rintro ⟨obeys, clear⟩
  refine ⟨trivial, ?_⟩
  have down : l.up = none := obeys name
  have entered : (brackets true true).enter l (.heard event) =
      l.rise (if event.called then .called else if l.calling then .own else .panel) event := by
    simp [brackets, Ledger.enter, Ledger.rise, name]
  rw [entered]
  cases called : event.called with
  | true => exact h.stateEvent_called name called down (clear rfl name called) at_
  | false => exact h.stateEvent_own name called down at_

theorem Agrees.stateEvent (h : Agrees s l) (event : StateEvent) (at_ : Nat) :
    (brackets true true).Keeps (Agrees (s.stateEvent event at_).1) l (.heard event :: (s.stateEvent event at_).2) := by
  cases name : event.name with
  | connected => exact h.stateEvent_connected name at_
  | disconnected => exact h.stateEvent_disconnected name at_
  | identified => exact h.stateEvent_other (.inl name) at_
  | other => exact h.stateEvent_other (.inr name) at_

/-! ### Whole runs -/

theorem Agrees.keyed (h : Agrees s l) (on hostKeys : Bool) :
    (brackets true true).Keeps (Agrees (s.keyed on hostKeys).1) l (s.keyed on hostKeys).2 := by
  unfold Server.keyed
  generalize (hostKeys || if on then !s.untold && s.pendingConnected.isNone else s.pttTold) = tells
  cases tells with
  | true => exact keeps_idle (by simp [Entry.note, Entry.idle]) (h.same rfl rfl rfl rfl rfl)
  | false => exact h

theorem Agrees.event (h : Agrees s l) (read : Event × Nat) :
    (brackets true true).Keeps (Agrees (s.event read).1) l (s.event read).2 := by
  obtain ⟨what, at_⟩ := read
  cases what with
  | state event => exact h.stateEvent event at_
  | ptt on hostKeys => exact h.keyed on hostKeys
  | bandwidth hz => exact h.same rfl rfl rfl rfl rfl

theorem Agrees.events (h : Agrees s l) (reads : List (Event × Nat)) :
    (brackets true true).Keeps (Agrees (Stream.run Server.event s reads).1) l (Stream.run Server.event s reads).2 :=
  Monitor.keeps_run (R := Agrees) (fun h read => h.event read) h reads

/-- What one turn of the loop says. -/
theorem Agrees.turn [FloatText] (h : Agrees s l) (t : Turn) :
    (brackets true true).Keeps (Agrees (s.turn t).1) l (s.turn t).2 := by
  unfold Server.turn
  cases t.command with
  | none =>
    simp only [List.nil_append, List.append_assoc]
    refine (h.release t.releaseAt).trans fun l h => ?_
    exact (h.events (t.unread ++ t.later)).trans fun l h => h.expire t.expireAt
  | some command =>
    obtain ⟨text, answers, at_⟩ := command
    simp only [List.append_assoc]
    refine (h.command text answers _ at_).trans fun l h => ?_
    refine (h.release t.releaseAt).trans fun l h => ?_
    exact (h.events (t.unread ++ t.later)).trans fun l h => h.expire t.expireAt

/-- In every run of the loop what the program is told of sessions is well bracketed and
true: refused calls apart, and as long as no call meets a `DISCONNECTED` owed. -/
theorem sessions_bracketed [FloatText] (turns : List Turn) : Bracketed true true (Server.run {} turns).2 :=
  (Monitor.keeps_run (R := Agrees) (fun h t => h.turn t) agrees_start turns).mono fun _ _ => trivial

/-! ### Runs that are told wrong -/

/-- A command of the program's, and the modem's answer to the call it places. -/
def commanded (text : String) (taken : Bool) : Option (Text × Answers × Nat) := some (text.toList, { taken }, 0)

/-- The program calls, and its session comes up. -/
def ownSession : Turn :=
  { command := commanded "CONNECT W1AW N0CALL" true
    later := [(.state { name := .connected, detail := "N0CALL (master)".toList, callsign := some "W1AW".toList }, 0)] }

def ending : Event × Nat := (.state { name := .disconnected, identifierPending := true }, 0)

def rung : Event × Nat := (.state { name := .connected, detail := "K1ABC (slave)".toList, callsign := some "W1AW".toList }, 0)

/-- The program calls again in its session. -/
def secondCall : List Turn := [ownSession, { command := commanded "CONNECT W1AW K1ABC" false }]

/-- Another station calls before the closing identifier is out, the program listening. -/
def rungEarly : List Turn := [ownSession, { command := commanded "LISTEN ON" false, later := [ending, rung] }]

/-- The same, the program not listening until after. -/
def rungDeaf : List Turn := [ownSession, { later := [ending, rung] }, { command := commanded "LISTEN ON" false }]

/-- The program calls again before the closing identifier is out. -/
def calledEarly : List Turn :=
  [ownSession, { later := [ending] },
    { command := commanded "CONNECT W1AW K1ABC" true, later := [(.state { name := .identified }, 0)] }]

/-- The program calls again, the end of its session unread. -/
def calledUnread : List Turn :=
  [ownSession, { unread := [(.state { name := .disconnected }, 0)], command := commanded "CONNECT W1AW K1ABC" true }]

/-- A refusal's `DISCONNECTED` is said while the session of the last `CONNECTED` is up; and
refusals apart, a call that meets a `DISCONNECTED` owed is told wrong, however it meets it. -/
theorem sessions_mistold :
    ¬ Bracketed false false (@Server.run ⟨fun _ => none⟩ {} secondCall).2 ∧
      ∀ turns ∈ [rungEarly, rungDeaf, calledEarly, calledUnread],
        ¬ Bracketed true false (@Server.run ⟨fun _ => none⟩ {} turns).2 := by
  decide

end AetherHF.Host

import AetherHF.Host.Brackets

/-! The data port: the payload a host program gets of its sessions, and what becomes of
the bytes it writes. -/
namespace AetherHF.Host

/-! ### The two ports -/

/-- What the modem publishes, the payload it delivers with it. -/
inductive Published where
  | event (event : Event)
  /-- A `data` event. -/
  | data (bytes : Bytes)
  deriving DecidableEq, Repr

def Published.ends : Published → Bool
  | .event what => what.ends
  | .data _ => false

/-- What passes at the two ports, in order. -/
inductive Passage where
  | entry (entry : Entry)
  /-- A `data` event read. -/
  | delivered (bytes : Bytes)
  /-- Put in the pipe for the program. -/
  | queued (bytes : Bytes)
  /-- Taken out of it by the data connection. -/
  | taken (bytes : Bytes)
  /-- Written by the program. -/
  | wrote (bytes : Bytes)
  /-- Handed to the modem's `send`, and whether a `disconnected` published before it stands
  unread. -/
  | sent (bytes : Bytes) (unread : Bool)
  deriving DecidableEq, Repr

/-- The loop of the command port, and the pipe it shares with the data connection. -/
structure Port where
  server : Server := {}
  toRadio : Bytes := []
  toHost : Bytes := []
  deriving DecidableEq, Repr

namespace Port

variable (p : Port)

/-- The data connection, once round. -/
def serveData (written : Bytes) : Port × List Passage :=
  ({ p with toRadio := p.toRadio ++ written, toHost := [] }, [.wrote written, .taken p.toHost])

/-- Payload the program wrote goes into its own session. -/
def send (unread : Bool) : Port × List Passage :=
  if p.server.connectedTo.isSome ∧ p.toRadio ≠ [] then ({ p with toRadio := [] }, [.sent p.toRadio unread])
  else (p, [])

/-- The program hears the payload of its own sessions only. -/
def data (bytes : Bytes) : Port × List Passage :=
  if p.server.connectedTo.isSome then ({ p with toHost := p.toHost ++ bytes }, [.delivered bytes, .queued bytes])
  else (p, [.delivered bytes])

def published (read : Published × Nat) : Port × List Passage :=
  match read.1 with
  | .event event =>
    let (server, out) := p.server.event (event, read.2)
    ({ p with server }, out.map .entry)
  | .data bytes => p.data bytes

end Port

/-- What one turn of the loop finds. -/
structure PortTurn where
  /-- Published since the events were last read, before the modem answers the command. -/
  unread : List (Published × Nat) := []
  command : Option (Text × Answers × Nat) := none
  releaseAt : Nat := 0
  /-- What the data connection was written since, at each of its rounds. -/
  rounds : List Bytes := []
  /-- Published after the command's answer, before the modem takes what was written. -/
  meanwhile : List (Published × Nat) := []
  /-- Published after that. -/
  later : List (Published × Nat) := []
  expireAt : Nat := 0
  deriving DecidableEq, Repr

/-- One turn of the loop. -/
def Port.turn [FloatText] (p : Port) (t : PortTurn) : Port × List Passage :=
  let (server, asked) := match t.command with
    | some (text, answers, at_) => p.server.command text answers (t.unread.any (·.1.ends)) at_
    | none => (p.server, [])
  let (server, released) := server.release t.releaseAt
  let (p, served) := Stream.run Port.serveData { p with server } t.rounds
  let (p, sent) := p.send ((t.unread ++ t.meanwhile).any (·.1.ends))
  let (p, heard) := Stream.run Port.published p (t.unread ++ t.meanwhile ++ t.later)
  let (server, expired) := p.server.expire t.expireAt
  ({ p with server }, (asked ++ released).map .entry ++ served ++ sent ++ heard ++ expired.map .entry)

/-- A turn with no payload in it. -/
def Turn.port (t : Turn) : PortTurn :=
  { unread := t.unread.map fun read => (.event read.1, read.2)
    command := t.command
    releaseAt := t.releaseAt
    later := t.later.map fun read => (.event read.1, read.2)
    expireAt := t.expireAt }

def Port.run [FloatText] : Port → List PortTurn → Port × List Passage := Stream.run Port.turn

theorem run_published_event (p : Port) (reads : List (Event × Nat)) :
    Stream.run Port.published p (reads.map fun read => (.event read.1, read.2)) =
      ({ p with server := (Stream.run Server.event p.server reads).1 },
        (Stream.run Server.event p.server reads).2.map .entry) := by
  induction reads generalizing p with
  | nil => rfl
  | cons read rest ih =>
    rw [List.map_cons, Stream.run_cons, ih, Stream.run_cons, List.map_append]
    rfl

/-- With no payload the two ports are the command port. -/
theorem Port.turn_port [FloatText] (p : Port) (t : Turn) (empty : p.toRadio = []) :
    p.turn t.port = ({ p with server := (p.server.turn t).1 }, (p.server.turn t).2.map .entry) := by
  have unread : (t.port.unread ++ t.port.meanwhile ++ t.port.later) =
      (t.unread ++ t.later).map fun read => (.event read.1, read.2) := by
    simp [Turn.port]
  have ends : t.port.unread.any (·.1.ends) = t.unread.any (·.1.ends) := by
    simp [Turn.port, Function.comp_def, Published.ends]
  have silent (server : Server) (u : Bool) : ({ p with server } : Port).send u = ({ p with server }, []) :=
    if_neg fun some_ => some_.2 empty
  unfold Port.turn Server.turn
  rw [unread, ends]
  cases asked : t.command with
  | none =>
    simp only [Turn.port, asked, Stream.run_nil, silent, run_published_event]
    simp only [List.map_append, List.append_nil, List.append_assoc]
  | some command =>
    simp only [Turn.port, asked, Stream.run_nil, silent, run_published_event]
    simp only [List.map_append, List.append_nil, List.append_assoc]

/-! ### The account of the payload -/

/-- What the program is due of the modem's payload, what it got, and what became of what it
wrote. -/
structure Account where
  /-- A session of the modem's is up. -/
  up : Bool := false
  /-- `CONNECTED` was said of it. -/
  told : Bool := false
  /-- Its payload, as long as it is not. -/
  held : Bytes := []
  /-- The payload of the sessions told of, each from its first byte on. -/
  due : Bytes := []
  queued : Bytes := []
  written : Bytes := []
  sent : Bytes := []
  /-- Something was handed to the modem with no session told of up. -/
  astray : Bool := false
  /-- `CONNECTED` was said of a session whose payload had begun. -/
  late : Bool := false
  /-- Something was handed to the modem with a `disconnected` unread. -/
  behind : Bool := false
  deriving DecidableEq, Repr

namespace Account

variable (a : Account)

def enter : Passage → Account
  | .entry (.heard event) => match event.name with
    | .connected => { a with up := true, told := false, held := [] }
    | .disconnected => { a with up := false, told := false, held := [] }
    | _ => a
  | .entry (.said (.note (.connected _ _ _))) =>
    { a with told := true, due := a.due ++ a.held, late := a.late || !a.held.isEmpty, held := [] }
  | .entry _ => a
  | .delivered bytes =>
    if !a.up then a else if a.told then { a with due := a.due ++ bytes } else { a with held := a.held ++ bytes }
  | .queued bytes => { a with queued := a.queued ++ bytes }
  | .taken _ => a
  | .wrote bytes => { a with written := a.written ++ bytes }
  | .sent bytes unread =>
    { a with
      sent := a.sent ++ bytes
      astray := a.astray || !(a.up && a.told && !unread)
      behind := a.behind || unread }

/-- The program gets its sessions' payload whole and no other's, and what it writes goes
into them, in order and once. -/
structure Whole : Prop where
  queued : a.queued = a.due
  sent : a.sent <+: a.written
  inside : a.astray = false

end Account

/-- The modem has one session at a time. -/
def payload : Monitor Account Passage where
  expects a e := match e with
    | .entry (.heard event) => event.name = .connected → a.up = false
    | _ => True
  permits _ _ := True
  enter := Account.enter

instance (a : Account) : DecidablePred (payload.expects a)
  | .entry (.heard event) => inferInstanceAs (Decidable (event.name = .connected → a.up = false))
  | .entry (.asked _) | .entry (.answered _ _) | .entry (.said _) | .delivered _ | .queued _ | .taken _ | .wrote _
  | .sent _ _ => .isTrue trivial

instance (a : Account) : Decidable a.Whole :=
  decidable_of_iff (a.queued = a.due ∧ a.sent <+: a.written ∧ a.astray = false)
    ⟨fun h => ⟨h.1, h.2.1, h.2.2⟩, fun h => ⟨h.queued, h.sent, h.inside⟩⟩

/-! ### The loop and the account agree -/

structure Follows (p : Port) (a : Account) : Prop where
  told : p.server.connectedTo.isSome = a.told
  up : a.told → a.up
  waits : ∀ event ∈ p.server.pendingConnected, event.name = .connected ∧ event.called ∧ a.up ∧ !a.told
  written : a.written = a.sent ++ p.toRadio
  queued : a.late = false → a.queued = a.due
  short : a.late = true → a.queued.length < a.due.length
  inside : a.astray = a.behind

theorem follows_start : Follows {} {} := by
  constructor <;> simp

/-- What the account takes no note of. -/
def Entry.silent : Entry → Bool
  | .heard _ | .said (.note (.connected _ _ _)) => false
  | _ => true

variable {P : Account → Prop} {p p' : Port} {a : Account} {s : Server}

theorem enter_silent {e : Entry} (silent : e.silent) : a.enter (.entry e) = a := by
  cases e with
  | heard event => cases silent
  | asked request => rfl
  | answered taken unread => rfl
  | said line =>
    cases line with
    | reply text => rfl
    | note n => cases n <;> first | rfl | cases silent

theorem keeps_silent {entries : List Entry} (silent : ∀ e ∈ entries, e.silent) (here : P a) :
    payload.Keeps P a (entries.map .entry) := by
  induction entries with
  | nil => exact here
  | cons e rest ih =>
    obtain ⟨first, later⟩ := List.forall_mem_cons.mp silent
    refine fun _ => ⟨trivial, ?_⟩
    rw [show payload.enter a (.entry e) = a from enter_silent first]
    exact ih later

/-- Of the loop the account reads what the program was told of, and what waits. -/
theorem Follows.same {server : Server} (h : Follows p a) (connectedTo : server.connectedTo = p.server.connectedTo)
    (pendingConnected : server.pendingConnected = p.server.pendingConnected) : Follows { p with server } a :=
  ⟨by rw [connectedTo]; exact h.told, h.up, by rw [pendingConnected]; exact h.waits, h.written, h.queued, h.short,
    h.inside⟩

/-- Nothing waits with no session up, and nothing is told. -/
theorem Follows.down (h : Follows p a) (down : a.up = false) :
    p.server.pendingConnected = none ∧ p.server.connectedTo = none ∧ a.told = false := by
  have untold : a.told = false := by
    by_contra told
    rw [h.up (Bool.not_eq_false _ |>.mp told)] at down
    cases down
  refine ⟨?_, by simpa [untold] using h.told, untold⟩
  cases held : p.server.pendingConnected with
  | none => rfl
  | some event =>
    obtain ⟨-, -, up, -⟩ := h.waits event held
    rw [up] at down
    cases down

/-! ### Commands -/

theorem apply_silent (action : HostAction) (own : Bool) (answers : Answers) (unread : Bool) (host : HostState) :
    ∀ e ∈ (apply action own answers unread host).2.2, e.silent := by
  cases action with
  | connect caller called => cases taken : answers.taken <;> simp [apply, taken, Entry.silent, Entry.note]
  | disconnect => cases own <;> simp [apply, Entry.silent]
  | abort => cases own <;> simp [apply, Entry.silent]
  | cqFrame source => cases refused : answers.nameRefused <;> simp [apply, Entry.silent, refused]
  | _ => simp [apply, Entry.silent]

theorem Follows.command [FloatText] (h : Follows p a) (text : Text) (answers : Answers) (unread : Bool) (at_ : Nat) :
    payload.Keeps (Follows { p with server := (p.server.command text answers unread at_).1 }) a
      ((p.server.command text answers unread at_).2.map .entry) := by
  refine keeps_silent (fun e member => ?_) (h.same rfl rfl)
  rcases List.mem_append.mp member with reply | passed
  · obtain ⟨text, -, rfl⟩ := List.mem_map.mp reply
    rfl
  · exact apply_silent _ _ _ _ _ e passed

/-! ### Sessions -/

/-- `CONNECTED` said of the session that is up: what was held of it is due. -/
theorem Follows.connected (h : Follows p a) (up : a.up) (server : Server) (connectedTo : server.connectedTo.isSome)
    (pendingConnected : server.pendingConnected = none) :
    Follows { p with server }
      { a with told := true, due := a.due ++ a.held, late := a.late || !a.held.isEmpty, held := [] } where
  told := connectedTo
  up _ := up
  waits := by simp [pendingConnected]
  written := h.written
  queued intime := by
    obtain ⟨before, none_⟩ := Bool.or_eq_false_iff.mp intime
    have empty : a.held = [] := by simpa using none_
    simp [h.queued before, empty]
  short late := by
    rw [List.length_append]
    cases before : a.late with
    | true => exact Nat.lt_of_lt_of_le (h.short before) (Nat.le_add_right ..)
    | false =>
      have some_ : a.held ≠ [] := by simpa [before] using late
      rw [h.queued before]
      exact Nat.lt_add_of_pos_right (List.length_pos_iff.mpr some_)
  inside := h.inside

theorem Follows.connectedLines (h : Follows p a) (up : a.up) {event : StateEvent} (name : event.name = .connected)
    (host : HostState) (pendingSaid : Bool) {server : Server} (connectedTo : server.connectedTo.isSome)
    (pendingConnected : server.pendingConnected = none) :
    payload.Keeps (Follows { p with server }) a ((Host.connectedLines event host pendingSaid).map .entry) := by
  obtain ⟨mine, caller, called, -, is⟩ := connectedLines_eq name host pendingSaid
  have said := h.connected up server connectedTo pendingConnected
  rw [is, List.map_append]
  refine Monitor.Keeps.trans (keeps_silent (P := (· = a)) ?_ rfl) ?_
  · split <;> simp [Entry.silent, Entry.note]
  · rintro _ rfl
    refine fun _ => ⟨trivial, fun _ => ⟨trivial, ?_⟩⟩
    exact keeps_silent (show ∀ e ∈ [Entry.note .encryptionDisabled, Entry.note .linkRegistered], e.silent by
      simp [Entry.silent, Entry.note]) said

theorem Follows.release (h : Follows p a) (at_ : Nat) :
    payload.Keeps (Follows { p with server := (p.server.release at_).1 }) a ((p.server.release at_).2.map .entry) := by
  unfold Server.release
  cases held : p.server.pendingConnected with
  | none => exact h.same rfl rfl
  | some event =>
    obtain ⟨name, called, up, -⟩ := h.waits event held
    dsimp only
    split
    · rw [reportState_mine name (by simp [called])]
      exact h.connectedLines up name _ _ rfl rfl
    · exact h.same rfl rfl

/-- The account once a session is heard of. -/
def Account.rise (a : Account) : Account := { a with up := true, told := false, held := [] }

/-- The account once a session is heard to be over. -/
def Account.fall (a : Account) : Account := { a with up := false, told := false, held := [] }

/-- A session, or its end, is heard of, and nothing is said of it. -/
theorem Follows.untold (h : Follows p a) (up : Bool) {server : Server} (connectedTo : server.connectedTo = none)
    (waits : ∀ event ∈ server.pendingConnected, event.name = .connected ∧ event.called ∧ up) :
    Follows { p with server } { a with up, told := false, held := [] } where
  told := by rw [connectedTo]; rfl
  up told := by cases told
  waits event held := by
    obtain ⟨name, called, up⟩ := waits event held
    exact ⟨name, called, up, rfl⟩
  written := h.written
  queued := h.queued
  short := h.short
  inside := h.inside

theorem announce_silent (event : StateEvent) (at_ : Nat) : ∀ e ∈ (s.announce event at_).2, e.silent := by
  unfold Server.announce
  split <;> simp [Entry.silent, Entry.note]

theorem announce_same (event : StateEvent) (at_ : Nat) : (s.announce event at_).1.connectedTo = s.connectedTo ∧
    (s.announce event at_).1.pendingConnected = s.pendingConnected := by
  unfold Server.announce
  split <;> exact ⟨rfl, rfl⟩

theorem unhold_silent : ∀ e ∈ s.unhold.2, e.silent := by
  unfold Server.unhold
  dsimp only
  split <;> simp [Entry.silent, Entry.note]

/-- A session heard of, nothing holding it. -/
theorem Follows.report_connected (h : Follows p a) {event : StateEvent} (name : event.name = .connected) {server : Server} (connectedTo : server.connectedTo = none)
    (pendingConnected : server.pendingConnected = none) :
    payload.Keeps (Follows { p with server := (server.report event).1 }) a.rise
      ((server.report event).2.map .entry) := by
  have risen : Follows { p with server } a.rise := h.untold true connectedTo (by simp [pendingConnected])
  by_cases mine : event.called || server.calling
  · rw [report_mine name mine]
    exact risen.connectedLines rfl name _ _ rfl pendingConnected
  · obtain ⟨called, calling⟩ := Bool.or_eq_false_iff.mp (Bool.not_eq_true _ |>.mp mine)
    rw [report_panel name called calling]
    exact h.untold true connectedTo (by simp [pendingConnected])

theorem Follows.stateEvent_connected (h : Follows p a) {event : StateEvent} (name : event.name = .connected)
    (down : a.up = false) (at_ : Nat) :
    payload.Keeps (Follows { p with server := (p.server.stateEvent event at_).1 }) a.rise
      ((p.server.stateEvent event at_).2.map .entry) := by
  obtain ⟨noneHeld, notConnected, -⟩ := h.down down
  obtain ⟨connectedTo, pendingConnected⟩ := announce_same (s := p.server) event at_
  unfold Server.stateEvent
  dsimp only
  split
  · rename_i deaf
    refine keeps_silent (announce_silent event at_) (h.untold true (connectedTo.trans notConnected) ?_)
    rintro _ ⟨⟩
    exact ⟨name, deaf.2.1, rfl⟩
  · have settled : ((p.server.announce event at_).1.cancel event) = ((p.server.announce event at_).1, []) := by
      simp [Server.cancel, name]
    rw [settled]
    simp only [Server.settle, name, List.append_nil, List.map_append]
    refine (keeps_silent (announce_silent event at_) (P := (· = a.rise)) rfl).trans ?_
    rintro _ rfl
    refine (keeps_silent unhold_silent (P := (· = a.rise)) rfl).trans ?_
    rintro _ rfl
    exact h.report_connected name (connectedTo.trans notConnected) (pendingConnected.trans noneHeld)

theorem Follows.stateEvent_disconnected (h : Follows p a) {event : StateEvent} (name : event.name = .disconnected)
    (at_ : Nat) : payload.Keeps (Follows { p with server := (p.server.stateEvent event at_).1 }) a.fall
      ((p.server.stateEvent event at_).2.map .entry) := by
  have announced : p.server.announce event at_ = (p.server, []) := by simp [Server.announce, name]
  have cancelled : (p.server.cancel event).1.pendingConnected = none := by simp [Server.cancel, name]
  have silent : ∀ e ∈ (p.server.cancel event).2, e.silent := by
    simp only [Server.cancel, name, if_true]
    split <;> simp [Entry.silent, Entry.note]
  unfold Server.stateEvent
  rw [announced]
  simp only [name, reduceCtorEq, false_and, if_false, List.nil_append, List.map_append]
  refine (keeps_silent silent (P := (· = a.fall)) rfl).trans ?_
  rintro _ rfl
  simp only [Server.settle, name]
  split
  · exact h.untold false rfl (by simp [cancelled])
  · rw [report_disconnected name]
    refine keeps_silent ?_ (h.untold false rfl (by simp [cancelled]))
    split <;> simp [Entry.silent, Entry.note]

theorem Follows.stateEvent_other (h : Follows p a) {event : StateEvent}
    (name : event.name = .identified ∨ event.name = .other) (at_ : Nat) :
    payload.Keeps (Follows { p with server := (p.server.stateEvent event at_).1 }) a
      ((p.server.stateEvent event at_).2.map .entry) := by
  rcases name with name | name
  · have is : p.server.stateEvent event at_ = { p.server with untold := false }.unhold := by
      simp [Server.stateEvent, Server.announce, Server.cancel, Server.settle, name]
    rw [is]
    exact keeps_silent unhold_silent (h.same rfl rfl)
  · have is : p.server.stateEvent event at_ = (p.server, []) := by
      simp [Server.stateEvent, Server.announce, Server.cancel, Server.settle, Server.report, reportState, name]
    rw [is]
    exact h

theorem Follows.event (h : Follows p a) (read : Event × Nat) :
    payload.Keeps (Follows { p with server := (p.server.event read).1 }) a ((p.server.event read).2.map .entry) := by
  obtain ⟨what, at_⟩ := read
  cases what with
  | state event =>
    cases name : event.name with
    | connected =>
      intro expected
      have entered : payload.enter a (.entry (.heard event)) = a.rise := by
        simp [payload, Account.enter, name, Account.rise]
      refine ⟨trivial, ?_⟩
      rw [entered]
      exact h.stateEvent_connected name (expected name) at_
    | disconnected =>
      have entered : payload.enter a (.entry (.heard event)) = a.fall := by
        simp [payload, Account.enter, name, Account.fall]
      refine fun _ => ⟨trivial, ?_⟩
      rw [entered]
      exact h.stateEvent_disconnected name at_
    | identified =>
      have entered : payload.enter a (.entry (.heard event)) = a := by simp [payload, Account.enter, name]
      refine fun _ => ⟨trivial, ?_⟩
      rw [entered]
      exact h.stateEvent_other (.inl name) at_
    | other =>
      have entered : payload.enter a (.entry (.heard event)) = a := by simp [payload, Account.enter, name]
      refine fun _ => ⟨trivial, ?_⟩
      rw [entered]
      exact h.stateEvent_other (.inr name) at_
  | ptt on hostKeys =>
    change payload.Keeps (Follows { p with server := (p.server.keyed on hostKeys).1 }) a
      ((p.server.keyed on hostKeys).2.map .entry)
    unfold Server.keyed
    generalize (hostKeys || if on then !p.server.untold && p.server.pendingConnected.isNone else p.server.pttTold) = tells
    cases tells with
    | true => exact keeps_silent (by simp [Entry.silent, Entry.note]) (h.same rfl rfl)
    | false => exact h.same rfl rfl
  | bandwidth hz => exact h.same rfl rfl

theorem Follows.expire (h : Follows p a) (at_ : Nat) :
    payload.Keeps (Follows { p with server := (p.server.expire at_).1 }) a ((p.server.expire at_).2.map .entry) := by
  unfold Server.expire
  split
  · exact keeps_silent unhold_silent (h.same rfl rfl)
  · exact h.same rfl rfl

/-! ### The payload -/

/-- Payload read goes to the program as far as it is told of the session, and is lost while
`CONNECTED` waits. -/
theorem Follows.data (h : Follows p a) (bytes : Bytes) :
    payload.Keeps (Follows (p.data bytes).1) a (p.data bytes).2 := by
  unfold Port.data
  cases told : a.told with
  | true =>
    have up : a.up = true := h.up told
    rw [if_pos (by rw [h.told, told])]
    refine fun _ => ⟨trivial, fun _ => ⟨trivial, ?_⟩⟩
    have entered : payload.enter (payload.enter a (.delivered bytes)) (.queued bytes) =
        { a with due := a.due ++ bytes, queued := a.queued ++ bytes } := by
      simp [payload, Account.enter, up, told]
    rw [entered]
    refine ⟨h.told, h.up, h.waits, h.written, fun intime => ?_, fun late => ?_, h.inside⟩
    · exact congrArg (· ++ bytes) (h.queued intime)
    · simpa using h.short late
  | false =>
    rw [if_neg (by rw [h.told, told]; exact Bool.false_ne_true)]
    refine fun _ => ⟨trivial, ?_⟩
    have entered : payload.enter a (.delivered bytes) = if a.up then { a with held := a.held ++ bytes } else a := by
      cases up : a.up <;> simp [payload, Account.enter, up, told]
    rw [entered]
    split
    · exact ⟨h.told, h.up, h.waits, h.written, h.queued, h.short, h.inside⟩
    · exact h

theorem Follows.published (h : Follows p a) (read : Published × Nat) :
    payload.Keeps (Follows (p.published read).1) a (p.published read).2 := by
  obtain ⟨what, at_⟩ := read
  cases what with
  | event event => exact h.event (event, at_)
  | data bytes => exact h.data bytes

theorem Follows.serveData (h : Follows p a) (written : Bytes) :
    payload.Keeps (Follows (p.serveData written).1) a (p.serveData written).2 := by
  refine fun _ => ⟨trivial, fun _ => ⟨trivial, ?_⟩⟩
  refine ⟨h.told, h.up, h.waits, ?_, h.queued, h.short, h.inside⟩
  change a.written ++ written = a.sent ++ (p.toRadio ++ written)
  rw [h.written, List.append_assoc]

/-- What is written is handed to the modem only in a session told of. -/
theorem Follows.send (h : Follows p a) (unread : Bool) :
    payload.Keeps (Follows (p.send unread).1) a (p.send unread).2 := by
  unfold Port.send
  split
  · rename_i open_
    have told : a.told = true := h.told ▸ open_.1
    refine fun _ => ⟨trivial, ?_⟩
    refine ⟨h.told, h.up, h.waits, ?_, h.queued, h.short, ?_⟩
    · change a.written = (a.sent ++ p.toRadio) ++ []
      rw [List.append_nil, h.written]
    · change (a.astray || !(a.up && a.told && !unread)) = (a.behind || unread)
      rw [h.up told, told, h.inside]
      simp
  · exact h

theorem Follows.turn [FloatText] (h : Follows p a) (t : PortTurn) :
    payload.Keeps (Follows (p.turn t).1) a (p.turn t).2 := by
  have commanded : payload.Keeps (Follows { p with server := (match t.command with
      | some (text, answers, at_) => p.server.command text answers (t.unread.any (·.1.ends)) at_
      | none => (p.server, [])).1 }) a ((match t.command with
      | some (text, answers, at_) => p.server.command text answers (t.unread.any (·.1.ends)) at_
      | none => (p.server, [])).2.map .entry) := by
    cases t.command with
    | none => exact h
    | some command => exact h.command command.1 command.2.1 _ command.2.2
  unfold Port.turn
  simp only [List.map_append, List.append_assoc]
  refine commanded.trans fun a h => ?_
  refine (h.release t.releaseAt).trans fun a h => ?_
  refine (Monitor.keeps_run (R := Follows) (fun h written => h.serveData written) h t.rounds).trans fun a h => ?_
  refine (h.send _).trans fun a h => ?_
  refine (Monitor.keeps_run (R := Follows) (fun h read => h.published read) h _).trans fun a h => ?_
  exact h.expire t.expireAt

/-- The account of a run of the loop. -/
def account [FloatText] (turns : List PortTurn) : Account := (Port.run {} turns).2.foldl Account.enter {}

/-- In every run in which the modem has one session at a time, the program gets the payload
of its sessions whole, and what it writes goes into them alone, exactly if no payload of a
session is read before its `CONNECTED` is said and nothing is handed to the modem with a
`disconnected` unread. -/
theorem payload_whole [FloatText] (turns : List PortTurn) (one : payload.Expected {} (Port.run {} turns).2) :
    (account turns).Whole ↔ (account turns).late = false ∧ (account turns).behind = false := by
  have follows : Follows (Port.run {} turns).1 (account turns) :=
    (Monitor.keeps_run (R := Follows) (fun h t => h.turn t) follows_start turns).reached one
  constructor
  · intro whole
    refine ⟨?_, follows.inside.symm.trans whole.inside⟩
    by_contra late
    have short := follows.short (Bool.not_eq_false _ |>.mp late)
    rw [whole.queued] at short
    exact absurd short (Nat.lt_irrefl _)
  · rintro ⟨intime, apace⟩
    exact ⟨follows.queued intime, ⟨_, follows.written.symm⟩, follows.inside.trans apace⟩

/-! ### Payload lost -/

/-- Another station calls a program that does not listen, and its first bytes come before
it does. -/
def heardDeaf : List PortTurn :=
  [{ later := [(.event rung.1, 0), (.data [1, 2], 0)] },
    { command := commanded "LISTEN ON" false, later := [(.data [3], 0)] }]

/-- The program hears of its session, and of the payload that came after. -/
def heardListening : List PortTurn :=
  [{ command := commanded "LISTEN ON" false, later := [(.event rung.1, 0), (.data [1, 2], 0)] },
    { rounds := [[9]], later := [(.data [3], 0)] }]

/-- The program writes in its session, which is over before the modem is handed it. -/
def wroteLate : List PortTurn :=
  [ownSession.port, { rounds := [[9]], meanwhile := [(.event (.state { name := .disconnected }), 0)] }]

theorem heardListening_whole : (@account ⟨fun _ => none⟩ heardListening).Whole :=
  (@payload_whole ⟨fun _ => none⟩ heardListening (by decide)).mpr (by decide)

/-- The first bytes of a session are lost while its `CONNECTED` waits, and bytes go to the
modem with their session over. -/
theorem payload_lost :
    (payload.Expected {} (@Port.run ⟨fun _ => none⟩ {} heardDeaf).2 ∧ ¬(@account ⟨fun _ => none⟩ heardDeaf).Whole) ∧
      payload.Expected {} (@Port.run ⟨fun _ => none⟩ {} wroteLate).2 ∧
        ¬(@account ⟨fun _ => none⟩ wroteLate).Whole := by
  decide

end AetherHF.Host

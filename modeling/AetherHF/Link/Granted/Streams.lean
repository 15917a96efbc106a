import Mathlib.Logic.Relation
import AetherHF.Base.Lists
import AetherHF.Link.Granted.Buffers
import AetherHF.Link.Granted.Inputs

/-! What a call of the engine's can do to the two streams of bytes: the blocks of its
own data, the blocks of the other station's, and the frames of either it hands over.
`Micro` is one such step; every call is a run of them. -/
namespace AetherHF.Link

/-! ### One step -/

/-- A block sent again, re-encoded or split: the same block, known as before. -/
structure TxRecord.Reworked (r r' : TxRecord) : Prop where
  seq : r'.seq = r.seq
  body : r'.body = r.body
  acked : r'.acked = r.acked
  pieces : r'.pieces = r.pieces ∨ r'.pieces = none ∨
    ∃ capacity parts, Link.pieces r.body capacity = .ok parts ∧ r'.pieces = some parts

theorem TxRecord.Reworked.refl (r : TxRecord) : r.Reworked r := ⟨rfl, rfl, rfl, .inl rfl⟩

theorem reworked_refl (records : List TxRecord) :
    List.Forall₂ TxRecord.Reworked records records := by
  induction records with
  | nil => exact .nil
  | cons r rest ih => exact .cons (.refl r) ih

theorem TxRecord.reencode_reworked (r : TxRecord) (target : Nat) : r.Reworked (r.reencode target) :=
  ⟨rfl, rfl, rfl, .inr (.inl rfl)⟩

theorem record?_mem {tx : Sender} {s : UInt8} {r : TxRecord} (found : tx.record? s = some r) :
    r ∈ tx.records := List.mem_of_find?_eq_some found

theorem modify_reworked {tx : Sender} {s : UInt8} {f : TxRecord → TxRecord}
    (each : ∀ r, tx.record? s = some r → r.Reworked (f r)) :
    List.Forall₂ TxRecord.Reworked tx.records (tx.modify s f).records := by
  unfold Sender.record? at each
  change List.Forall₂ _ _ (tx.records.modify (tx.records.findIdx fun r => r.seq = s) f)
  generalize tx.records = records at each ⊢
  induction records with
  | nil => exact .nil
  | cons r rest ih =>
    by_cases here : r.seq = s
    · have first : (r :: rest).findIdx (fun r => r.seq = s) = 0 := by simp [List.findIdx_cons, here]
      rw [first]
      exact .cons (each r (by simp [here])) (reworked_refl rest)
    · have later : (r :: rest).findIdx (fun r => r.seq = s) = rest.findIdx (fun r => r.seq = s) + 1 := by
        simp [List.findIdx_cons, here]
      rw [later]
      exact .cons (.refl r) (ih fun q found => each q (by simpa [here] using found))

theorem reworked_map {f : TxRecord → TxRecord} (each : ∀ r : TxRecord, r.Reworked (f r))
    (records : List TxRecord) : List.Forall₂ TxRecord.Reworked records (records.map f) := by
  induction records with
  | nil => exact .nil
  | cons r rest ih => exact .cons (each r) ih

/-- The report of a measurement says that it is one. -/
def Reports (measured : Option UInt16) : Prop := ∀ word, measured = some word → word &&& report ≠ 0

/-- Nothing of the streams moves: what is sent again may be coded anew, and what is
heard of the other station may be filed. -/
structure Kept (e e' : Engine) : Prop where
  session : e'.session = e.session := by rfl
  remote : e'.remoteCall = e.remoteCall := by rfl
  queue : e'.tx.queue = e.tx.queue := by rfl
  txBase : e'.tx.base = e.tx.base := by rfl
  txNext : e'.tx.next = e.tx.next := by rfl
  records : List.Forall₂ TxRecord.Reworked e.tx.records e'.tx.records := by exact reworked_refl _
  rxBase : e'.rx.base = e.rx.base := by rfl
  buf : e'.rx.buf = e.rx.buf := by rfl
  pieces : e'.rx.pieces = e.rx.pieces := by rfl
  measured : Reports e.rx.measured → Reports e'.rx.measured := by exact id
  windowed : e.rx.Windowed → e'.rx.Windowed := by exact fun windowed => windowed.of_eq rfl

/-- Nor does a session, or a call, begin or end. -/
structure Still (e e' : Engine) : Prop extends Kept e e' where
  idle : e'.state = .idle ↔ e.state = .idle := by exact Iff.rfl
  inSession : e'.state.inSession = e.state.inSession := by rfl

/-- Nor is the driver told anything. -/
structure Quiet (e e' : Engine) : Prop extends Still e e' where
  actions : e'.actions = e.actions := by rfl

theorem TxRecord.Reworked.trans {r s t : TxRecord} (first : r.Reworked s) (second : s.Reworked t) :
    r.Reworked t where
  seq := second.seq.trans first.seq
  body := second.body.trans first.body
  acked := second.acked.trans first.acked
  pieces := by
    rcases second.pieces with same | none_ | ⟨capacity, parts, split, is⟩
    · rw [same]
      exact first.pieces
    · exact .inr (.inl none_)
    · rw [first.body] at split
      exact .inr (.inr ⟨capacity, parts, split, is⟩)

theorem reworked_trans {xs ys zs : List TxRecord} (first : List.Forall₂ TxRecord.Reworked xs ys)
    (second : List.Forall₂ TxRecord.Reworked ys zs) : List.Forall₂ TxRecord.Reworked xs zs := by
  induction first generalizing zs with
  | nil => exact second
  | cons here _ ih =>
    cases second with
    | cons there rest => exact .cons (here.trans there) (ih rest)

theorem Kept.trans {e e' e'' : Engine} (first : Kept e e') (second : Kept e' e'') : Kept e e'' where
  session := second.session.trans first.session
  remote := second.remote.trans first.remote
  queue := second.queue.trans first.queue
  txBase := second.txBase.trans first.txBase
  txNext := second.txNext.trans first.txNext
  records := reworked_trans first.records second.records
  rxBase := second.rxBase.trans first.rxBase
  buf := second.buf.trans first.buf
  pieces := second.pieces.trans first.pieces
  measured reports := second.measured (first.measured reports)
  windowed within := second.windowed (first.windowed within)

theorem Still.trans {e e' e'' : Engine} (first : Still e e') (second : Still e' e'') : Still e e'' where
  toKept := first.toKept.trans second.toKept
  idle := second.idle.trans first.idle
  inSession := second.inSession.trans first.inSession

theorem Quiet.inSession_of {e e' : Engine} (quiet : Quiet e e') (up : e.state.inSession = true) :
    e'.state.inSession = true := quiet.inSession.trans up

/-- A step that touches nothing of the streams, whatever else it does. -/
theorem Kept.unseen {e e' : Engine}
    (same : (e'.session, e'.remoteCall, e'.tx.queue, e'.tx.base, e'.tx.next, e'.tx.records, e'.rx.base,
        e'.rx.buf, e'.rx.pieces, e'.rx.measured, e'.rx.maxSeen, e'.rx.harq) =
      (e.session, e.remoteCall, e.tx.queue, e.tx.base, e.tx.next, e.tx.records, e.rx.base,
        e.rx.buf, e.rx.pieces, e.rx.measured, e.rx.maxSeen, e.rx.harq)) : Kept e e' := by
  simp only [Prod.mk.injEq] at same
  obtain ⟨session, remote, queue, base, next, records, rxBase, buf, pieces, measured, maxSeen, harq⟩ := same
  have windowed : e.rx.Windowed → e'.rx.Windowed := fun windowed =>
    windowed.of_eq (by rw [rxBase, buf, pieces, maxSeen, harq])
  exact ⟨session, remote, queue, base, next, records ▸ reworked_refl _, rxBase, buf, pieces, measured ▸ id, windowed⟩

theorem Kept.refl (e : Engine) : Kept e e := .unseen rfl

theorem Still.refl (e : Engine) : Still e e := ⟨.refl e, Iff.rfl, rfl⟩

theorem Quiet.refl (e : Engine) : Quiet e e := ⟨.refl e, rfl⟩

/-- A step that touches nothing of the streams. -/
theorem Quiet.unseen {e e' : Engine}
    (same : (e'.session, e'.remoteCall, e'.state, e'.actions, e'.tx.queue, e'.tx.base, e'.tx.next, e'.tx.records,
        e'.rx.base, e'.rx.buf, e'.rx.pieces, e'.rx.measured, e'.rx.maxSeen, e'.rx.harq) =
      (e.session, e.remoteCall, e.state, e.actions, e.tx.queue, e.tx.base, e.tx.next, e.tx.records,
        e.rx.base, e.rx.buf, e.rx.pieces, e.rx.measured, e.rx.maxSeen, e.rx.harq)) : Quiet e e' := by
  simp only [Prod.mk.injEq] at same
  obtain ⟨session, remote, state, actions, streams⟩ := same
  have kept : Kept e e' := .unseen (by simp only [session, remote, streams])
  exact ⟨⟨kept, state ▸ Iff.rfl, state ▸ rfl⟩, actions⟩

theorem Quiet.trans {e e' e'' : Engine} (first : Quiet e e') (second : Quiet e' e'') : Quiet e e'' where
  toStill := first.toStill.trans second.toStill
  actions := second.actions.trans first.actions

/-- A fold of quiet steps. -/
theorem Quiet.foldl {α : Type*} {f : Engine → α → Engine} (each : ∀ e a, Quiet e (f e a)) (e : Engine)
    (items : List α) : Quiet e (items.foldl f e) := by
  induction items generalizing e with
  | nil => exact .refl e
  | cons a rest ih => exact (each e a).trans (ih _)

/-- A frame of this station's data: a block, a piece of one, or a measurement's. -/
inductive DataOf (tx : Sender) (session : UInt8) (f : TxFrame) : Prop
  | whole {r : TxRecord} {capacity : Nat} (member : r ∈ tx.records)
      (encoded : encodeData ⟨.data, r.seq, session, none⟩ r.body capacity = .ok f.payload)
  | piece {r : TxRecord} {parts : List (Piece × Bytes)} {p : Piece × Bytes} {capacity : Nat}
      (member : r ∈ tx.records) (split : r.pieces = some parts) (part : p ∈ parts)
      (encoded : encodeData ⟨.data, r.seq, session, some p.1⟩ p.2 capacity = .ok f.payload)
  | measurement {index : UInt8} {body : Bytes} {capacity : Nat}
      (encoded : encodeData ⟨.measure, index, session, none⟩ body capacity = .ok f.payload)

/-- A frame this station may hand over, and what of its streams it says. -/
inductive FrameOf (e : Engine) (f : TxFrame) : Prop
  | data (container : f.container = .data) (up : e.state.inSession = true)
      (data : DataOf e.tx e.session f)
  | opening {kind : DataKind} {session : UInt8} {body : Bytes} {capacity : Nat}
      (container : f.container = .data) (kinds : kind ≠ .data ∧ kind ≠ .measure)
      (encoded : encodeData ⟨kind, 0, session, none⟩ body capacity = .ok f.payload)
  | acknowledging {ctl : GrantFrame} (container : f.container = .control)
      (payload : f.payload = ctl.encode) (base : ctl.base = e.rx.base)
      (bitmap : ctl.bitmap = e.rx.measured.getD e.rx.receiveWindow.1)
  | closing {ctl : GrantFrame} (container : f.container = .control)
      (payload : f.payload = ctl.encode) (kind : ctl.kind = .disc ∨ ctl.kind = .discAck)

theorem FrameOf.of_eq {e e' : Engine} {f : TxFrame} (of : FrameOf e f) (tx : e'.tx = e.tx)
    (rx : e'.rx = e.rx) (session : e'.session = e.session) (state : e'.state = e.state) : FrameOf e' f := by
  cases of with
  | data container up data => exact .data container (by rw [state, up]) (by rwa [tx, session])
  | opening container kinds encoded => exact .opening container kinds encoded
  | acknowledging container payload base bitmap =>
    exact .acknowledging container payload (by rw [rx, base]) (by rw [rx, bitmap])
  | closing container payload kind => exact .closing container payload kind

theorem inSession_busy {state : State} (up : state.inSession = true) : state ≠ .idle := by
  rintro rfl
  cases up

/-- Both streams are at their start: nothing cut, nothing heard. -/
structure Engine.Blank (e : Engine) : Prop where
  records : e.tx.records = [] := by rfl
  txBase : e.tx.base = 0 := by rfl
  txNext : e.tx.next = 0 := by rfl
  rxBase : e.rx.base = 0 := by rfl
  buf : e.rx.buf = [] := by rfl
  pieces : e.rx.pieces = [] := by rfl
  measured : Reports e.rx.measured := by exact fun _ none_ => by cases none_

theorem Engine.blank_fresh {e : Engine} (fresh : (e.tx.records, e.tx.base, e.tx.next, e.rx.base, e.rx.buf, e.rx.pieces,
    e.rx.measured) = ([], 0, 0, 0, [], [], none)) : e.Blank := by
  simp only [Prod.mk.injEq] at fresh
  obtain ⟨records, base, next, rxBase, buf, pieces, measured⟩ := fresh
  exact ⟨records, base, next, rxBase, buf, pieces, fun _ some_ => by rw [measured] at some_; cases some_⟩

theorem Kept.blank {e e' : Engine} (kept : Kept e e') (blank : e.Blank) : e'.Blank where
  records := List.forall₂_nil_left_iff.mp (blank.records ▸ kept.records)
  txBase := kept.txBase.trans blank.txBase
  txNext := kept.txNext.trans blank.txNext
  rxBase := kept.rxBase.trans blank.rxBase
  buf := kept.buf.trans blank.buf
  pieces := kept.pieces.trans blank.pieces
  measured := kept.measured blank.measured

/-- A session begins or ends. -/
def Event.turns : Event → Bool
  | .connected .. | .disconnected _ => true
  | _ => false

/-- What a call of the engine's brings it. -/
structure Brought where
  bytes : Bytes → Prop := fun _ => False
  data : Bytes → Prop := fun _ => False
  control : GrantFrame → Prop := fun _ => False
  /-- The station being called, and the caller whose call is accepted instead. -/
  caller : Text → Text → Prop := fun _ _ => False

variable (b : Brought)

inductive Micro : Engine → Engine → Prop
  | quiet {e e' : Engine} (quiet : Quiet e e') : Micro e e'
  | tell {e e' : Engine} (still : Still e e') (event : Event)
      (other : event.turns = false)
      (actions : e'.actions = e.actions ++ [.event event]) : Micro e e'
  | transmit {e e' : Engine} (still : Still e e') (t : Transmit)
      (frames : ∀ f ∈ t.frames, FrameOf e f)
      (actions : e'.actions = e.actions ++ [.transmit t]) : Micro e e'
  /-- Bytes given to be sent. -/
  | give {e : Engine} (data : Bytes) (given : b.bytes data) :
      Micro e { e with tx := { e.tx with queue := e.tx.queue ++ data } }
  | cut {e : Engine} (rung take : Nat) (room : seqDistance e.tx.next e.tx.base < window)
      (session : e.state.inSession = true) : Micro e { e with tx := e.tx.cut rung take }
  | ack {e : Engine} (ctl : GrantFrame) (told : b.control ctl) (session : e.state.inSession = true)
      (kind : ctl.kind = .header ∨ ctl.kind = .answer) : Micro e (e.applyAck ctl)
  | accept {e : Engine} (payload : Bytes) (header : DataHeader) (body : Bytes) (late : Bool)
      (heard : b.data payload) (read : decodeData payload = .ok (header, body))
      (ours : header.session = e.session) (kind : header.kind = .data)
      (session : e.state.inSession = true) : Micro e (e.acceptData header body late)
  /-- A session, or a call, is over, and its bytes with it. -/
  | leave {e e' : Engine} (reason : Reason) (idle : e'.state = .idle)
      (remote : e'.remoteCall = e.remoteCall)
      (queue : e'.tx.queue = []) (blank : e'.Blank) (windowed : e'.rx.Windowed)
      (actions : e'.actions = e.actions ++ [.event (.disconnected reason)]) : Micro e e'
  /-- A call goes out, with the bytes waiting for one. -/
  | call {e e' : Engine} (idle : e.state = .idle) (calling : e'.state = .connecting)
      (queue : e'.tx.queue = e.tx.queue) (blank : e'.Blank) (windowed : e'.rx.Windowed)
      (actions : e'.actions = e.actions) : Micro e e'
  /-- A call of this station's is accepted. -/
  | up {e e' : Engine} (kept : Kept e e') (calling : e.state = .connecting)
      (up : e'.state.inSession = true) (role : Role)
      (actions : e'.actions = e.actions ++ [.event (.connected e'.remoteCall role)]) : Micro e e'
  /-- Another station's call is accepted. -/
  | called {e e' : Engine} (outside : e.state.inSession = false)
      (while_ : e.state = .connecting → b.caller e.remoteCall e'.remoteCall) (up : e'.state.inSession = true)
      (queue : e'.tx.queue = e.tx.queue) (blank : e'.Blank) (windowed : e'.rx.Windowed) (role : Role)
      (actions : e'.actions = e.actions ++ [.event (.connected e'.remoteCall role)]) : Micro e e'

/-- A run of such steps. -/
abbrev Moves : Engine → Engine → Prop := Relation.ReflTransGen (Micro b)

variable {b}

theorem Quiet.moves {e e' : Engine} (quiet : Quiet e e') : Moves b e e' := .single (.quiet quiet)

theorem Moves.tell {e e' : Engine} (still : Still e e') (event : Event) (other : event.turns = false)
    (actions : e'.actions = e.actions ++ [.event event]) : Moves b e e' :=
  .single (.tell still event other actions)

/-- Nothing of the other station's heard. -/
def Brought.mute (b : Brought) : Brought := { b with data := fun _ => False, control := fun _ => False }

theorem Micro.louder {e e' : Engine} (step : Micro b.mute e e') : Micro b e e' := by
  cases step with
  | quiet quiet => exact .quiet quiet
  | tell still event other actions => exact .tell still event other actions
  | transmit still t frames actions => exact .transmit still t frames actions
  | give data given => exact .give data given
  | cut rung take room session => exact .cut rung take room session
  | ack _ told => exact told.elim
  | accept _ _ _ _ heard => exact heard.elim
  | leave reason idle remote queue blank windowed actions =>
    exact .leave reason idle remote queue blank windowed actions
  | call idle calling queue blank windowed actions => exact .call idle calling queue blank windowed actions
  | up kept calling up role actions => exact .up kept calling up role actions
  | called outside while_ up queue blank windowed role actions =>
    exact .called outside while_ up queue blank windowed role actions

/-- A run of the steps in which the other station is heard at most once. -/
inductive Once (b : Brought) (e e' : Engine) : Prop
  | unheard (moves : Moves b.mute e e')
  | hears {e₁ e₂ : Engine} (before : Moves b.mute e e₁) (step : Micro b e₁ e₂)
      (after : Moves b.mute e₂ e')

namespace Once

variable {e e₁ e' : Engine}

theorem step (step : Micro b e e') : Once b e e' := .hears .refl step .refl

theorem before (moves : Moves b.mute e e₁) (once : Once b e₁ e') : Once b e e' := by
  cases once with
  | unheard later => exact .unheard (moves.trans later)
  | hears earlier step later => exact .hears (moves.trans earlier) step later

theorem after (once : Once b e e₁) (moves : Moves b.mute e₁ e') : Once b e e' := by
  cases once with
  | unheard earlier => exact .unheard (earlier.trans moves)
  | hears earlier step later => exact .hears earlier step (later.trans moves)

end Once

theorem Moves.once {e e' : Engine} (moves : Moves b.mute e e') : Once b e e' := .unheard moves

theorem Once.refl (e : Engine) : Once b e e := .unheard .refl

theorem Once.moves {e e' : Engine} (once : Once b e e') : Moves b e e' := by
  have louder {e e' : Engine} (moves : Moves b.mute e e') : Moves b e e' :=
    Relation.ReflTransGen.mono (fun _ _ step => step.louder) _ _ moves
  cases once with
  | unheard moves => exact louder moves
  | hears before step after => exact ((louder before).tail step).trans (louder after)

namespace Engine

variable (e : Engine)

/-! ### Acknowledgements and deliveries -/

theorem release_queue (turns : Nat) (tx : Sender) : (tx.release turns).queue = tx.queue := by
  induction turns generalizing tx with
  | zero => rfl
  | succ turns ih =>
    unfold Sender.release
    split
    · exact ih _
    · rfl

theorem release_records (turns : Nat) (tx : Sender) : (tx.release turns).records ⊆ tx.records := by
  induction turns generalizing tx with
  | zero => exact List.Subset.refl _
  | succ turns ih =>
    unfold Sender.release
    split
    · exact fun r member => List.mem_of_mem_filter (ih _ member)
    · exact List.Subset.refl _

theorem applyAck_queue (ctl : GrantFrame) : (e.applyAck ctl).tx.queue = e.tx.queue :=
  release_queue _ _

theorem applyAck_records {ctl : GrantFrame} {r : TxRecord} (member : r ∈ (e.applyAck ctl).tx.records) :
    ∃ q ∈ e.tx.records, r.body = q.body ∧ r.pieces = q.pieces := by
  obtain ⟨q, inside, rfl⟩ := List.mem_map.mp (release_records _ _ member)
  exact ⟨q, inside, rfl, rfl⟩

/-- The other station's data touches nothing of this station's, and tells the driver
only of what it delivers. -/
structure Delivers (e e' : Engine) (ready : List Bytes) : Prop where
  tx : e'.tx = e.tx := by rfl
  state : e'.state = e.state := by rfl
  remote : e'.remoteCall = e.remoteCall := by rfl
  session : e'.session = e.session := by rfl
  actions : e'.actions = e.actions ++ ready.map .deliver := by rfl

theorem acceptData_delivers (header : DataHeader) (body : Bytes) (late : Bool) :
    ∃ ready, Delivers e (e.acceptData header body late) ready := by
  unfold acceptData
  extract_lets e' rx rx'
  split
  · exact ⟨_, rfl, rfl, rfl, rfl, rfl⟩
  · exact ⟨[], rfl, rfl, rfl, rfl, (List.append_nil _).symm⟩

/-! ### This station's data -/


section

variable [Libm]

theorem splitStranded_quiet (r : TxRecord) (asked : Option Nat) (due : Nat) (spent stuck : Bool)
    (found : e.tx.record? r.seq = some r) : Quiet e (e.splitStranded r asked due spent stuck) := by
  unfold splitStranded
  split
  · exact .refl e
  · split
    · exact .refl e
    · split
      · exact .refl e
      · dsimp only
        split
        · exact .unseen rfl
        · rename_i parts split
          refine { records := modify_reworked fun q first => ?_ }
          cases found.symm.trans first
          exact ⟨rfl, rfl, rfl, .inr (.inr ⟨_, parts, split, rfl⟩)⟩

theorem restrand_quiet (chosen : Nat) (asked : Option Nat) (s : UInt8) :
    Quiet e (e.restrand chosen asked s) := by
  unfold restrand
  split
  · exact .refl e
  · rename_i r found
    have key : r.seq = s := by simpa using List.find?_some found
    subst key
    extract_lets due spent stuck
    split
    · split
      · exact { records := modify_reworked fun q _ => q.reencode_reworked _ }
      · exact e.splitStranded_quiet r _ _ _ _ found
    · exact .refl e

theorem restrandAll_quiet (chosen : Nat) (asked : Option Nat) (seqs : List UInt8) :
    Quiet e (e.restrandAll chosen asked seqs) :=
  .foldl (fun e s => e.restrand_quiet chosen asked s) e seqs

end

theorem cutNew_moves (mode room turns : Nat) (probe : Option Nat) (seqs : List UInt8)
    (session : e.state.inSession = true) : Moves b e (cutNew mode room turns probe seqs e).2 := by
  induction turns generalizing e probe seqs with
  | zero => exact .refl
  | succ turns ih =>
    unfold cutNew
    split
    · rename_i room_
      exact .head (.cut _ _ room_.2.1 session) (ih _ _ _ session)
    · exact .refl

theorem fill_moves (fresh : Bool) (mode room : Nat) (probe : Option Nat) (seqs : List UInt8)
    (session : e.state.inSession = true) : Moves b e (e.fill fresh mode room probe seqs).2 := by
  unfold fill
  split
  · exact e.cutNew_moves mode room room probe seqs session
  · exact .refl

theorem cutNew_state (mode room turns : Nat) (probe : Option Nat) (seqs : List UInt8) :
    (cutNew mode room turns probe seqs e).2.state = e.state := by
  induction turns generalizing e probe seqs with
  | zero => rfl
  | succ turns ih =>
    unfold cutNew
    split
    · exact ih { e with tx := e.tx.cut _ _ } _ _
    · rfl

theorem fill_state (fresh : Bool) (mode room : Nat) (probe : Option Nat) (seqs : List UInt8) :
    (e.fill fresh mode room probe seqs).2.state = e.state := by
  unfold fill
  split
  · exact e.cutNew_state mode room room probe seqs
  · rfl

/-! ### The frames of a transmission -/

/-- Frames of the sender's blocks, whole. -/
def WholeOf (e : Engine) (f : TxFrame) : Prop :=
  f.container = .data ∧ ∃ r ∈ e.tx.records, ∃ capacity,
    encodeData ⟨.data, r.seq, e.session, none⟩ r.body capacity = .ok f.payload

theorem WholeOf.reworked {e e' : Engine} {f : TxFrame} (whole : WholeOf e f)
    (records : List.Forall₂ TxRecord.Reworked e.tx.records e'.tx.records)
    (session : e'.session = e.session) : WholeOf e' f := by
  obtain ⟨container, r, member, capacity, encoded⟩ := whole
  obtain ⟨r', member', again⟩ := forall₂_mem records member
  refine ⟨container, r', member', capacity, ?_⟩
  rw [again.seq, again.body, session]
  exact encoded

/-- What laying copies keeps: the blocks, and every frame laid a whole one of them. -/
structure Laid (start : Engine) (laid : List TxFrame × Engine) : Prop where
  quiet : Quiet start laid.2
  whole : ∀ f ∈ laid.1, WholeOf laid.2 f

theorem Laid.step {start : Engine} {laid : List TxFrame × Engine} (l : Laid start laid) {e' : Engine}
    (quiet : Quiet laid.2 e') : Laid start (laid.1, e') :=
  ⟨l.quiet.trans quiet, fun f member => (l.whole f member).reworked quiet.records quiet.session⟩

theorem layCopy_laid {start : Engine} {laid : List TxFrame × Engine} (l : Laid start laid) (count : Nat)
    (place : UInt8 × Nat) : Laid start (layCopy count laid place) := by
  obtain ⟨frames, e⟩ := laid
  obtain ⟨s, i⟩ := place
  rw [layCopy]
  split
  · exact l
  · rename_i r found
    have again : List.Forall₂ TxRecord.Reworked e.tx.records (e.countCopy r).tx.records :=
      modify_reworked fun q _ => ⟨rfl, rfl, rfl, .inl rfl⟩
    split
    · exact l.step { records := again }
    · rename_i payload encoded
      have next := l.step ({ records := again } : Quiet e ((e.countCopy r).chargeCopy r))
      refine ⟨next.quiet, ?_⟩
      intro f member
      rcases List.mem_append.mp member with old | new
      · exact next.whole f old
      · cases List.mem_singleton.mp new
        have whole : WholeOf e (dataFrame payload r.mode
            (rvSequence.getD (r.txCount % rvSequence.length) 0) (min (count - 1 - i) maxFollows)) :=
          ⟨rfl, r, record?_mem found, _, encoded⟩
        exact whole.reworked again rfl

theorem foldl_layCopy_laid {start : Engine} {laid : List TxFrame × Engine} (l : Laid start laid)
    (count : Nat) (places : List (UInt8 × Nat)) :
    Laid start (places.foldl (layCopy count) laid) := by
  induction places generalizing laid with
  | nil => exact l
  | cons place rest ih => exact ih (layCopy_laid l count place)

theorem layCopies_laid (seqs : List UInt8) : Laid e (e.layCopies seqs) := by
  have none_ : Laid e ([], e) := ⟨.refl e, List.forall_mem_nil _⟩
  have l := foldl_layCopy_laid none_ seqs.length seqs.zipIdx
  unfold layCopies
  exact l.step (.unseen (by rfl))

theorem choosePieces_quiet (room : Nat) (seqs : List UInt8) (chosen : List (UInt8 × Nat)) :
    Quiet e (choosePieces room seqs chosen e).2 := by
  induction seqs generalizing chosen e with
  | nil => exact .refl e
  | cons s rest ih =>
    unfold choosePieces
    split
    · exact ih e chosen
    · split
      · exact ih e chosen
      · extract_lets take resent
        split
        · exact .refl e
        · refine Quiet.trans ?_ (ih _ _)
          exact { records := modify_reworked fun q _ => ⟨rfl, rfl, rfl, .inl rfl⟩ }

/-- What a transmission's data is: the sender's blocks and measurements, nothing else. -/
structure Sends (b : Brought) (start : Engine) (sent : List TxFrame × Engine) : Prop where
  moves : Moves b start sent.2
  up : sent.2.state.inSession = start.state.inSession
  frames : ∀ f ∈ sent.1, f.container = .data ∧ DataOf sent.2.tx sent.2.session f

theorem Laid.sends {start : Engine} {laid : List TxFrame × Engine} (l : Laid start laid) :
    Sends b start laid where
  moves := l.quiet.moves
  up := l.quiet.inSession
  frames f member := by
    obtain ⟨container, r, inside, capacity, encoded⟩ := l.whole f member
    exact ⟨container, .whole inside encoded⟩

theorem Sends.after {start e : Engine} {sent : List TxFrame × Engine} (s : Sends b e sent)
    (before : Moves b start e) (up : e.state.inSession = start.state.inSession) : Sends b start sent :=
  ⟨before.trans s.moves, s.up.trans up, s.frames⟩

theorem Sends.none (e : Engine) : Sends b e ([], e) := ⟨.refl, rfl, List.forall_mem_nil _⟩

theorem layPiece_dataOf {count : Nat} {place : (UInt8 × Nat) × Nat} {f : TxFrame}
    (laid : e.layPiece count place = some f) :
    f.container = .data ∧ DataOf e.tx e.session f := by
  unfold layPiece at laid
  simp only [Option.bind_eq_bind, Option.bind_eq_some_iff] at laid
  obtain ⟨r, found, ⟨p, bytes⟩, ⟨parts, split, part⟩, laid⟩ := laid
  split at laid
  · cases laid
  · rename_i payload encoded
    cases laid
    exact ⟨rfl, .piece (record?_mem found) split (List.mem_of_getElem? part) encoded⟩

theorem pieceFrames_sends (seqs : List UInt8) (room : Nat) : Sends b e (e.pieceFrames seqs room) := by
  have quiet := e.choosePieces_quiet room seqs []
  unfold pieceFrames
  generalize choosePieces room seqs [] e = laid at quiet ⊢
  obtain ⟨chosen, e'⟩ := laid
  refine ⟨(quiet.trans (.unseen (by rfl))).moves, quiet.inSession, ?_⟩
  intro f member
  obtain ⟨place, _, laid⟩ := List.mem_filterMap.mp member
  exact e'.layPiece_dataOf laid

theorem measureFrame_dataOf {mode count i : Nat} {f : TxFrame}
    (laid : e.measureFrame mode count i = some f) (tx : Sender) :
    f.container = .data ∧ DataOf tx e.session f := by
  unfold measureFrame at laid
  dsimp only at laid
  split at laid
  · cases laid
  · rename_i payload encoded
    cases laid
    exact ⟨rfl, .measurement encoded⟩

theorem measurement_sends (roomS : Option ℚ) : Sends b e (e.measurement roomS) := by
  unfold measurement
  split
  · exact .none e
  · extract_lets mode frame count
    split
    · exact .none e
    · refine ⟨Quiet.moves (.unseen (by rfl)), rfl, ?_⟩
      intro f member
      obtain ⟨i, _, laid⟩ := List.mem_filterMap.mp member
      exact e.measureFrame_dataOf laid e.tx

theorem familyFrames_sends (mode : Nat) (probe : Option Nat) (across : Bool) (unacked : List UInt8)
    (roomS : Option ℚ) (session : e.state.inSession = true) :
    Sends b e (e.familyFrames mode probe across unacked roomS) := by
  unfold familyFrames
  extract_lets floorOf family seqs room split fresh
  split
  · exact .none e
  · split
    · exact e.pieceFrames_sends split room
    · exact (Engine.layCopies_laid _ _).sends.after (e.fill_moves _ _ _ _ _ session) 
        (congrArg State.inSession (e.fill_state fresh mode room probe (seqs.take room)))

theorem dataFrames_sends [Libm] (roomS : Option ℚ) (session : e.state.inSession = true) :
    Sends b e (e.dataFrames roomS) := by
  unfold dataFrames
  split
  · exact .none e
  · split
    · exact e.measurement_sends roomS
    · extract_lets unacked e'
      have quiet := e.restrandAll_quiet e.burstMode e.tx.answeredRung unacked
      exact (e'.familyFrames_sends _ _ _ _ _ (quiet.inSession_of session)).after quiet.moves
        quiet.inSession

end Engine

end AetherHF.Link

import AetherHF.Link.Granted.Addressed
import AetherHF.Link.Granted.Ends

/-! The receiver's window over whole runs: its buffers stay in it, and what an
acknowledgement says of it is held. -/
namespace AetherHF.Link

namespace Receiver

variable {rx rx' : Receiver}

/-! ### What is held -/

/-- The blocks the receiver holds: those before the next to deliver, and those waiting
for their turn. -/
def Holds (rx : Receiver) (s : UInt8) : Prop := seqDistance s rx.base ≥ seqMod / 2 ∨ rx.buf.contains s = true

theorem Holds.of_eq {s : UInt8} (holds : rx.Holds s) (base : rx'.base = rx.base) (buf : rx'.buf = rx.buf) :
    rx'.Holds s := by
  rw [Holds, base, buf]
  exact holds

/-- A block let go was held. -/
theorem letGo_holds {data : Bytes} (found : rx.buf.get? rx.base = some data) {s : UInt8}
    {harq : Keyed UInt8 (HarqBuffer × Nat × Nat)} {pieces : Keyed UInt8 Pieces}
    (holds : { rx with buf := rx.buf.erase rx.base, harq, pieces, base := seqAfter rx.base 1 }.Holds s) :
    rx.Holds s := by
  by_cases first : s = rx.base
  · subst first
    exact .inr (Keyed.contains_eq_true.mpr ⟨data, found⟩)
  · rcases holds with behind | kept
    · refine .inl ?_
      change seqDistance s (seqAfter rx.base 1) ≥ _ at behind
      rw [seqDistance_next first] at behind
      omega
    · exact .inr ((Keyed.contains_erase _ _ _).mp kept).2

theorem deliverReady_holds (turns : Nat) {s : UInt8} (holds : (deliverReady turns rx).2.Holds s) :
    rx.Holds s := by
  induction turns generalizing rx with
  | zero => exact holds
  | succ turns ih =>
    unfold deliverReady at holds
    split at holds
    · exact holds
    · rename_i found
      exact letGo_holds found (ih holds)

theorem keepWhole_holds {seq s : UInt8} (block : Option Bytes) (holds : (rx.keepWhole seq block).Holds s) :
    rx.Holds s ∨ s = seq := by
  cases block with
  | none => exact .inl holds
  | some block =>
    rcases holds with behind | kept
    · exact .inl (.inl behind)
    · unfold keepWhole keepBlock at kept
      dsimp only at kept
      split at kept
      · exact .inl (.inr kept)
      · exact ((Keyed.contains_insert _ _ _ _).mp kept).symm.imp_left .inr

theorem blockOf_stays (header : DataHeader) (body : Bytes) : (rx.blockOf header body).2.base = rx.base ∧
    (rx.blockOf header body).2.buf = rx.buf ∧ (rx.blockOf header body).2.measured = rx.measured := by
  unfold blockOf
  split
  · exact ⟨rfl, rfl, rfl⟩
  · split
    · exact ⟨rfl, rfl, rfl⟩
    · exact ⟨rfl, rfl, rfl⟩

theorem forgetSeen_stays : rx.forgetSeen.base = rx.base ∧ rx.forgetSeen.buf = rx.buf ∧
    rx.forgetSeen.measured = rx.measured := by
  unfold forgetSeen
  split
  · exact ⟨rfl, rfl, rfl⟩
  · exact ⟨rfl, rfl, rfl⟩

theorem piecesHeard_stays : rx.piecesHeard.base = rx.base ∧ rx.piecesHeard.buf = rx.buf ∧
    rx.piecesHeard.measured = rx.measured := by
  unfold piecesHeard
  split
  · exact ⟨rfl, rfl, rfl⟩
  · exact ⟨rfl, rfl, rfl⟩

/-- A frame read adds its own block to what is held, and no other. -/
theorem takeBlock_holds {header : DataHeader} {body : Bytes} {s : UInt8}
    (holds : (rx.takeBlock header body).2.Holds s) : rx.Holds s ∨ s = header.seq := by
  obtain ⟨base, buf, _⟩ := rx.seeing_stays header.seq
  obtain ⟨base', buf', _⟩ := (rx.seeing header.seq).blockOf_stays header body
  rw [takeBlock_snd] at holds
  have let_ := deliverReady_holds _ (holds.of_eq (forgetSeen_stays.1.symm) (forgetSeen_stays.2.1.symm))
  refine (keepWhole_holds _ let_).imp_left fun held => ?_
  exact held.of_eq (base'.trans base).symm (buf'.trans buf).symm

/-! ### A report of a measurement -/

theorem deliverReady_measured (turns : Nat) : (deliverReady turns rx).2.measured = rx.measured := by
  induction turns generalizing rx with
  | zero => rfl
  | succ turns ih =>
    unfold deliverReady
    split
    · rfl
    · exact ih

theorem keepWhole_measured (seq : UInt8) (block : Option Bytes) :
    (rx.keepWhole seq block).measured = rx.measured := by
  cases block with
  | none => rfl
  | some block => rfl

theorem seeing_measured (seq : UInt8) : (rx.seeing seq).measured = rx.measured := by
  unfold seeing
  split
  · rfl
  · rfl

theorem takeBlock_measured (header : DataHeader) (body : Bytes) :
    (rx.takeBlock header body).2.measured = rx.measured := by
  rw [takeBlock_snd, forgetSeen_stays.2.2, deliverReady_measured, holding, keepWhole_measured,
    (blockOf_stays _ _).2.2]
  exact rx.seeing_measured _

end Receiver

/-! ### Whole runs -/

/-- What holds of the receiver in every run. -/
structure Engine.Receives (e : Engine) : Prop where
  windowed : e.rx.Windowed
  measured : Reports e.rx.measured

variable {b : Brought} {e e' : Engine}

theorem Engine.acceptData_measured (e : Engine) (header : DataHeader) (body : Bytes) (late : Bool) :
    (e.acceptData header body late).rx.measured = if late then e.rx.measured else none := by
  unfold Engine.acceptData
  extract_lets e₁ rx rx'
  have read : rx.measured = if late then e.rx.measured else none := by
    unfold rx
    split
    · rfl
    · rfl
  have placed : rx'.measured = rx.measured := by
    unfold rx'
    split
    · exact Receiver.piecesHeard_stays.2.2
    · rfl
  split
  · exact (Receiver.takeBlock_measured _ _).trans (placed.trans read)
  · exact placed.trans read

theorem Engine.Receives.acceptData (receives : e.Receives) (header : DataHeader) (body : Bytes) (late : Bool) :
    (e.acceptData header body late).Receives where
  windowed := Engine.acceptData_windowed receives.windowed header body late
  measured := by
    rw [e.acceptData_measured]
    split
    · exact receives.measured
    · exact fun _ none_ => by cases none_

theorem Engine.Receives.micro (receives : e.Receives) (step : Micro b e e') : e'.Receives := by
  have kept {e e' : Engine} (receives : e.Receives) (kept : Kept e e') : e'.Receives :=
    ⟨kept.windowed receives.windowed, kept.measured receives.measured⟩
  cases step with
  | quiet quiet => exact kept receives quiet.toKept
  | tell still => exact kept receives still.toKept
  | transmit still => exact kept receives still.toKept
  | give => exact ⟨receives.windowed, receives.measured⟩
  | cut => exact ⟨receives.windowed, receives.measured⟩
  | ack => exact ⟨receives.windowed, receives.measured⟩
  | accept _ header body late => exact receives.acceptData header body late
  | leave _ _ _ _ blank windowed => exact ⟨windowed, blank.measured⟩
  | call _ _ _ blank windowed => exact ⟨windowed, blank.measured⟩
  | up moved => exact kept receives moved
  | called _ _ _ _ blank windowed => exact ⟨windowed, blank.measured⟩

theorem Engine.Receives.moves (receives : e.Receives) (moves : Moves b e e') : e'.Receives := by
  induction moves with
  | refl => exact receives
  | tail _ step ih => exact ih.micro step

theorem Engine.Receives.handle [Libm] (receives : e.Receives) (input : Input) : (e.handle input).Receives := by
  by_cases drained : input = .drain
  · subst drained
    exact ⟨receives.windowed, receives.measured⟩
  · exact receives.moves (e.handle_moves input drained)

theorem Engine.Receives.run [Libm] (receives : e.Receives) (inputs : List Input) : (e.run inputs).Receives := by
  induction inputs generalizing e with
  | nil => exact receives
  | cons input rest ih => exact ih (receives.handle input)

theorem Engine.Reachable.receives [Libm] (reachable : e.Reachable) : e.Receives := by
  obtain ⟨myCall, timing, config, seed, inputs, rfl⟩ := reachable
  exact Engine.Receives.run ⟨Receiver.windowed_empty, fun _ none_ => by cases none_⟩ inputs

/-! ### What an acknowledgement claims -/

/-- An acknowledgement keyed by this station now. -/
def Engine.Acks (e : Engine) (ctl : GrantFrame) : Prop := (ctl.base, ctl.bitmap) = e.ackFields.1

/-- A plain one's bitmap marks no report. -/
theorem Engine.Receives.plain (receives : e.Receives) (none_ : e.rx.measured = none) {ctl : GrantFrame}
    (acks : e.Acks ctl) : ctl.reports = false := by
  have bitmap : ctl.bitmap = e.rx.receiveWindow.1 := by
    have same := congrArg Prod.snd acks
    change ctl.bitmap = e.rx.measured.getD e.rx.receiveWindow.1 at same
    rwa [none_, Option.getD_none] at same
  have clear : e.rx.receiveWindow.1.toNat.testBit 0 = false := by
    by_contra set
    have held := receiveWindow_bit (Bool.not_eq_false _ |>.mp set)
    rw [show seqAfter e.rx.base (UInt8.ofNat 0) = e.rx.base from UInt8.add_zero _, receives.windowed.base] at held
    cases held
  rw [GrantFrame.reports, decide_eq_false_iff_not, not_not, bitmap]
  apply UInt16.toNat_inj.mp
  rw [UInt16.toNat_and, show report.toNat = 1 from rfl, Nat.and_one_is_mod]
  rw [Nat.testBit_zero, decide_eq_false_iff_not] at clear
  exact Nat.mod_two_ne_one.mp clear

/-- While a report is owed it is one, and claims only what is before the base. -/
theorem Engine.Receives.report (receives : e.Receives) (owed : e.rx.measured.isSome = true) {ctl : GrantFrame}
    (acks : e.Acks ctl) {s : UInt8} (claimed : ctl.received s = true) :
    seqDistance s e.rx.base ≥ seqMod / 2 := by
  obtain ⟨word, is⟩ := Option.isSome_iff_exists.mp owed
  have base : ctl.base = e.rx.base := congrArg Prod.fst acks
  have bitmap : ctl.bitmap = word := by
    have same := congrArg Prod.snd acks
    change ctl.bitmap = e.rx.measured.getD e.rx.receiveWindow.1 at same
    rwa [is, Option.getD_some] at same
  have marked : ctl.reports = true := by
    rw [GrantFrame.reports, bitmap]
    exact decide_eq_true (receives.measured word is)
  unfold GrantFrame.received at claimed
  rw [base] at claimed
  dsimp only at claimed
  split at claimed
  · exact of_decide_eq_true claimed
  · rw [marked] at claimed
    cases claimed

/-- What an acknowledgement claims is held. -/
theorem Engine.Receives.claims (receives : e.Receives) {ctl : GrantFrame} (acks : e.Acks ctl) {s : UInt8}
    (claimed : ctl.received s = true) : e.rx.Holds s := by
  cases owed : e.rx.measured with
  | some word => exact .inl (receives.report (by rw [owed]; rfl) acks claimed)
  | none =>
    have base : ctl.base = e.rx.base := congrArg Prod.fst acks
    have bitmap : ctl.bitmap = e.rx.receiveWindow.1 := by
      have same := congrArg Prod.snd acks
      change ctl.bitmap = e.rx.measured.getD e.rx.receiveWindow.1 at same
      rwa [owed, Option.getD_none] at same
    unfold GrantFrame.received at claimed
    rw [base] at claimed
    dsimp only at claimed
    split at claimed
    · exact .inl (of_decide_eq_true claimed)
    · have held := receiveWindow_bit (bitmap ▸ (Bool.and_eq_true_iff.mp claimed).2)
      rw [seqDistance, UInt8.ofNat_toNat, seqAfter, UInt8.add_comm, UInt8.sub_add_cancel] at held
      exact .inr held

/-- A frame that decodes is the block numbered `s`, or a piece of it. -/
def SoftFrame.Brings (soft : SoftFrame) (s : UInt8) : Prop :=
  ∃ payload header body, (soft.decode none).1 = some payload ∧ decodeData payload = .ok (header, body) ∧
    s = header.seq

theorem Engine.acceptData_holds (e : Engine) {header : DataHeader} {body : Bytes} {late : Bool} {s : UInt8} :
    (e.acceptData header body late).rx.Holds s → e.rx.Holds s ∨ s = header.seq := by
  unfold Engine.acceptData
  extract_lets e₁ rx rx'
  have read : rx.base = e.rx.base ∧ rx.buf = e.rx.buf := by
    unfold rx
    split
    · exact ⟨rfl, rfl⟩
    · exact ⟨rfl, rfl⟩
  have placed : rx'.base = rx.base ∧ rx'.buf = rx.buf := by
    unfold rx'
    split
    · exact ⟨Receiver.piecesHeard_stays.1, Receiver.piecesHeard_stays.2.1⟩
    · exact ⟨rfl, rfl⟩
  have before {s : UInt8} (holds : rx'.Holds s) : e.rx.Holds s :=
    holds.of_eq (placed.1.trans read.1).symm (placed.2.trans read.2).symm
  split
  · exact fun holds => (Receiver.takeBlock_holds holds).imp_left before
  · exact fun holds => .inl (before holds)

/-- A frame of a transmission already over adds its own block to what is held, and
leaves the report there was. -/
theorem Engine.acceptLate_holds {soft : SoftFrame} {decoded : Bool} {s : UInt8}
    (holds : (e.acceptLate soft decoded).rx.Holds s) : e.rx.Holds s ∨ soft.Brings s := by
  unfold Engine.acceptLate at holds
  split at holds
  · split at holds
    · rename_i payload heard
      unfold Engine.accept at holds
      split at holds
      · exact .inl holds
      · rename_i header body read
        split_ifs at holds with other measures late kind
        · exact .inl holds
        · exact .inl holds
        · exact absurd rfl late
        · exact .inl holds
        · exact (e.acceptData_holds holds).imp_right fun same => ⟨payload, header, body, heard, read, same⟩
    · exact .inl holds
  · exact .inl holds

/-- The receiver's buffers between any two calls. -/
structure Engine.Buffered (e : Engine) : Prop where
  buf : ∀ s, e.rx.buf.contains s = true → inWindow s e.rx.base window = true
  harq : ∀ s, e.rx.harq.contains s = true → inWindow s e.rx.base window = true
  pieces : ∀ s, e.rx.pieces.contains s = true → inWindow s e.rx.base window = true
  base : e.rx.buf.contains e.rx.base = false
  plain : e.rx.measured = none → ∀ ctl, e.Acks ctl → ctl.reports = false
  seen : ∀ seen, e.rx.maxSeen = some seen → inWindow seen e.rx.base window = true ∧
    ∀ s, e.rx.buf.contains s = true → seqDistance s e.rx.base ≤ seqDistance seen e.rx.base
  apart : ∀ s, e.rx.buf.contains s = true → e.rx.pieces.contains s = false
  late : e.rx.measured.isSome = true → ∀ soft decoded ctl s, (e.acceptLate soft decoded).Acks ctl →
    ctl.received s = true → (e.acceptLate soft decoded).rx.Holds s ∧ (e.rx.Holds s ∨ soft.Brings s)

theorem Engine.Receives.acceptLate (receives : e.Receives) (soft : SoftFrame) (decoded : Bool) :
    (e.acceptLate soft decoded).Receives := by
  unfold Engine.acceptLate
  split
  · split
    · rename_i payload _
      unfold Engine.accept
      split
      · exact receives
      · split_ifs with other measures late kind
        · exact receives
        · exact receives
        · exact absurd rfl late
        · exact receives
        · exact receives.acceptData _ _ _
    · exact receives
  · exact receives

/-- In every run the buffers stay in the receiver's window, and no acknowledgement of
its claims a block it does not hold. -/
theorem Engine.Reachable.buffered [Libm] (reachable : e.Reachable) : e.Buffered where
  buf _ held := reachable.receives.windowed.toFilled.buf held
  harq := reachable.receives.windowed.harq
  pieces := reachable.receives.windowed.pieces
  base := reachable.receives.windowed.base
  plain none_ _ acks := reachable.receives.plain none_ acks
  seen seen is := by
    refine ⟨reachable.receives.windowed.seen seen is, fun s held => ?_⟩
    obtain ⟨furthest, is', nearer, _⟩ := reachable.receives.windowed.furthest s held
    cases is.symm.trans is'
    exact nearer
  apart := reachable.receives.windowed.apart
  late _ soft decoded _ _ acks claimed := by
    have holds := (reachable.receives.acceptLate soft decoded).claims acks claimed
    exact ⟨holds, Engine.acceptLate_holds holds⟩

/-! ### A number held twice -/

/-- A frame detected that does not decode. -/
def SoftFrame.unread (tStart tEnd : ℚ) : SoftFrame :=
  { SoftFrame.clear .data [] tStart tEnd with decode := fun _ => (none, []) }

/-- A frame of the session `BB1B` opened: the block numbered one, with more after it. -/
def secondBlock (tStart tEnd : ℚ) : SoftFrame :=
  { SoftFrame.clear .data ([1, 1, 7, 0, 1, 9] ++ List.replicate 34 0) tStart tEnd with follows := some 3 }

/-- `BB1B` calls; then a transmission of which only the second frame is read, and the
same sent again, its header read and its second frame lost. -/
def sentTwice : List Input :=
  [.frame (.clear .data Station.strangersCall 100 101) (1011 / 10), .tick 102, .drain, .txDone 103 none,
    .frame (secondBlock 106 107) (1071 / 10),
    .frame (.clear .control { Station.strangersHeader with count := 5 }.encode 115 (231 / 2)) (1156 / 10),
    .frame (.unread (233 / 2) (235 / 2)) (1176 / 10)]

open Coarse in
theorem Engine.sentTwice_buffered :
    ((Engine.new ['A', 'A', '1', 'A'] .oneRung {} 1).run sentTwice).Buffered :=
  Engine.Reachable.buffered ⟨_, _, _, _, _, rfl⟩

open Coarse in
theorem Engine.sentTwice_buf_harq :
    ¬∀ e : Engine, e.Reachable → ∀ s, e.rx.buf.contains s = true → e.rx.harq.contains s = false := by
  intro apart
  have held : ((Engine.new ['A', 'A', '1', 'A'] .oneRung {} 1).run sentTwice).rx.buf.contains 1 = true ∧
      ((Engine.new ['A', 'A', '1', 'A'] .oneRung {} 1).run sentTwice).rx.harq.contains 1 = true := by
    decide +kernel
  rw [apart _ ⟨_, _, _, _, _, rfl⟩ 1 held.1] at held
  exact Bool.false_ne_true held.2

end AetherHF.Link

import AetherHF.Base.SelectiveRepeat
import AetherHF.Link.Assembly
import AetherHF.Link.Granted.StreamMoves

/-! The engine's sender and receiver are the two ends of a selective-repeat stream of
blocks, numbered modulo 256: what it cuts, what an acknowledgement releases, what a
decoded frame lets go. -/
namespace AetherHF.Link

open SelectiveRepeat (Stream Steps Step Inv)

/-! ### Numbers on the wire -/

theorem toNat_ofNat (a : Nat) : (UInt8.ofNat a).toNat = a % 256 := UInt8.toNat_ofNat

theorem seqDistance_ofNat (a b : Nat) :
    (seqDistance (UInt8.ofNat a) (UInt8.ofNat b) : ℤ) = ((a : ℤ) - b) % 256 := by
  unfold seqDistance
  rw [UInt8.toNat_sub, toNat_ofNat, toNat_ofNat]
  omega

theorem seqAfter_ofNat (a b : Nat) : seqAfter (UInt8.ofNat a) (UInt8.ofNat b) = UInt8.ofNat (a + b) :=
  (UInt8.ofNat_add a b).symm

theorem ofNat_inj_near {a b : Nat} (same : UInt8.ofNat a = UInt8.ofNat b) (low : a ≤ b) (high : b < a + 256) :
    a = b := by
  have words := congrArg UInt8.toNat same
  rw [toNat_ofNat, toNat_ofNat] at words
  omega

/-- A number no further behind than 240, and not past the window, is in it exactly when
its place is. -/
theorem inWindow_ofNat {k base : Nat} (behind : base ≤ k + 240) (ahead : k < base + 16) :
    inWindow (UInt8.ofNat k) (UInt8.ofNat base) window = true ↔ base ≤ k := by
  have distance := seqDistance_ofNat k base
  have near := SelectiveRepeat.emod_lt_window (M := 256) (W := 16) (d := (k : ℤ) - base)
    (by omega) (by omega) (by omega)
  rw [inWindow, decide_eq_true_iff, show window = 16 from rfl]
  omega

/-! ### The sender -/

/-- A record of the `k`th block. -/
structure RecordOf (s : Stream Bytes) (r : TxRecord) (k : Nat) : Prop where
  seq : r.seq = UInt8.ofNat k
  body : s.sent[k]? = some r.body
  acked : r.acked = true → k ∈ s.acked
  parts : ∀ parts, r.pieces = some parts → ∃ room, SplitOf room 0 r.body parts

/-- The blocks in the sender's window. -/
def windowOf (s : Stream Bytes) : List Nat := List.range' s.base (s.sent.length - s.base)

structure Sends (tx : Sender) (s : Stream Bytes) : Prop where
  base : tx.base = UInt8.ofNat s.base
  next : tx.next = UInt8.ofNat s.sent.length
  records : List.Forall₂ (RecordOf s) tx.records (windowOf s)

theorem RecordOf.mono {s s' : Stream Bytes} {r : TxRecord} {k : Nat} (of : RecordOf s r k)
    (sent : ∀ b, s.sent[k]? = some b → s'.sent[k]? = some b) (acked : s.acked ⊆ s'.acked) :
    RecordOf s' r k :=
  ⟨of.seq, sent _ of.body, fun marked => acked (of.acked marked), of.parts⟩

theorem RecordOf.reworked {s : Stream Bytes} {r r' : TxRecord} {k : Nat} (of : RecordOf s r k)
    (again : r.Reworked r') : RecordOf s r' k where
  seq := again.seq.trans of.seq
  body := again.body.symm ▸ of.body
  acked marked := of.acked (again.acked ▸ marked)
  parts found here := by
    rw [again.body]
    rcases again.pieces with same | none_ | ⟨capacity, made, split, is⟩
    · exact of.parts found (same ▸ here)
    · rw [none_] at here
      cases here
    · rw [is] at here
      cases here
      exact ⟨_, pieces_splitOf split⟩

theorem records_reworked {s : Stream Bytes} {records records' : List TxRecord} {ks : List Nat}
    (of : List.Forall₂ (RecordOf s) records ks) (again : List.Forall₂ TxRecord.Reworked records records') :
    List.Forall₂ (RecordOf s) records' ks := by
  induction again generalizing ks with
  | nil => exact of
  | cons first _ ih =>
    cases of with
    | cons here rest => exact .cons (here.reworked first) (ih rest)

/-- Records of blocks less than 256 apart have numbers of their own. -/
theorem records_unlike {s : Stream Bytes} {records : List TxRecord} {ks : List Nat} {k : Nat}
    (of : List.Forall₂ (RecordOf s) records ks) (apart : ∀ j ∈ ks, j ≠ k ∧ j < k + 256 ∧ k < j + 256) :
    ∀ r ∈ records, r.seq ≠ UInt8.ofNat k := by
  intro r member same
  obtain ⟨j, among, record⟩ := forall₂_mem of member
  obtain ⟨other, high, low⟩ := apart j among
  rcases Nat.le_total j k with before | after
  · exact other (ofNat_inj_near (record.seq ▸ same) before low)
  · exact other (ofNat_inj_near (record.seq ▸ same).symm after high).symm

theorem filter_unlike {records : List TxRecord} {q : UInt8} (unlike : ∀ r ∈ records, r.seq ≠ q) :
    records.filter (fun r => r.seq ≠ q) = records :=
  List.filter_eq_self.mpr fun r member => by simpa using unlike r member

theorem mem_windowOf {s : Stream Bytes} {k : Nat} (inv : s.base ≤ s.sent.length) :
    k ∈ windowOf s ↔ s.base ≤ k ∧ k < s.sent.length := by
  unfold windowOf
  rw [List.mem_range'_1]
  omega

namespace Sends

variable {tx : Sender} {s : Stream Bytes}

theorem distance (sends : Sends tx s) (inv : Inv window s) :
    seqDistance tx.next tx.base = s.sent.length - s.base := by
  have distance := seqDistance_ofNat s.sent.length s.base
  have room := inv.room
  have behind := inv.behind.trans inv.ahead
  rw [show window = 16 from rfl] at room
  rw [sends.next, sends.base]
  omega

/-- A block cut is the next one of the stream. -/
theorem cut (sends : Sends tx s) (inv : Inv window s) (rung take : Nat)
    (room : seqDistance tx.next tx.base < window) :
    s.sent.length < s.base + window ∧ Sends (tx.cut rung take) (s.cut (tx.queue.take take)) := by
  have distance := sends.distance inv
  have behind := inv.behind.trans inv.ahead
  rw [show window = 16 from rfl] at room ⊢
  refine ⟨by omega, sends.base, ?_, ?_⟩
  · simp only [Sender.cut, sends.next, Stream.cut, List.length_append, List.length_singleton]
    exact seqAfter_ofNat _ 1
  · have unlike := records_unlike (k := s.sent.length) sends.records fun j among => by
      have := (mem_windowOf behind).mp among
      omega
    have longer : windowOf (s.cut (tx.queue.take take)) = windowOf s ++ [s.sent.length] := by
      unfold windowOf
      have count : (s.cut (tx.queue.take take)).sent.length - s.base = s.sent.length - s.base + 1 := by
        simp only [Stream.cut, List.length_append, List.length_singleton]
        omega
      have last : s.base + 1 * (s.sent.length - s.base) = s.sent.length := by omega
      rw [show (s.cut (tx.queue.take take)).base = s.base from rfl, count, List.range'_concat, last]
    simp only [Sender.cut, Sender.insert, sends.next]
    rw [filter_unlike unlike, longer]
    have kept : List.Forall₂ (RecordOf (s.cut (tx.queue.take take))) tx.records (windowOf s) := by
      refine List.Forall₂.imp (fun r k of => of.mono (fun b sent => ?_) subset_rfl) sends.records
      rw [Stream.cut, List.getElem?_append_left (List.getElem?_eq_some_iff.mp sent).1]
      exact sent
    refine List.rel_append kept (.cons ⟨rfl, ?_, ?_, ?_⟩ .nil)
    · simp [Stream.cut]
    · intro marked
      cases marked
    · intro parts split
      cases split

/-- The lowest blocks released are the lowest of the stream's. -/
theorem release (sends : Sends tx s) (inv : Inv window s) (settled : s.Settled) (turns : Nat) :
    ∃ s', Steps window s s' ∧ Sends (tx.release turns) s' ∧
      s'.sent = s.sent ∧ s'.acked = s.acked ∧ s'.got = s.got ∧ s'.held = s.held := by
  induction turns generalizing tx s with
  | zero => exact ⟨s, .refl, sends, rfl, rfl, rfl, rfl⟩
  | succ turns ih =>
    unfold Sender.release
    split
    · rename_i lowest
      obtain ⟨open_, acked⟩ := lowest
      obtain ⟨r, found, marked⟩ := (Option.any_eq_true _ _).mp acked
      have member := record?_mem found
      have number : r.seq = tx.base := by simpa using List.find?_some found
      have behind := inv.behind.trans inv.ahead
      obtain ⟨k, among, record⟩ := forall₂_mem sends.records member
      have place := (mem_windowOf behind).mp among
      have room := inv.room
      rw [show window = 16 from rfl] at room
      have here : s.base = k := ofNat_inj_near (sends.base ▸ number ▸ record.seq) place.1 (by omega)
      subst here
      have step : Step window s s.release := .release (record.acked marked) settled
      have count : s.sent.length - s.base = (s.sent.length - s.release.base) + 1 := by
        have : s.release.base = s.base + 1 := rfl
        omega
      have rest : Sends { tx.remove tx.base with base := seqAfter tx.base 1 } s.release := by
        refine ⟨?_, sends.next, ?_⟩
        · simp only [sends.base]
          exact seqAfter_ofNat _ 1
        · have records := sends.records
          unfold windowOf at records ⊢
          rw [count, List.range'_succ] at records
          cases split : tx.records with
          | nil => rw [split] at member; cases member
          | cons first later =>
            rw [split] at records
            cases records with
            | cons head tail =>
              have unlike : ∀ r ∈ later, r.seq ≠ tx.base := by
                rw [sends.base]
                refine records_unlike tail fun j inside => ?_
                have := List.mem_range'_1.mp inside
                omega
              have dropped : (tx.remove tx.base).records = later := by
                simp only [Sender.remove, split]
                rw [List.filter_cons_of_neg (by simp [head.seq, sends.base]), filter_unlike unlike]
              simp only [dropped]
              exact List.Forall₂.imp (fun r k of => of.mono (fun _ sent => sent) subset_rfl) tail
      obtain ⟨s', steps, sends', sent, acked', got, held⟩ := ih rest (inv.step step) settled
      exact ⟨s', .head step steps, sends', sent, acked', got, held⟩
    · exact ⟨s, .refl, sends, rfl, rfl, rfl, rfl⟩

end Sends

/-- What an acknowledgement says is known to the receiver. -/
def Tells (s : Stream Bytes) (ctl : GrantFrame) : Prop :=
  ∀ k, s.base ≤ k → k < s.sent.length → ctl.received (UInt8.ofNat k) = true → s.Known k

theorem Sends.applyAck {e : Engine} {s : Stream Bytes} (sends : Sends e.tx s) (inv : Inv window s)
    (settled : s.Settled) {ctl : GrantFrame} (tells : Tells s ctl) :
    ∃ s', Steps window s s' ∧ Sends (e.applyAck ctl).tx s' ∧
      s'.sent = s.sent ∧ s'.got = s.got ∧ s'.held = s.held := by
  let marks : Set ℕ := { k | (s.base ≤ k ∧ k < s.sent.length) ∧ ctl.received (UInt8.ofNat k) = true }
  have mark : Step window s (s.mark marks) := .mark marks fun k marked => tells k marked.1.1 marked.1.2 marked.2
  have behind := inv.behind.trans inv.ahead
  have marked : Sends { e.tx with
      records := e.tx.records.map fun (r : TxRecord) => { r with
        unknown := false
        acked := r.acked || (r.sent && ctl.received r.seq) }
      topAckedMode := (e.newlyAcked ctl).foldl (fun top (r : TxRecord) => some (max (top.getD 0) r.mode))
        e.tx.topAckedMode } (s.mark marks) := by
    refine ⟨sends.base, sends.next, List.forall₂_map_left_iff.mpr ?_⟩
    refine forall₂_imp_mem sends.records fun r k among of => ⟨of.seq, of.body, fun either => ?_, of.parts⟩
    rcases Bool.or_eq_true_iff.mp either with before | now
    · exact .inl (of.acked before)
    · have said := (Bool.and_eq_true_iff.mp now).2
      exact .inr ⟨(mem_windowOf behind).mp among, of.seq ▸ said⟩
  obtain ⟨s', steps, sends', sent, _, got, held⟩ := marked.release (inv.step mark) settled _
  exact ⟨s', .head mark steps, sends', sent, got, held⟩

/-! ### The receiver -/

structure Gets (rx : Receiver) (s : Stream Bytes) : Prop where
  base : rx.base = UInt8.ofNat s.got
  buf : ∀ k, s.got ≤ k → k < s.got + 256 → rx.buf.get? (UInt8.ofNat k) = s.held k
  pieces : ∀ k p, s.got ≤ k → k < s.got + 256 → rx.pieces.get? (UInt8.ofNat k) = some p →
    ∃ block heard, s.sent[k]? = some block ∧ Assembled block heard p ∧ ∀ q ∈ heard, PieceOf block q
  measured : Reports rx.measured

/-- A data frame's copy of the `k`th block, or of a piece of it. -/
structure CopyOf (s : Stream Bytes) (k : Nat) (header : DataHeader) (body : Bytes) : Prop where
  seq : header.seq = UInt8.ofNat k
  block : ∃ block, s.sent[k]? = some block ∧ (header.piece = none → body = block) ∧
    ∀ p, header.piece = some p → PieceOf block (p, body)

namespace Gets

variable {rx rx' : Receiver} {s : Stream Bytes}

theorem same (gets : Gets rx s) (base : rx'.base = rx.base) (buf : rx'.buf = rx.buf)
    (pieces : rx'.pieces = rx.pieces) (measured : Reports rx.measured → Reports rx'.measured) : Gets rx' s where
  base := base.trans gets.base
  buf := buf ▸ gets.buf
  pieces := pieces ▸ gets.pieces
  measured := measured gets.measured

/-- A block kept is one held; the first copy stays, and it is the same. -/
theorem keepBlock (gets : Gets rx s) (inv : Inv window s) {k : Nat} {block body : Bytes}
    (low : s.got ≤ k) (high : k < s.got + 256) (copy : s.sent[k]? = some block)
    (whole : rx.buf.contains (UInt8.ofNat k) = true ∨ body = block) :
    Gets (rx.keepBlock (UInt8.ofNat k) body) (s.hold k block) where
  base := gets.base
  buf j from_ near := by
    have from_ : s.got ≤ j := from_
    have near : j < s.got + 256 := near
    have there := gets.buf j from_ near
    have here := gets.buf k low high
    unfold Receiver.keepBlock
    by_cases held : rx.buf.contains (UInt8.ofNat k) = true
    · simp only [held, if_true]
      rw [there]
      by_cases same : j = k
      · subst same
        obtain ⟨first, is⟩ := Keyed.contains_eq_true.mp held
        rw [here] at is
        have copies := (inv.held j first is).2
        rw [copy, Option.some.injEq] at copies
        simp [Stream.hold, is, copies]
      · exact (Function.update_of_ne same ..).symm
    · have body : body = block := whole.resolve_left held
      simp only [held, Bool.false_eq_true, if_false, Keyed.get?_insert]
      by_cases same : j = k
      · simp [Stream.hold, same, body]
      · have unlike : UInt8.ofNat j ≠ UInt8.ofNat k := by
          intro like
          rcases Nat.le_total j k with before | after
          · exact same (ofNat_inj_near like before (by omega))
          · exact same (ofNat_inj_near like.symm after (by omega)).symm
        rw [if_neg unlike, there]
        exact (Function.update_of_ne same ..).symm
  pieces j p from_ near found := by
    simp only [Receiver.keepBlock, Keyed.get?_erase] at found
    split at found
    · cases found
    · exact gets.pieces j p from_ near found
  measured := gets.measured

/-- The blocks whose turn it is are passed on, as far as the first gap. -/
theorem deliverReady (turns : Nat) (gets : Gets rx s) (inv : Inv window s) (enough : rx.buf.length ≤ turns) :
    ∃ s', Steps window s s' ∧ Gets (Receiver.deliverReady turns rx).2 s' ∧ s'.Settled ∧
      s'.base = s.base ∧ s'.sent = s.sent ∧ s.got ≤ s'.got ∧
      s'.passedOn = s.passedOn ++ (Receiver.deliverReady turns rx).1 := by
  have first := gets.buf s.got le_rfl (by omega)
  induction turns generalizing rx s with
  | zero =>
    have empty : rx.buf = [] := List.length_eq_zero_iff.mp (Nat.le_zero.mp enough)
    rw [empty, Keyed.get?_nil] at first
    exact ⟨s, .refl, gets, first.symm, rfl, rfl, le_rfl, by simp [Receiver.deliverReady]⟩
  | succ turns ih =>
    unfold Receiver.deliverReady
    rw [gets.base]
    split
    · rename_i none_
      exact ⟨s, .refl, gets, first.symm.trans none_, rfl, rfl, le_rfl, by simp⟩
    · rename_i data found
      have held : s.held s.got = some data := first.symm.trans found
      have copy := (inv.held _ _ held).2
      have step : Step window s s.deliver := .deliver (by rw [held]; rfl)
      have later : Gets { rx with
          buf := rx.buf.erase (UInt8.ofNat s.got)
          harq := rx.harq.erase (UInt8.ofNat s.got)
          pieces := rx.pieces.erase (UInt8.ofNat s.got)
          base := seqAfter (UInt8.ofNat s.got) 1 } s.deliver := by
        refine ⟨seqAfter_ofNat _ 1, fun k low high => ?_, fun k p low high piece => ?_, gets.measured⟩
        · have low : s.got + 1 ≤ k := low
          have high : k < s.got + 1 + 256 := high
          have other : k ≠ s.got := by omega
          simp only [Keyed.get?_erase, Stream.deliver, Function.update_of_ne other]
          by_cases round : k = s.got + 256
          · have wrapped : UInt8.ofNat k = UInt8.ofNat s.got := by
              apply UInt8.toNat_inj.mp
              rw [toNat_ofNat, toNat_ofNat]
              omega
            rw [if_pos wrapped]
            cases beyond : s.held k with
            | none => rfl
            | some b =>
              have near := (inv.held_window (k := k) (by rw [beyond]; rfl)).2
              rw [show window = 16 from rfl] at near
              omega
          · rw [if_neg fun like => other (ofNat_inj_near like.symm (by omega) (by omega)).symm]
            exact gets.buf k (by omega) (by omega)
        · have low : s.got + 1 ≤ k := low
          have high : k < s.got + 1 + 256 := high
          simp only [Keyed.get?_erase] at piece
          split at piece
          · cases piece
          · rename_i unlike
            refine gets.pieces k p (by omega) ?_ piece
            by_contra far
            apply unlike
            apply UInt8.toNat_inj.mp
            rw [toNat_ofNat, toNat_ofNat]
            omega
      have fewer : (rx.buf.erase (UInt8.ofNat s.got)).length ≤ turns := by
        have := Keyed.length_erase_lt found
        omega
      obtain ⟨s', steps, gets', settled, base, sent, got, passed⟩ :=
        ih later (inv.step step) fewer (later.buf _ le_rfl (Nat.lt_add_of_pos_right (by decide)))
      refine ⟨s', .head step steps, gets', settled, base, sent, (Nat.le_succ _).trans got, ?_⟩
      rw [passed]
      simp [Stream.passedOn, Stream.deliver, List.take_add_one, copy]

/-- A piece placed: of the block, or the whole of it once every piece is heard. -/
theorem blockOf (gets : Gets rx s) {k : Nat} {header : DataHeader} {body : Bytes}
    (low : s.got ≤ k) (high : k < s.got + 256) (copy : CopyOf s k header body) :
    Gets (rx.blockOf header body).2 s ∧ ∀ whole, (rx.blockOf header body).1 = some whole →
      ∃ block, s.sent[k]? = some block ∧
        ((rx.blockOf header body).2.buf.contains (UInt8.ofNat k) = true ∨ whole = block) := by
  obtain ⟨block, sent, unsplit, split⟩ := copy.block
  unfold Receiver.blockOf
  rw [copy.seq]
  cases piece : header.piece with
  | none => exact ⟨gets, fun whole is => ⟨block, sent, .inr (Option.some.inj is ▸ unsplit piece)⟩⟩
  | some p =>
    have of := split p piece
    dsimp only
    split
    · rename_i held
      exact ⟨gets, fun whole _ => ⟨block, sent, .inl held⟩⟩
    · obtain ⟨heard, assembled, pieces⟩ : ∃ heard, Assembled block heard
          ((rx.pieces.get? (UInt8.ofNat k)).getD {}) ∧ ∀ q ∈ heard, PieceOf block q := by
        cases before : rx.pieces.get? (UInt8.ofNat k) with
        | none => exact ⟨[], .empty block, fun _ member => absurd member List.not_mem_nil⟩
        | some held =>
          obtain ⟨same, heard, sent', assembled, pieces⟩ := gets.pieces k held low high before
          cases sent.symm.trans sent'
          exact ⟨heard, assembled, pieces⟩
      have placed := assembled.take of
      have among : ∀ q ∈ heard ++ [(p, body)], PieceOf block q := by
        intro q member
        rcases List.mem_append.mp member with old | new
        · exact pieces q old
        · exact List.mem_singleton.mp new ▸ of
      refine ⟨⟨gets.base, gets.buf, fun j held from_ near found => ?_, gets.measured⟩, fun whole is => ?_⟩
      · simp only [Keyed.get?_insert] at found
        split at found
        · rename_i like
          have here : j = k := by
            rcases Nat.le_total j k with before | after
            · exact ofNat_inj_near like before (by omega)
            · exact (ofNat_inj_near like.symm after (by omega)).symm
          subst here
          cases found
          exact ⟨block, _, sent, placed, among⟩
        · exact gets.pieces j held from_ near found
      · have body_ := placed.body among
        by_cases complete : heard ++ [(p, body)] ≠ [] ∧ ∀ i, i < block.length → Covered (heard ++ [(p, body)]) i
        · exact ⟨block, sent, .inr (Option.some.inj (is.symm.trans (body_.1 complete)))⟩
        · cases is.symm.trans (body_.2 complete)

/-- What a data frame of the window lets go is what is due. -/
theorem takeBlock (gets : Gets rx s) (inv : Inv window s) {k : Nat} {header : DataHeader} {body : Bytes}
    (low : s.got ≤ k) (high : k < s.got + 256) (copy : CopyOf s k header body) :
    ∃ s', Steps window s s' ∧ Gets (rx.takeBlock header body).2 s' ∧ s'.Settled ∧
      s'.base = s.base ∧ s'.sent = s.sent ∧ s.got ≤ s'.got ∧
      s'.passedOn = s.passedOn ++ (rx.takeBlock header body).1 := by
  unfold Receiver.takeBlock
  extract_lets rx₁
  have seen : Gets rx₁ s := by
    unfold rx₁
    split
    · exact gets.same rfl rfl rfl id
    · exact gets
  obtain ⟨placed, whole⟩ := seen.blockOf low high copy
  generalize rx₁.blockOf header body = out at placed whole ⊢
  obtain ⟨block, rx₂⟩ := out
  dsimp only at placed whole ⊢
  obtain ⟨s₁, step, kept, same⟩ : ∃ s₁, Steps window s s₁ ∧ Gets (rx₂.keepWhole header.seq block) s₁ ∧
      s₁.base = s.base ∧ s₁.sent = s.sent ∧ s₁.got = s.got := by
    cases block with
    | none => exact ⟨s, .refl, placed, rfl, rfl, rfl⟩
    | some found =>
      obtain ⟨block, sent, is⟩ := whole found rfl
      have kept := placed.keepBlock inv low high sent is
      rw [← copy.seq] at kept
      exact ⟨s.hold k block, .single (.hold k block sent low), kept, rfl, rfl, rfl⟩
  generalize rx₂.keepWhole header.seq block = rx₃ at kept ⊢
  obtain ⟨base, sent, got⟩ := same
  obtain ⟨s', steps, gets', settled', base', sent', got', passed⟩ :=
    kept.deliverReady rx₃.buf.length (inv.steps step) le_rfl
  refine ⟨s', step.trans steps, ?_, settled', base'.trans base, sent'.trans sent, got ▸ got', ?_⟩
  · unfold Receiver.forgetSeen
    split
    · exact gets'.same rfl rfl rfl id
    · exact gets'
  · rw [passed, Stream.passedOn, sent, got]
    rfl

/-- A frame of the session's data, decoded: what it lets go is the stream's next. -/
theorem acceptData {e : Engine} (gets : Gets e.rx s) (inv : Inv window s) (settled : s.Settled) {k : Nat}
    {header : DataHeader} {body : Bytes} (copy : CopyOf s k header body) (fresh : s.got ≤ k + 240)
    (late : Bool) :
    ∃ s' ready, Steps window s s' ∧ Gets (e.acceptData header body late).rx s' ∧ s'.Settled ∧
      s'.base = s.base ∧ s'.sent = s.sent ∧ Engine.Delivers e (e.acceptData header body late) ready ∧
      s'.passedOn.flatten = s.passedOn.flatten ++ ready.flatten := by
  obtain ⟨block, sent, _⟩ := copy.block
  have last := (List.getElem?_eq_some_iff.mp sent).1
  have room := inv.room
  have behind := inv.behind
  rw [show window = 16 from rfl] at room
  unfold Engine.acceptData
  extract_lets e₁ rx₁ rx₂
  have first : Gets rx₁ s := by
    unfold rx₁
    split
    · exact gets
    · exact gets.same rfl rfl rfl fun _ _ none_ => by cases none_
  have second : Gets rx₂ s := by
    unfold rx₂
    split
    · have heard := rx₁.piecesHeard_filed
      exact first.same heard.base heard.buf heard.pieces heard.measured
    · exact first
  split
  · rename_i near
    rw [second.base, copy.seq] at near
    have low := (inWindow_ofNat fresh (by omega)).mp near
    obtain ⟨s', steps, gets', settled', base', sent', _, passed⟩ :=
      second.takeBlock inv low (by omega) copy
    generalize rx₂.takeBlock header body = out at gets' passed ⊢
    obtain ⟨ready, rx₃⟩ := out
    refine ⟨s', ready.filter fun data => !data.isEmpty, steps, gets', settled', base', sent', ⟨rfl, rfl, rfl, rfl, rfl⟩, ?_⟩
    rw [passed, List.flatten_append, List.flatten_filter_not_isEmpty]
  · exact ⟨s, [], .refl, second, settled, rfl, rfl,
      { actions := (List.append_nil _).symm }, (List.append_nil _).symm⟩

end Gets

/-! ### An end the other's steps leave alone -/

theorem Sends.stands {tx : Sender} {s s' : Stream Bytes} (sends : Sends tx s) (steps : Steps window s s')
    (sent : s'.sent = s.sent) (base : s'.base = s.base) : Sends tx s' where
  base := base ▸ sends.base
  next := sent ▸ sends.next
  records := by
    have same : windowOf s' = windowOf s := by rw [windowOf, base, sent, windowOf]
    rw [same]
    exact sends.records.imp fun r k of => of.mono (fun _ => steps.sent_get) steps.acked_subset

theorem Gets.stands {rx : Receiver} {s s' : Stream Bytes} (gets : Gets rx s) (steps : Steps window s s')
    (got : s'.got = s.got) (held : s'.held = s.held) : Gets rx s' where
  base := got ▸ gets.base
  buf k low high := by
    rw [got] at low high
    rw [held]
    exact gets.buf k low high
  pieces k p low high found := by
    rw [got] at low high
    obtain ⟨block, heard, sent, assembled⟩ := gets.pieces k p low high found
    exact ⟨block, heard, steps.sent_get sent, assembled⟩
  measured := gets.measured

/-! ### What the two ends say -/

theorem CopyOf.steps {s s' : Stream Bytes} {k : Nat} {header : DataHeader} {body : Bytes}
    (copy : CopyOf s k header body) (steps : Steps window s s') : CopyOf s' k header body := by
  obtain ⟨block, sent, parts⟩ := copy.block
  exact ⟨copy.seq, block, steps.sent_get sent, parts⟩

/-- A data frame handed over is a copy of a block in the sender's window. -/
theorem Sends.copyOf {tx : Sender} {s : Stream Bytes} {session : UInt8} {f : TxFrame} (sends : Sends tx s)
    (inv : Inv window s) (data : DataOf tx session f) {header : DataHeader} {body : Bytes}
    (read : decodeData f.payload = .ok (header, body)) (kind : header.kind = .data) :
    ∃ k, s.base ≤ k ∧ k < s.sent.length ∧ CopyOf s k header body := by
  have behind := inv.behind.trans inv.ahead
  cases data with
  | whole member encoded =>
    rw [decodeData_of_encodeData encoded] at read
    cases read
    obtain ⟨k, among, record⟩ := forall₂_mem sends.records member
    obtain ⟨low, high⟩ := (mem_windowOf behind).mp among
    exact ⟨k, low, high, record.seq, _, record.body, fun _ => rfl, nofun⟩
  | piece member split part encoded =>
    rw [decodeData_of_encodeData encoded] at read
    cases read
    obtain ⟨k, among, record⟩ := forall₂_mem sends.records member
    obtain ⟨low, high⟩ := (mem_windowOf behind).mp among
    obtain ⟨room, splits⟩ := record.parts _ split
    refine ⟨k, low, high, record.seq, _, record.body, nofun, ?_⟩
    rintro p ⟨⟩
    exact splits.pieceOf _ part
  | measurement encoded =>
    rw [decodeData_of_encodeData encoded] at read
    cases read
    cases kind

/-- An acknowledgement made once the sender's window began at `from_` or later. -/
def AckOf (s : Stream Bytes) (from_ : Nat) (ctl : GrantFrame) : Prop :=
  ∃ place, from_ ≤ place ∧ place ≤ s.got ∧ ctl.base = UInt8.ofNat place ∧
    ∀ i < 16, ctl.reports = false → ctl.bitmap.toNat.testBit i = true → s.Known (place + i)

theorem AckOf.steps {s s' : Stream Bytes} {from_ : Nat} {ctl : GrantFrame} (ack : AckOf s from_ ctl)
    (steps : Steps window s s') : AckOf s' from_ ctl := by
  obtain ⟨place, low, high, base, bits⟩ := ack
  exact ⟨place, low, high.trans steps.got_le, base, fun i near plain bit => steps.known (bits i near plain bit)⟩

/-- Read with fewer than 112 blocks acknowledged since, it says nothing that is not so. -/
theorem AckOf.tells {s : Stream Bytes} {from_ : Nat} {ctl : GrantFrame} (ack : AckOf s from_ ctl)
    (inv : Inv window s) (fresh : s.base < from_ + 112) : Tells s ctl := by
  obtain ⟨place, low, high, base, bits⟩ := ack
  intro k from_k to_k received
  have room := inv.room
  have behind := inv.behind
  rw [show window = 16 from rfl] at room
  by_cases below : k < place
  · exact .inl (below.trans_le high)
  · have distance := seqDistance_ofNat k place
    have exact_ : seqDistance (UInt8.ofNat k) (UInt8.ofNat place) = k - place := by omega
    unfold GrantFrame.received at received
    rw [base, exact_] at received
    rw [show window = 16 from rfl, show seqMod / 2 = 128 from rfl] at received
    dsimp only at received
    split at received
    · have far : k - place ≥ 128 := by simpa using received
      omega
    · rename_i near
      obtain ⟨plain, bit⟩ := Bool.and_eq_true_iff.mp received
      have known := bits (k - place) (by omega) (by simpa using plain) bit
      rwa [show place + (k - place) = k by omega] at known

theorem setBit_testBit (bits : UInt16) {i : Nat} (near : i < 16) (j : Nat) :
    (bits ||| (1 <<< UInt16.ofNat i)).toNat.testBit j = (bits.toNat.testBit j || decide (i = j)) := by
  have word : ((1 : UInt16) <<< UInt16.ofNat i).toNat = 2 ^ i := by
    have shift : (UInt16.ofNat i).toNat = i := UInt16.toNat_ofNat_of_lt' (by rw [UInt16.size]; omega)
    rw [UInt16.toNat_shiftLeft, shift, Nat.mod_eq_of_lt near, Nat.shiftLeft_eq, UInt16.toNat_one, one_mul]
    exact Nat.mod_eq_of_lt (Nat.pow_lt_pow_right (by decide) near)
  rw [UInt16.toNat_or, Nat.testBit_or, word, Nat.testBit_two_pow]

/-- The bits set one by one are the bits asked for. -/
theorem foldl_setBit (held : Nat → Bool) (is : List Nat) (near : ∀ i ∈ is, i < 16) (bits : UInt16) (j : Nat)
    (set : (is.foldl (fun (bits : UInt16) i => if held i then bits ||| (1 <<< UInt16.ofNat i) else bits)
      bits).toNat.testBit j = true) : bits.toNat.testBit j = true ∨ held j = true := by
  induction is generalizing bits with
  | nil => exact .inl set
  | cons i rest ih =>
    rcases ih (fun i among => near i (List.mem_cons_of_mem _ among)) _ set with before | here
    · dsimp only at before
      split at before
      · rename_i holds
        rw [setBit_testBit _ (near i (List.mem_cons_self ..))] at before
        rcases Bool.or_eq_true_iff.mp before with old | new
        · exact .inl old
        · exact .inr ((of_decide_eq_true new) ▸ holds)
      · exact .inl before
    · exact .inr here

/-- The bitmap marks only what the receiver holds. -/
theorem receiveWindow_bit {rx : Receiver} {j : Nat} (set : rx.receiveWindow.1.toNat.testBit j = true) :
    rx.buf.contains (seqAfter rx.base (UInt8.ofNat j)) = true := by
  have near : ∀ i ∈ List.range window, i < 16 := fun i among => List.mem_range.mp among
  rcases foldl_setBit (fun i => rx.buf.contains (seqAfter rx.base (UInt8.ofNat i))) (List.range window) near
    0 j set with zero | held
  · rw [UInt16.toNat_zero, Nat.zero_testBit] at zero
    cases zero
  · exact held

/-- What a control frame says of the receiver is so. -/
theorem Gets.ackOf {rx : Receiver} {s : Stream Bytes} (gets : Gets rx s) {from_ : Nat} (low : from_ ≤ s.got)
    {ctl : GrantFrame} (base : ctl.base = rx.base)
    (bitmap : ctl.bitmap = rx.measured.getD rx.receiveWindow.1) : AckOf s from_ ctl := by
  refine ⟨s.got, low, le_rfl, base.trans gets.base, fun i near plain bit => .inr ?_⟩
  cases report : rx.measured with
  | some word =>
    rw [report, Option.getD_some] at bitmap
    have marked := gets.measured word report
    rw [GrantFrame.reports, bitmap] at plain
    simp [marked] at plain
  | none =>
    rw [report, Option.getD_none] at bitmap
    rw [bitmap] at bit
    have held := receiveWindow_bit bit
    rw [gets.base, seqAfter_ofNat, Keyed.contains, gets.buf _ (Nat.le_add_right ..) (by omega)] at held
    exact held

end AetherHF.Link

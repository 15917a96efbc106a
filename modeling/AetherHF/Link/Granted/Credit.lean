import AetherHF.Link.Granted.Ends
import AetherHF.Link.Granted.StreamHandle

/-! What an acknowledgement says of the copies sent: one outcome a copy, and each block
credited once, to its latest. -/
namespace AetherHF.Link

namespace Engine

variable (e : Engine)

/-! ### The copies judged -/

/-- The outcome of a copy, as `judge_copies` gives it. -/
structure OutcomeOf (copy : UInt8 × Nat × ℚ) (outcome : FrameOutcome) : Prop where
  mode : outcome.mode = copy.2.1
  air : outcome.airS = copy.2.2

theorem judgedCopies_each (newly : List UInt8) (copies : List (UInt8 × Nat × ℚ)) (credited : List UInt8) :
    List.Forall₂ OutcomeOf copies (e.judgedCopies newly copies credited) := by
  induction copies generalizing credited with
  | nil => exact .nil
  | cons copy rest ih =>
    obtain ⟨seq, mode, air⟩ := copy
    rw [judgedCopies]
    exact .cons ⟨rfl, rfl⟩ (ih _)

/-- Latest first, the first copy of a block newly acknowledged is the one decoded. -/
theorem judgedCopies_decoded {newly : List UInt8} {copies : List (UInt8 × Nat × ℚ)} {credited : List UInt8} {i : Nat}
    {copy : UInt8 × Nat × ℚ} {outcome : FrameOutcome} (at_ : copies[i]? = some copy)
    (is : (e.judgedCopies newly copies credited)[i]? = some outcome) :
    outcome.decoded = true ↔
      copy.1 ∈ newly ∧ copy.1 ∉ credited ∧ ∀ j other, j < i → copies[j]? = some other → other.1 ≠ copy.1 := by
  induction copies generalizing credited i with
  | nil => cases at_
  | cons first rest ih =>
    obtain ⟨seq, mode, air⟩ := first
    rw [judgedCopies] at is
    cases i with
    | zero =>
      cases at_
      cases is
      simp
    | succ i =>
      rw [List.getElem?_cons_succ] at at_ is
      rw [ih at_ is]
      constructor
      · rintro ⟨told, unlike, latest⟩
        have unlike' : seq ≠ copy.1 ∧ copy.1 ∉ credited := by
          split at unlike
          · exact ⟨fun same => unlike (same ▸ List.mem_cons_self ..), fun before => unlike (List.mem_cons_of_mem _ before)⟩
          · rename_i refused
            refine ⟨fun same => refused ?_, unlike⟩
            subst same
            simpa using ⟨told, unlike⟩
        refine ⟨told, unlike'.2, fun j other before here => ?_⟩
        cases j with
        | zero =>
          cases here
          exact unlike'.1
        | succ j => exact latest j other (by omega) here
      · rintro ⟨told, unlike, latest⟩
        refine ⟨told, ?_, fun j other before here => latest (j + 1) other (by omega) here⟩
        have other := latest 0 _ (Nat.succ_pos i) rfl
        split
        · exact fun among => (List.mem_cons.mp among).elim (fun same => other same.symm) unlike
        · exact unlike

/-- The outcomes of the copies sent, in the order sent. -/
def outcomes (newly : List UInt8) : List FrameOutcome := (e.judgedCopies newly e.tx.sentCopies.reverse []).reverse

theorem outcomes_each (newly : List UInt8) : List.Forall₂ OutcomeOf e.tx.sentCopies (e.outcomes newly) := by
  have each := List.forall₂_reverse_iff.mpr (e.judgedCopies_each newly e.tx.sentCopies.reverse [])
  rwa [List.reverse_reverse] at each

/-- The copy decoded of a block newly acknowledged is its last, and no other copy is. -/
theorem outcomes_decoded {newly : List UInt8} {i : Nat} {copy : UInt8 × Nat × ℚ} {outcome : FrameOutcome}
    (at_ : e.tx.sentCopies[i]? = some copy) (is : (e.outcomes newly)[i]? = some outcome) :
    outcome.decoded = true ↔
      copy.1 ∈ newly ∧ ∀ j other, i < j → e.tx.sentCopies[j]? = some other → other.1 ≠ copy.1 := by
  have length := (e.outcomes_each newly).length_eq
  have inside := (List.getElem?_eq_some_iff.mp at_).1
  have inside' := (List.getElem?_eq_some_iff.mp is).1
  have at' : e.tx.sentCopies.reverse[e.tx.sentCopies.length - 1 - i]? = some copy := by
    rw [List.getElem?_reverse (by omega), ← at_]
    congr 1
    omega
  have is' : (e.judgedCopies newly e.tx.sentCopies.reverse [])[e.tx.sentCopies.length - 1 - i]? = some outcome := by
    have back : e.judgedCopies newly e.tx.sentCopies.reverse [] = (e.outcomes newly).reverse := (List.reverse_reverse _).symm
    rw [back, List.getElem?_reverse (by omega), ← is]
    congr 1
    omega
  rw [e.judgedCopies_decoded at' is']
  constructor
  · rintro ⟨told, -, latest⟩
    refine ⟨told, fun j other after there => latest (e.tx.sentCopies.length - 1 - j) other ?_ ?_⟩
    · have := (List.getElem?_eq_some_iff.mp there).1
      omega
    · have := (List.getElem?_eq_some_iff.mp there).1
      rw [List.getElem?_reverse (by omega), ← there]
      congr 1
      omega
  · rintro ⟨told, latest⟩
    refine ⟨told, List.not_mem_nil, fun j other before there => latest (e.tx.sentCopies.length - 1 - j) other (by omega) ?_⟩
    have := (List.getElem?_eq_some_iff.mp there).1
    rw [List.length_reverse] at this
    rwa [List.getElem?_reverse this] at there

/-- One outcome a copy, in the order sent, with the copy's own rung and air, decoded exactly for
the last copy of each block newly acknowledged. -/
structure Judges (copies : List (UInt8 × Nat × ℚ)) (newly : List UInt8) (outcomes : List FrameOutcome) : Prop where
  each : List.Forall₂ OutcomeOf copies outcomes
  decoded : ∀ (i : Nat) (copy : UInt8 × Nat × ℚ) (outcome : FrameOutcome), copies[i]? = some copy → outcomes[i]? = some outcome →
    (outcome.decoded = true ↔ copy.1 ∈ newly ∧
      ∀ (j : Nat) (other : UInt8 × Nat × ℚ), i < j → copies[j]? = some other → other.1 ≠ copy.1)

theorem outcomes_judges (newly : List UInt8) : Judges e.tx.sentCopies newly (e.outcomes newly) :=
  ⟨e.outcomes_each newly, fun _ _ _ at_ is => e.outcomes_decoded at_ is⟩

/-! ### An acknowledgement applied fresh -/

theorem release_sentCopies (turns : Nat) (tx : Sender) : (tx.release turns).sentCopies = tx.sentCopies := by
  induction turns generalizing tx with
  | zero => rfl
  | succ turns ih =>
    unfold Sender.release
    split
    · exact ih _
    · rfl

theorem applyAck_sentCopies (ctl : GrantFrame) : (e.applyAck ctl).tx.sentCopies = e.tx.sentCopies := release_sentCopies _ _

theorem takeReport_same (ctl : GrantFrame) :
    (e.takeReport ctl).tx = e.tx ∧ (e.takeReport ctl).rate = e.rate ∧ (e.takeReport ctl).peer = e.peer := by
  unfold takeReport
  split
  · exact ⟨rfl, rfl, rfl⟩
  · split
    · exact ⟨rfl, rfl, rfl⟩
    · exact ⟨rfl, rfl, rfl⟩

/-- The blocks a control frame acknowledges for the first time, by their numbers. -/
def newly (ctl : GrantFrame) : List UInt8 := (e.newlyAcked ctl).map fun r => r.seq

section

variable [Libm]

/-- `judge_copies` gives `observe_frames` the outcomes of the copies. -/
theorem judgeCopies_rate (newly : List UInt8) : ∃ own floor outcomes, Judges e.tx.sentCopies newly outcomes ∧
    (e.judgeCopies newly).rate = (e.rate.setFamilies own floor).observeFrames outcomes e.peer.snrDb := by
  unfold judgeCopies price
  exact ⟨_, _, e.outcomes newly, e.outcomes_judges newly, rfl⟩

/-- What a fresh acknowledgement comes to for the rate controller: with no copy sent since the last
one nothing, with some their outcomes, and none is left. -/
structure Applied (ctl : GrantFrame) (e' : Engine) : Prop where
  judged : e.tx.sentCopies ≠ [] → ∃ own floor outcomes, Judges e.tx.sentCopies (e.newly ctl) outcomes ∧
    e'.rate = (e.rate.setFamilies own floor).observeFrames outcomes e.peer.snrDb
  quiet : e.tx.sentCopies = [] → e'.rate = e.rate
  cleared : e'.tx.sentCopies = []

theorem judgeAnswer_applied (e₁ : Engine) (ctl : GrantFrame) (copies : e₁.tx.sentCopies = e.tx.sentCopies)
    (rate : e₁.rate = e.rate) (peer : e₁.peer = e.peer) : e.Applied ctl (e₁.judgeAnswer ctl (e.newly ctl)) := by
  unfold judgeAnswer
  by_cases none_ : e₁.tx.sentCopies.isEmpty
  · have empty : e₁.tx.sentCopies = [] := List.isEmpty_iff.mp none_
    rw [if_pos none_]
    refine ⟨fun some_ => absurd (copies.symm.trans empty) some_, fun _ => rate, empty⟩
  · have some_ : e.tx.sentCopies ≠ [] := by
      rw [← copies]
      exact fun empty => none_ (List.isEmpty_iff.mpr empty)
    rw [if_neg none_]
    refine ⟨fun _ => ?_, fun empty => absurd empty some_, rfl⟩
    obtain ⟨own, floor, outcomes, judges, is⟩ := judgeCopies_rate _ (e.newly ctl)
    refine ⟨own, floor, outcomes, ?_, is.trans ?_⟩
    · rw [← copies]
      exact judges
    · rw [← rate, ← peer]

theorem takeAck_applied (ctl : GrantFrame) : e.Applied ctl (e.takeAck ctl true) := by
  obtain ⟨tx, rate, peer⟩ := e.takeReport_same ctl
  have same : ((e.takeReport ctl).newlyAcked ctl).map (fun r => r.seq) = e.newly ctl := by
    unfold newly newlyAcked
    rw [tx]
  have copies : ((e.takeReport ctl).applyAck ctl).tx.sentCopies = e.tx.sentCopies := by rw [applyAck_sentCopies, tx]
  have applied := e.judgeAnswer_applied ((e.takeReport ctl).applyAck ctl) ctl copies rate peer
  unfold takeAck
  simp only [if_true, same]
  split
  · exact ⟨applied.judged, applied.quiet, applied.cleared⟩
  · exact applied

end

/-! ### The copies sent -/

/-- A block, but for how often it went. -/
def blockOf (r : TxRecord) : UInt8 × Nat × Nat × Bytes := (r.seq, r.origin, r.mode, r.body)

/-- A frame that goes whole, and its copy: the rung it was cut at, and its own air. -/
def Charged (e : Engine) (f : TxFrame) (copy : UInt8 × Nat × ℚ) : Prop :=
  ∃ r ∈ e.tx.records, copy = (r.seq, r.origin, e.frameS (e.timing.isFloor f.mode)) ∧ f.mode = r.mode ∧
    encodeData ⟨.data, r.seq, e.session, none⟩ r.body (e.timing.capacity r.mode) = .ok f.payload

/-- A frame that is no whole block: a piece of one, or a measurement's. -/
def Uncharged (f : TxFrame) : Prop :=
  ∃ header body capacity, encodeData header body capacity = .ok f.payload ∧ (header.kind = .measure ∨ header.piece ≠ none)

theorem map_modify_same {α β : Type} {g : α → β} {f : α → α} (same : ∀ a, g (f a) = g a) (l : List α) (i : Nat) :
    (l.modify i f).map g = l.map g := by
  induction l generalizing i with
  | nil => cases i <;> rfl
  | cons a rest ih =>
    cases i with
    | zero => simp [same]
    | succ i => simp [ih]

/-- What laying copies comes to, from `start` on. -/
structure Lays (start : Engine) (laid : List TxFrame × Engine) : Prop where
  copies : ∃ copies, laid.2.tx.sentCopies = start.tx.sentCopies ++ copies ∧ List.Forall₂ (Charged start) laid.1 copies
  blocks : laid.2.tx.records.map blockOf = start.tx.records.map blockOf
  timing : laid.2.timing = start.timing
  session : laid.2.session = start.session

theorem countCopy_blocks (r : TxRecord) : (e.countCopy r).tx.records.map blockOf = e.tx.records.map blockOf :=
  map_modify_same (fun _ => by rfl) _ _

theorem Lays.layCopy {start : Engine} {laid : List TxFrame × Engine} (lays : Lays start laid) (count : Nat) (place : UInt8 × Nat) :
    Lays start (layCopy count laid place) := by
  obtain ⟨frames, e⟩ := laid
  obtain ⟨s, i⟩ := place
  obtain ⟨⟨copies, sent, charged⟩, blocks, timing, session⟩ := lays
  dsimp only at sent charged blocks timing session
  rw [Engine.layCopy]
  split
  · exact ⟨⟨copies, sent, charged⟩, blocks, timing, session⟩
  · rename_i r found
    have blocks' := (e.countCopy_blocks r).trans blocks
    split
    · exact ⟨⟨copies, sent, charged⟩, blocks', timing, session⟩
    · rename_i payload encoded
      refine ⟨⟨copies ++ [(r.seq, r.origin, e.frameS (e.timing.isFloor r.mode))], ?_, ?_⟩, blocks', timing, session⟩
      · show e.tx.sentCopies ++ _ = _
        rw [sent, List.append_assoc]
        rfl
      · have member : blockOf r ∈ start.tx.records.map blockOf := blocks ▸ List.mem_map_of_mem (record?_mem found)
        obtain ⟨r', inside, same⟩ := List.mem_map.mp member
        simp only [blockOf, Prod.mk.injEq] at same
        obtain ⟨seq, origin, mode, body⟩ := same
        refine List.rel_append charged (.cons ⟨r', inside, ?_, mode.symm, ?_⟩ .nil)
        · unfold frameS
          rw [seq, origin, timing]
          rfl
        · rw [seq, mode, body, ← timing, ← session]
          exact encoded

theorem Lays.layCopies (seqs : List UInt8) : Lays e (e.layCopies seqs) := by
  have all (places : List (UInt8 × Nat)) {laid : List TxFrame × Engine} (lays : Lays e laid) :
      Lays e (places.foldl (Engine.layCopy seqs.length) laid) := by
    induction places generalizing laid with
    | nil => exact lays
    | cons place rest ih => exact ih (lays.layCopy _ place)
  have none_ : Lays e ([], e) := ⟨⟨[], (List.append_nil _).symm, .nil⟩, rfl, rfl, rfl⟩
  obtain ⟨copies, blocks, timing, session⟩ := all seqs.zipIdx none_
  exact ⟨copies, blocks, timing, session⟩

/-- A transmission's data: its copies are recorded one by one where it is of whole blocks, and none
where it is of pieces or a measurement. -/
structure Charges (start : Engine) (sent : List TxFrame × Engine) : Prop where
  copies : ∃ copies, sent.2.tx.sentCopies = start.tx.sentCopies ++ copies ∧
    (List.Forall₂ (Charged sent.2) sent.1 copies ∨ copies = [] ∧ ∀ f ∈ sent.1, Uncharged f)

theorem Charges.none (e : Engine) : Charges e ([], e) := ⟨[], (List.append_nil _).symm, .inl .nil⟩

theorem Charges.uncharged {start : Engine} {sent : List TxFrame × Engine} (same : sent.2.tx.sentCopies = start.tx.sentCopies)
    (frames : ∀ f ∈ sent.1, Uncharged f) : Charges start sent :=
  ⟨[], same.trans (List.append_nil _).symm, .inr ⟨rfl, frames⟩⟩

theorem Charges.before {start e : Engine} {sent : List TxFrame × Engine} (charges : Charges e sent)
    (same : e.tx.sentCopies = start.tx.sentCopies) : Charges start sent := by
  obtain ⟨copies, is, frames⟩ := charges
  exact ⟨copies, is.trans (congrArg (· ++ copies) same), frames⟩

theorem Lays.charges {start : Engine} {laid : List TxFrame × Engine} (lays : Lays start laid) : Charges start laid := by
  obtain ⟨⟨copies, is, charged⟩, blocks, timing, session⟩ := lays
  refine ⟨copies, is, .inl (charged.imp fun f copy of => ?_)⟩
  obtain ⟨r, member, copy, mode, encoded⟩ := of
  have among : blockOf r ∈ laid.2.tx.records.map blockOf := blocks ▸ List.mem_map_of_mem member
  obtain ⟨r', inside, same⟩ := List.mem_map.mp among
  simp only [blockOf, Prod.mk.injEq] at same
  obtain ⟨seq, origin, mode', body⟩ := same
  refine ⟨r', inside, ?_, mode.trans mode'.symm, ?_⟩
  · unfold frameS
    rw [seq, origin, timing]
    exact copy
  · rw [seq, mode', body, timing, session]
    exact encoded

theorem choosePieces_sentCopies (room : Nat) (seqs : List UInt8) (chosen : List (UInt8 × Nat)) :
    (choosePieces room seqs chosen e).2.tx.sentCopies = e.tx.sentCopies := by
  induction seqs generalizing chosen e with
  | nil => rfl
  | cons s rest ih =>
    unfold choosePieces
    split
    · exact ih e chosen
    · split
      · exact ih e chosen
      · extract_lets take resent
        split
        · rfl
        · exact ih { e with tx := e.tx.modify s _, stats := { e.stats with framesResent := e.stats.framesResent + resent } } _

theorem pieceFrames_charges (seqs : List UInt8) (room : Nat) : Charges e (e.pieceFrames seqs room) := by
  have same := e.choosePieces_sentCopies room seqs []
  unfold pieceFrames
  generalize choosePieces room seqs [] e = laid at same ⊢
  obtain ⟨chosen, e'⟩ := laid
  refine .uncharged same ?_
  intro f member
  obtain ⟨place, _, laid⟩ := List.mem_filterMap.mp member
  unfold layPiece at laid
  simp only [Option.bind_eq_bind, Option.bind_eq_some_iff] at laid
  obtain ⟨r, _, ⟨p, bytes⟩, _, laid⟩ := laid
  split at laid
  · cases laid
  · rename_i payload encoded
    cases laid
    exact ⟨_, _, _, encoded, .inr (Option.some_ne_none _)⟩

theorem measurement_charges (roomS : Option ℚ) : Charges e (e.measurement roomS) := by
  unfold measurement
  split
  · exact .none e
  · extract_lets mode frame count
    split
    · exact .none e
    · refine .uncharged rfl ?_
      intro f member
      obtain ⟨i, _, laid⟩ := List.mem_filterMap.mp member
      unfold measureFrame at laid
      dsimp only at laid
      split at laid
      · cases laid
      · rename_i payload encoded
        cases laid
        exact ⟨_, _, _, encoded, .inl rfl⟩

theorem cutNew_sentCopies (mode room turns : Nat) (probe : Option Nat) (seqs : List UInt8) :
    (cutNew mode room turns probe seqs e).2.tx.sentCopies = e.tx.sentCopies := by
  induction turns generalizing e probe seqs with
  | zero => rfl
  | succ turns ih =>
    unfold cutNew
    split
    · exact ih { e with tx := e.tx.cut _ _ } _ _
    · rfl

theorem fill_sentCopies (fresh : Bool) (mode room : Nat) (probe : Option Nat) (seqs : List UInt8) :
    (e.fill fresh mode room probe seqs).2.tx.sentCopies = e.tx.sentCopies := by
  unfold fill
  split
  · exact e.cutNew_sentCopies mode room room probe seqs
  · rfl

theorem familyFrames_charges (mode : Nat) (probe : Option Nat) (across : Bool) (unacked : List UInt8) (roomS : Option ℚ) :
    Charges e (e.familyFrames mode probe across unacked roomS) := by
  unfold familyFrames
  extract_lets floorOf family seqs room split fresh
  split
  · exact .none e
  · split
    · exact e.pieceFrames_charges split room
    · exact (Lays.layCopies _ _).charges.before (e.fill_sentCopies fresh mode room probe (seqs.take room))

section

variable [Libm]

theorem restrand_sentCopies (chosen : Nat) (asked : Option Nat) (s : UInt8) :
    (e.restrand chosen asked s).tx.sentCopies = e.tx.sentCopies := by
  have split_ (r : TxRecord) (due : Nat) (spent stuck : Bool) :
      (e.splitStranded r asked due spent stuck).tx.sentCopies = e.tx.sentCopies := by
    unfold splitStranded
    split
    · rfl
    · split
      · rfl
      · split
        · rfl
        · dsimp only
          split
          · rfl
          · rfl
  unfold restrand
  split
  · rfl
  · extract_lets due spent stuck
    split
    · split
      · rfl
      · exact split_ _ _ _ _
    · rfl

theorem restrandAll_sentCopies (chosen : Nat) (asked : Option Nat) (seqs : List UInt8) :
    (e.restrandAll chosen asked seqs).tx.sentCopies = e.tx.sentCopies := by
  unfold restrandAll
  induction seqs generalizing e with
  | nil => rfl
  | cons s rest ih => exact (ih _).trans (e.restrand_sentCopies chosen asked s)

theorem dataFrames_charges (roomS : Option ℚ) : Charges e (e.dataFrames roomS) := by
  unfold dataFrames
  split
  · exact .none e
  · split
    · exact e.measurement_charges roomS
    · extract_lets unacked e'
      exact (e'.familyFrames_charges _ _ _ _ _).before (e.restrandAll_sentCopies _ _ _)

end

end Engine

end AetherHF.Link

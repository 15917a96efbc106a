import AetherHF.Phy.Rolling

/-! What each stage of a call keeps of the stream behind the rolling buffer. -/
namespace AetherHF.Phy.Rolling

open Recent

variable {K M T ρ δ : Type}

/-! ### Sizes of either air -/

namespace Modem

variable (m : Modem K M T ρ δ)

/-- Four symbols and the transform's offset fit between two searches. -/
theorem usable_le : 4 * m.symbol + m.fftOffset ≤ 2 * m.streamLookback := by
  unfold symbol fftOffset streamLookback symbol
  cases m.air <;> decide

theorem referenceLen_le : m.referenceLen ≤ 4 * m.symbol := by
  have whole := Nat.div_mul_le_self (2 * m.symbol) segmentLen
  unfold referenceLen
  omega

theorem lookback_le_toneKeep : 2 * m.streamLookback ≤ m.toneKeep := by
  unfold toneKeep streamLookback symbol
  cases m.air <;> decide

/-- The longest frame, and what its transform reaches past it, is kept for the tone floor
anyway. -/
theorem span_le_toneKeep (frameType : FrameType) : (m.air.layoutFor frameType).samples + m.margin ≤ m.toneKeep := by
  unfold toneKeep margin symbol fftOffset
  cases m.air <;> cases frameType <;> decide

end Modem

/-! ### What a receiver holds of the stream -/

variable [Field K] [LinearOrder K] {m : Modem K M T ρ δ}

/-- The bank's row of a position of the stream: that of its reference window, over the
normalisation floor of some part of the stream around it. -/
def IsRow (m : Modem K M T ρ δ) (stream : List (Sample K)) (position : Nat) (row : BankRow K) : Prop :=
  ∃ from_ to_, from_ ≤ position ∧ position + m.referenceLen ≤ to_ ∧ to_ ≤ stream.length ∧
    row = StreamingReceiver.rowOf m (StreamingReceiver.floor m ((stream.take to_).drop from_))
      ((stream.drop position).take m.referenceLen)

/-- Rows are those of the positions from `start` on. -/
def RowsOf (m : Modem K M T ρ δ) (stream : List (Sample K)) (start : Nat) (rows : List (BankRow K)) : Prop :=
  ∀ i row, rows[i]? = some row → IsRow m stream (start + i) row

/-- A blanker in step with some stream. -/
def Flows (blanker : Option (StreamingBlanker K)) : Prop :=
  ∀ s, blanker = some s → ∃ b g stream from_, g.before = 0 ∧ StreamingBlanker.Holds b g stream from_ s

/-- What a receiver holds, once `stream` has entered. -/
structure Rolls (stream : List (Sample K)) (r : StreamingReceiver m) : Prop where
  flows : Flows r.blanker
  buffer : r.buffer = stream.drop r.bufferStart
  kept : r.bufferStart ≤ r.searched - m.streamLookback
  searched : r.searched ≤ stream.length - m.streamLookback
  rows : RowsOf m stream r.bufferStart r.rows
  pending : ∀ p ∈ r.pending, r.bufferStart ≤ p.sync.start ∧
    p.end_ = p.sync.start + (m.air.layoutFor p.sync.frameType).samples

section
variable {stream more : List (Sample K)} {r : StreamingReceiver m}

theorem IsRow.append {position : Nat} {row : BankRow K} (is : IsRow m stream position row) :
    IsRow m (stream ++ more) position row := by
  obtain ⟨from_, to_, before, after, within, rfl⟩ := is
  refine ⟨from_, to_, before, after, by rw [List.length_append]; omega, ?_⟩
  rw [List.take_append_of_le_length within, List.drop_append_of_le_length (by omega),
    List.take_append_of_le_length (by rw [List.length_drop]; omega)]

theorem RowsOf.append {start : Nat} {rows : List (BankRow K)} (all : RowsOf m stream start rows) :
    RowsOf m (stream ++ more) start rows := by
  intro i row at_
  exact (all i row at_).append

theorem RowsOf.drop {start : Nat} {rows : List (BankRow K)} (all : RowsOf m stream start rows) (n : Nat) :
    RowsOf m stream (start + n) (rows.drop n) := by
  intro i row at_
  rw [List.getElem?_drop] at at_
  have here := all (n + i) row at_
  rwa [← Nat.add_assoc] at here

theorem RowsOf.take {start : Nat} {rows : List (BankRow K)} (all : RowsOf m stream start rows) (n : Nat) :
    RowsOf m stream start (rows.take n) := by
  intro i row at_
  rw [List.getElem?_take] at at_
  split at at_
  · exact all i row at_
  · cases at_

theorem RowsOf.concat {start : Nat} {rows : List (BankRow K)} (all : RowsOf m stream start rows) {row : BankRow K}
    (next : IsRow m stream (start + rows.length) row) : RowsOf m stream start (rows ++ [row]) := by
  intro i row' at_
  by_cases earlier : i < rows.length
  · rw [List.getElem?_append_left earlier] at at_
    exact all i row' at_
  · have last : i = rows.length := by
      have := (List.getElem?_eq_some_iff.mp at_).1
      rw [List.length_append, List.length_singleton] at this
      omega
    subst last
    rw [List.getElem?_append_right le_rfl, Nat.sub_self, List.getElem?_cons_zero] at at_
    rwa [← Option.some.inj at_]

namespace Rolls

theorem within (rolls : Rolls stream r) : r.bufferStart ≤ stream.length := by
  have := rolls.kept
  have := rolls.searched
  omega

theorem length (rolls : Rolls stream r) : r.bufferStart + r.buffer.length = stream.length := by
  have := rolls.within
  rw [rolls.buffer, List.length_drop]
  omega

theorem seen (rolls : Rolls stream r) : r.samplesSeen = stream.length := rolls.length

end Rolls

end

/-! ### A block entering -/

theorem Flows.process {s : StreamingBlanker K} (flows : Flows (some s)) (norm : Sample K → K) (block : List (Sample K)) :
    ∃ out s', s.process norm block = some (out, s') ∧ Flows (some s') := by
  obtain ⟨b, g, stream, from_, aligned, holds⟩ := flows s rfl
  -- the blanker holds as much of a stream that goes on with the block
  have length : (stream.take g.fed).length = g.fed := by rw [List.length_take, min_eq_left holds.present]
  have anew : StreamingBlanker.Holds b g (stream.take g.fed ++ block) from_ s :=
    holds.anew (List.take_left' length) (by rw [List.length_append, length]; exact Nat.le_add_right ..)
  have next : block <+: (stream.take g.fed ++ block).drop g.fed := (List.drop_left' length).symm ▸ List.prefix_refl block
  obtain ⟨out, s', from', is, holds', -⟩ := anew.process_length norm (by rw [aligned]; exact Nat.zero_mod _) next
  refine ⟨out, s', is, fun s'' same => ?_⟩
  rw [← Option.some.inj same]
  refine ⟨b, _, _, from', ?_, holds'⟩
  simpa only [Progress.feed] using aligned

theorem Rolls.enter {stream : List (Sample K)} {r : StreamingReceiver m} (rolls : Rolls stream r) (block : List (Sample K)) :
    ∃ arrived blanker band, r.enter block = some { r with blanker, band, buffer := r.buffer ++ arrived } ∧
      Rolls (stream ++ arrived) { r with blanker, band, buffer := r.buffer ++ arrived } := by
  have keeps {blanker : Option (StreamingBlanker K)} (flows : Flows blanker) (band : Fir K (Sample K))
      (arrived : List (Sample K)) :
      Rolls (stream ++ arrived) { r with blanker, band, buffer := r.buffer ++ arrived } :=
    { flows
      buffer := by
        rw [List.drop_append_of_le_length rolls.within]
        exact congrArg (· ++ arrived) rolls.buffer
      kept := rolls.kept
      searched := by
        have := rolls.searched
        rw [List.length_append]
        show r.searched ≤ _
        omega
      rows := rolls.rows.append
      pending := rolls.pending }
  cases is : r.blanker with
  | none =>
    refine ⟨(r.band.process block).2, none, (r.band.process block).1, ?_, keeps ?_ _ _⟩
    · simp only [StreamingReceiver.enter, is, Option.bind_eq_bind, Option.bind_some]
      rfl
    · intro s none_
      cases none_
  | some s =>
    obtain ⟨out, s', processed, flows⟩ := Flows.process (is ▸ rolls.flows) m.norm block
    refine ⟨(r.band.process out).2, some s', (r.band.process out).1, ?_, keeps flows _ _⟩
    simp only [StreamingReceiver.enter, is, processed, Option.map_some, Option.bind_eq_bind, Option.bind_some]
    rfl

/-! ### The bank's rows -/

theorem Rolls.fillRows {stream : List (Sample K)} {r : StreamingReceiver m} (rolls : Rolls stream r) {last : Nat}
    (complete : last + m.referenceLen = stream.length) {rows : List (BankRow K)} (all : RowsOf m stream r.bufferStart rows) :
    ∃ rows', r.fillRows (StreamingReceiver.floor m r.buffer) last rows = some rows' ∧
      RowsOf m stream r.bufferStart rows' ∧ last < r.bufferStart + rows'.length := by
  generalize left : last + 1 - (r.bufferStart + rows.length) = n
  induction n generalizing rows with
  | zero =>
    refine ⟨rows, ?_, all, by omega⟩
    rw [StreamingReceiver.fillRows, if_neg (by omega)]
  | succ n ih =>
    have length := rolls.length
    have window : checkedSlice r.buffer rows.length (rows.length + m.referenceLen) =
        some ((stream.drop (r.bufferStart + rows.length)).take m.referenceLen) := by
      rw [StreamingBlanker.checkedSlice_of_le (Nat.le_add_right ..) (by omega), List.drop_take, Nat.add_sub_cancel_left,
        rolls.buffer, List.drop_drop]
    have next : IsRow m stream (r.bufferStart + rows.length) (StreamingReceiver.rowOf m (StreamingReceiver.floor m r.buffer)
        ((stream.drop (r.bufferStart + rows.length)).take m.referenceLen)) := by
      refine ⟨r.bufferStart, stream.length, Nat.le_add_right .., by omega, le_rfl, ?_⟩
      rw [List.take_length, ← rolls.buffer]
    obtain ⟨rows', filled, all', reaches⟩ := ih (all.concat next) (by rw [List.length_append, List.length_singleton]; omega)
    refine ⟨rows', ?_, all', reaches⟩
    rw [StreamingReceiver.fillRows, if_pos (by omega), window]
    exact filled

theorem Rolls.extendRows {stream : List (Sample K)} {r : StreamingReceiver m} (rolls : Rolls stream r) :
    ∃ rows, r.extendRows = some { r with rows } ∧ Rolls stream { r with rows } ∧
      stream.length < r.bufferStart + rows.length + m.referenceLen := by
  have seen := rolls.seen
  unfold StreamingReceiver.extendRows
  rw [seen]
  by_cases short : stream.length < m.referenceLen
  · refine ⟨r.rows, if_pos short, rolls, by omega⟩
  · rw [if_neg short]
    by_cases filled : stream.length - m.referenceLen < r.bufferStart + r.rows.length
    · exact ⟨r.rows, if_pos filled, rolls, by omega⟩
    · have complete : stream.length - m.referenceLen + m.referenceLen = stream.length := by omega
      obtain ⟨rows, is, all, reaches⟩ := rolls.fillRows complete rolls.rows
      refine ⟨rows, ?_, { rolls with rows := all }, by omega⟩
      rw [if_neg filled, is]
      rfl

/-! ### The search -/

/-- What is announced, of all that was announced before: none of it among the last remembered. -/
def Announces (announced : List Nat) (fresh : List (PendingFrame K)) (announced' : List Nat) : Prop :=
  ∀ all, announced = all.rtake doneMemory → Apart doneMemory all →
    announced' = (all ++ fresh.map (·.start)).rtake doneMemory ∧ Apart doneMemory (all ++ fresh.map (·.start))

omit [Field K] [LinearOrder K] in
theorem Announces.trans {announced announced' announced'' : List Nat} {fresh fresh' : List (PendingFrame K)}
    (first : Announces announced fresh announced') (second : Announces announced' fresh' announced'') :
    Announces announced (fresh ++ fresh') announced'' := by
  intro all is apart
  obtain ⟨is', apart'⟩ := first all is apart
  obtain ⟨is'', apart''⟩ := second _ is' apart'
  rw [List.map_append, ← List.append_assoc]
  exact ⟨is'', apart''⟩

omit [Field K] [LinearOrder K] in
theorem announces_nil (announced : List Nat) : Announces announced ([] : List (PendingFrame K)) announced := by
  intro all is apart
  rw [List.map_nil, List.append_nil]
  exact ⟨is, apart⟩

/-- A frame announced changes what is announced and nothing else. -/
theorem announce_eq (r : StreamingReceiver m) (frame : PendingFrame K) :
    ∃ announced fresh, r.announce frame = { r with announced, fresh := r.fresh ++ fresh } ∧
      Announces r.announced fresh announced := by
  unfold StreamingReceiver.announce
  by_cases known : frame.start ∈ r.announced
  · refine ⟨r.announced, [], ?_, announces_nil _⟩
    rw [if_pos known, List.append_nil]
  · refine ⟨remember doneMemory r.announced frame.start, [frame], if_neg known, ?_⟩
    intro all is apart
    rw [is] at known
    rw [is]
    exact ⟨remember_rtake _, apart.concat known⟩

theorem announceAll_eq {α : Type} (frame : α → PendingFrame K) (arrivals : List α) (r : StreamingReceiver m) :
    ∃ announced fresh, arrivals.foldl (fun r arrival => r.announce (frame arrival)) r =
        { r with announced, fresh := r.fresh ++ fresh } ∧ Announces r.announced fresh announced := by
  induction arrivals generalizing r with
  | nil => exact ⟨r.announced, [], by rw [List.append_nil]; rfl, announces_nil _⟩
  | cons arrival rest ih =>
    obtain ⟨announced, fresh, is, announces⟩ := announce_eq r (frame arrival)
    obtain ⟨announced', fresh', is', announces'⟩ := ih (r.announce (frame arrival))
    rw [is] at is' announces'
    refine ⟨announced', fresh ++ fresh', ?_, announces.trans announces'⟩
    rw [List.foldl_cons, is, is', ← List.append_assoc]

/-- The frames acquisition finds, each pending and announced unless it is hidden. -/
theorem considerAll_eq (base : Nat) (found : List (Acquisition K)) (r : StreamingReceiver m) :
    ∃ frames announced fresh, found.foldl (fun r acquisition => r.consider base acquisition) r =
        { r with pending := r.pending ++ frames, announced, fresh := r.fresh ++ fresh } ∧
      (∀ p ∈ frames, ∃ acquisition ∈ found, p = StreamingReceiver.absolute m acquisition base) ∧
      Announces r.announced fresh announced := by
  induction found generalizing r with
  | nil =>
    refine ⟨[], r.announced, [], ?_, ?_, announces_nil _⟩
    · rw [List.append_nil, List.append_nil]
      rfl
    · intro p none_
      exact absurd none_ List.not_mem_nil
  | cons acquisition rest ih =>
    obtain ⟨frames, announced, fresh, is, among, announces⟩ := ih (r.consider base acquisition)
    rw [List.foldl_cons, is]
    by_cases hides : r.hidden (StreamingReceiver.absolute m acquisition base)
    · rw [StreamingReceiver.consider, if_pos hides] at announces ⊢
      refine ⟨frames, announced, fresh, rfl, ?_, announces⟩
      intro p member
      obtain ⟨a, inside, rfl⟩ := among p member
      exact ⟨a, List.mem_cons_of_mem _ inside, rfl⟩
    · rw [StreamingReceiver.consider, if_neg hides] at announces ⊢
      obtain ⟨announced', fresh', is', announces'⟩ := announce_eq
        { r with pending := r.pending ++ [StreamingReceiver.absolute m acquisition base] }
        ⟨(StreamingReceiver.absolute m acquisition base).sync.start, (StreamingReceiver.absolute m acquisition base).end_,
          m.detectConfidence (StreamingReceiver.absolute m acquisition base).sync, false,
          (StreamingReceiver.absolute m acquisition base).sync.frameType = FrameType.control⟩
      rw [is'] at announces ⊢
      refine ⟨StreamingReceiver.absolute m acquisition base :: frames, announced, fresh' ++ fresh, ?_, ?_,
        announces'.trans announces⟩
      · simp only [List.append_assoc, List.singleton_append]
      · intro p member
        rcases List.mem_cons.mp member with rfl | later
        · exact ⟨acquisition, List.mem_cons_self .., rfl⟩
        · obtain ⟨a, inside, rfl⟩ := among p later
          exact ⟨a, List.mem_cons_of_mem _ inside, rfl⟩

/-- The part of the stream a search looks at, where there is enough of it. -/
def StreamingReceiver.region (r : StreamingReceiver m) : Option (Nat × Nat) :=
  if r.buffer.length < (r.searchStart - r.bufferStart) + 4 * m.symbol then none else some (r.searchStart, r.samplesSeen)

/-- A search adds frames of its region to those pending, and leaves at most twice the lookback
unsearched. -/
structure Looks (stream : List (Sample K)) (r r' : StreamingReceiver m) : Prop where
  rolls : Rolls stream r'
  only : ∃ frames announced fresh searched rows,
    r' = { r with pending := r.pending ++ frames, announced, fresh := r.fresh ++ fresh, searched, rows } ∧
      Announces r.announced fresh announced ∧ ∀ p ∈ frames, p.sync.start < stream.length
  near : stream.length ≤ r'.searched - m.streamLookback + 2 * m.streamLookback
  /-- The detector is given its region of the stream, and the row of each position there. -/
  looked : ∀ start stop, r.region = some (start, stop) → ∃ output rows,
    r' = StreamingReceiver.takeIn { r with rows } start
      (m.detectWith ((stream.take stop).drop start) output maxFramesPerSearch) ∧
      RowsOf m stream start output ∧ output.length + m.referenceLen = stop - start + 1

theorem Rolls.takeIn {stream : List (Sample K)} {r : StreamingReceiver m} (rolls : Rolls stream r)
    {found : List (Acquisition K)} (inside : ∀ a ∈ found, a.sync.start + r.searchStart < stream.length) :
    Rolls stream (r.takeIn r.searchStart found) ∧
      stream.length ≤ (r.takeIn r.searchStart found).searched - m.streamLookback + 2 * m.streamLookback ∧
      ∃ frames announced fresh searched, r.takeIn r.searchStart found =
          { r with pending := r.pending ++ frames, announced, fresh := r.fresh ++ fresh, searched } ∧
        Announces r.announced fresh announced ∧ ∀ p ∈ frames, p.sync.start < stream.length := by
  have start : r.bufferStart ≤ r.searchStart := le_max_left ..
  obtain ⟨frames, announced, fresh, is, among, announces⟩ := considerAll_eq r.searchStart found r
  have seen := rolls.seen
  unfold StreamingReceiver.takeIn
  rw [is]
  refine ⟨?_, ?_, frames, announced, fresh, _, rfl, announces, ?_⟩
  · refine
      { flows := rolls.flows
        buffer := rolls.buffer
        kept := ?_
        searched := ?_
        rows := rolls.rows
        pending := ?_ }
    · have kept := rolls.kept
      have grows : r.searched ≤ max r.searched (r.samplesSeen - m.streamLookback) := le_max_left ..
      show r.bufferStart ≤ max r.searched (r.samplesSeen - m.streamLookback) - m.streamLookback
      omega
    · refine max_le rolls.searched ?_
      rw [← seen]
      exact le_rfl
    · intro p member
      rcases List.mem_append.mp member with earlier | new
      · exact rolls.pending p earlier
      · obtain ⟨a, _, rfl⟩ := among p new
        refine ⟨?_, rfl⟩
        show r.bufferStart ≤ a.sync.start + r.searchStart
        omega
  · have reaches : r.samplesSeen - m.streamLookback ≤ max r.searched (r.samplesSeen - m.streamLookback) := le_max_right ..
    show stream.length ≤ max r.searched (r.samplesSeen - m.streamLookback) - m.streamLookback + 2 * m.streamLookback
    omega
  · intro p new
    obtain ⟨a, member, rfl⟩ := among p new
    exact inside a member

theorem Rolls.look {stream : List (Sample K)} {r : StreamingReceiver m} (rolls : Rolls stream r)
    (complete : stream.length < r.bufferStart + r.rows.length + m.referenceLen) :
    ∃ r', r.look = some r' ∧ Looks stream r r' := by
  have start : r.bufferStart ≤ r.searchStart := le_max_left ..
  have startIs : r.searchStart = r.searched - m.streamLookback := max_eq_right rolls.kept
  have length := rolls.length
  unfold StreamingReceiver.look
  rw [StreamingBlanker.checkedSub_of_le start, Option.bind_eq_bind, Option.bind_some]
  by_cases short : r.buffer.length < r.searchStart - r.bufferStart + 4 * m.symbol
  · refine ⟨r, if_pos short, rolls, ⟨[], r.announced, [], r.searched, r.rows, ?_, announces_nil _, ?_⟩, ?_, ?_⟩
    · rw [List.append_nil, List.append_nil]
    · intro p none_
      exact absurd none_ List.not_mem_nil
    · have usable := m.usable_le
      omega
    · intro start stop is
      rw [StreamingReceiver.region, if_pos short] at is
      cases is
  · have inside : r.searchStart - r.bufferStart ≤ r.buffer.length := by omega
    have region : (r.buffer.take r.buffer.length).drop (r.searchStart - r.bufferStart) = stream.drop r.searchStart := by
      have place : r.bufferStart + (r.searchStart - r.bufferStart) = r.searchStart := by omega
      rw [List.take_length, rolls.buffer, List.drop_drop, place]
    rw [if_neg short, StreamingBlanker.checkedSlice_of_le inside le_rfl, Option.bind_eq_bind, Option.bind_some, region]
    have output : RowsOf m stream r.searchStart ((r.rows.drop (r.searchStart - r.bufferStart)).take
        ((stream.drop r.searchStart).length - m.referenceLen + 1)) := by
      have place : r.bufferStart + (r.searchStart - r.bufferStart) = r.searchStart := by omega
      have dropped := rolls.rows.drop (r.searchStart - r.bufferStart)
      rw [place] at dropped
      exact dropped.take _
    have whole : ((r.rows.drop (r.searchStart - r.bufferStart)).take
        ((stream.drop r.searchStart).length - m.referenceLen + 1)).length + m.referenceLen =
          r.samplesSeen - r.searchStart + 1 := by
      have fits := m.referenceLen_le
      rw [List.length_take, List.length_drop, List.length_drop, rolls.seen]
      omega
    dsimp only
    generalize (r.rows.drop (r.searchStart - r.bufferStart)).take _ = rows at output whole ⊢
    have within (a : Acquisition K) (found : a ∈ m.detectWith (stream.drop r.searchStart) rows maxFramesPerSearch) :
        a.sync.start + r.searchStart < stream.length := by
      have bound := m.detectWith_inside _ _ _ a found
      rw [List.length_drop] at bound
      omega
    obtain ⟨rolls', near, frames, announced, fresh, searched, only⟩ := rolls.takeIn within
    refine ⟨_, rfl, rolls', ⟨frames, announced, fresh, searched, r.rows, only⟩, near, ?_⟩
    intro start' stop is
    rw [StreamingReceiver.region, if_neg short] at is
    obtain ⟨rfl, rfl⟩ := Prod.mk.inj (Option.some.inj is)
    refine ⟨rows, r.rows, ?_, output, whole⟩
    rw [rolls.seen, List.take_length]

theorem Rolls.search {stream : List (Sample K)} {r : StreamingReceiver m} (rolls : Rolls stream r) :
    ∃ r', r.search = some r' ∧ Looks stream r r' := by
  obtain ⟨rows, is, rolls', complete⟩ := rolls.extendRows
  obtain ⟨r', is', looks⟩ := rolls'.look complete
  obtain ⟨frames, announced, fresh, searched, rows', only⟩ := looks.only
  refine ⟨r', ?_, { looks with only := ⟨frames, announced, fresh, searched, rows', only⟩ }⟩
  rw [StreamingReceiver.search, is]
  exact is'

/-! ### Frames taken -/

/-- All of a frame, and what its transform reaches past it, has been seen. -/
def due (m : Modem K M T ρ δ) (seen : Nat) (p : Pending K) : Bool := p.end_ + m.margin ≤ seen

/-- What is remembered of a frame taken. -/
def Remembers (p : Pending K) (k : Known K) : Prop := k.start = p.sync.start ∧ k.end_ = p.end_

/-- A frame in the buffer is taken and remembered, whatever the demodulator makes of it. -/
theorem takeFrame_eq {r : StreamingReceiver m} {frame : Pending K} (here : r.bufferStart ≤ frame.sync.start) :
    ∃ modem known framesDecoded out, r.takeFrame frame =
        some ({ r with modem, done := remember doneMemory r.done known, framesDecoded }, out) ∧ Remembers frame known := by
  unfold StreamingReceiver.takeFrame
  by_cases decodedAround : r.insideDecoded (StreamingReceiver.known m frame).start
  · refine ⟨r.modem, StreamingReceiver.known m frame, r.framesDecoded, [], if_pos decodedAround, rfl, rfl⟩
  · simp only [if_neg decodedAround, StreamingBlanker.checkedSub_of_le here, Option.bind_eq_bind, Option.bind_some]
    rcases m.decodeSync r.modem r.buffer { frame.sync with start := frame.sync.start - r.bufferStart } with ⟨modem, decoded⟩
    cases decoded with
    | none => exact ⟨modem, StreamingReceiver.known m frame, r.framesDecoded, [], rfl, rfl, rfl⟩
    | some decoded =>
      exact ⟨modem, { StreamingReceiver.known m frame with decoded := decoded.ok }, r.framesDecoded + 1,
        [decoded.placedOfdm frame.sync], rfl, rfl, rfl⟩

/-- The frames due are taken one after another, and the others stay pending. -/
theorem harvestEach_eq (seen : Nat) (r : StreamingReceiver m) {frames : List (Pending K)}
    (here : ∀ p ∈ frames, r.bufferStart ≤ p.sync.start) :
    ∃ modem knowns framesDecoded out, StreamingReceiver.harvestEach seen r frames =
        some ({ r with modem, done := knowns.foldl (remember doneMemory) r.done, framesDecoded }, out,
          frames.filter fun p => !due m seen p) ∧
      List.Forall₂ Remembers (frames.filter (due m seen)) knowns := by
  induction frames generalizing r with
  | nil => exact ⟨r.modem, [], r.framesDecoded, [], rfl, .nil⟩
  | cons frame rest ih =>
    obtain ⟨first, later⟩ := List.forall_mem_cons.mp here
    by_cases early : seen < frame.end_ + m.margin
    · have notDue : due m seen frame = false := decide_eq_false (by omega)
      obtain ⟨modem, knowns, framesDecoded, out, is, all⟩ := ih _ later
      refine ⟨modem, knowns, framesDecoded, out, ?_, ?_⟩
      · rw [StreamingReceiver.harvestEach, if_pos early, is, List.filter_cons_of_pos (by rw [notDue]; rfl)]
        rfl
      · rwa [List.filter_cons_of_neg (by rw [notDue]; exact Bool.false_ne_true)]
    · have isDue : due m seen frame = true := decide_eq_true (by omega)
      obtain ⟨modem, known, framesDecoded, out, taken, remembers⟩ := takeFrame_eq first
      obtain ⟨modem', knowns, framesDecoded', out', is, all⟩ :=
        ih (r := { r with modem, done := remember doneMemory r.done known, framesDecoded }) later
      refine ⟨modem', known :: knowns, framesDecoded', out ++ out', ?_, ?_⟩
      · rw [StreamingReceiver.harvestEach, if_neg early, taken, Option.bind_eq_bind, Option.bind_some]
        dsimp only at is ⊢
        rw [is, List.filter_cons_of_neg (by rw [isDue]; exact Bool.false_ne_true)]
        rfl
      · rw [List.filter_cons_of_pos isDue]
        exact .cons remembers all

/-- What a harvest does: the frames due are remembered, and the others stay pending. -/
structure Harvests (r r' : StreamingReceiver m) : Prop where
  only : ∃ modem done framesDecoded,
    r' = { r with modem, done, framesDecoded, pending := (StreamingReceiver.byStart r.pending).filter fun p => !due m r.samplesSeen p }
  remembers : ∃ knowns, List.Forall₂ Remembers ((StreamingReceiver.byStart r.pending).filter (due m r.samplesSeen)) knowns ∧
    r'.done = knowns.foldl (remember doneMemory) r.done

theorem Rolls.harvest {stream : List (Sample K)} {r : StreamingReceiver m} (rolls : Rolls stream r) :
    ∃ r' out, r.harvest = some (r', out) ∧ Rolls stream r' ∧ Harvests r r' := by
  have among : ∀ p ∈ StreamingReceiver.byStart r.pending, p ∈ r.pending := fun p member =>
    (List.mem_insertionSort _).mp member
  obtain ⟨modem, knowns, framesDecoded, out, is, all⟩ :=
    harvestEach_eq r.samplesSeen { r with pending := [] } fun p member => (rolls.pending p (among p member)).1
  refine ⟨{ r with
    modem
    done := knowns.foldl (remember doneMemory) r.done
    framesDecoded
    pending := (StreamingReceiver.byStart r.pending).filter fun p => !due m r.samplesSeen p }, out, ?_, ?_,
    ⟨_, _, _, rfl⟩, knowns, all, rfl⟩
  · rw [StreamingReceiver.harvest, is]
    rfl
  · exact
      { flows := rolls.flows
        buffer := rolls.buffer
        kept := rolls.kept
        searched := rolls.searched
        rows := rolls.rows
        pending := fun p member => rolls.pending p (among p (List.mem_filter.mp member).1) }

/-! ### The tone floor -/

theorem takeTones_eq {r : StreamingReceiver m} {found : List (ToneSync ρ)} (here : ∀ sync ∈ found, r.bufferStart ≤ sync.start) :
    ∃ modem framesDecoded out, r.takeTones found = some ({ r with modem, framesDecoded }, out) := by
  induction found generalizing r with
  | nil => exact ⟨r.modem, r.framesDecoded, [], rfl⟩
  | cons sync rest ih =>
    obtain ⟨first, later⟩ := List.forall_mem_cons.mp here
    rw [StreamingReceiver.takeTones, StreamingBlanker.checkedSub_of_le first, Option.bind_eq_bind, Option.bind_some]
    rcases m.decodeTone r.modem r.buffer { sync with start := sync.start - r.bufferStart } with ⟨modem, decoded⟩
    cases decoded with
    | none =>
      obtain ⟨modem', framesDecoded, out, is⟩ := ih (r := { r with modem }) later
      exact ⟨modem', framesDecoded, out, is⟩
    | some decoded =>
      obtain ⟨modem', framesDecoded, out, is⟩ := ih (r := { r with modem, framesDecoded := r.framesDecoded + 1 }) later
      refine ⟨modem', framesDecoded, decoded.placedTone sync :: out, ?_⟩
      dsimp only
      rw [is]
      rfl

/-- The tone floor decodes and announces, and changes nothing of the buffer and the frames
pending. -/
structure Tones (r r' : StreamingReceiver m) : Prop where
  only : ∃ modem tone framesDecoded announced fresh,
    r' = { r with modem, tone, framesDecoded, announced, fresh := r.fresh ++ fresh } ∧ Announces r.announced fresh announced

theorem Rolls.toneFloor {stream : List (Sample K)} {r : StreamingReceiver m} (rolls : Rolls stream r) :
    ∃ r' out, r.toneFloor = some (r', out) ∧ Rolls stream r' ∧ Tones r r' := by
  have inside := m.toneFeed_inside r.tone r.buffer r.bufferStart
  obtain ⟨modem, framesDecoded, out, is⟩ :=
    takeTones_eq (r := { r with tone := (m.toneFeed r.tone r.buffer r.bufferStart).1 }) fun sync member => (inside sync member).1
  unfold StreamingReceiver.toneFloor
  simp only [is, Option.bind_eq_bind, Option.bind_some]
  obtain ⟨announced, fresh, is', announces⟩ := announceAll_eq
    (fun arrival : ToneArrival K => (⟨arrival.start, arrival.end_, arrival.statistic / (announceThreshold : K), true,
      arrival.kind.control⟩ : PendingFrame K)) (m.arriving (m.toneFeed r.tone r.buffer r.bufferStart).1)
    { r with tone := (m.toneFeed r.tone r.buffer r.bufferStart).1, modem, framesDecoded }
  refine ⟨_, out, rfl, ?_, ?_⟩
  · rw [is']
    exact
      { flows := rolls.flows
        buffer := rolls.buffer
        kept := rolls.kept
        searched := rolls.searched
        rows := rolls.rows
        pending := rolls.pending }
  · exact ⟨modem, _, framesDecoded, announced, fresh, is', announces⟩

/-! ### What is dropped -/

namespace StreamingReceiver

variable (r : StreamingReceiver m)

theorem keep_le {bound : Nat} (needed : r.searched - m.streamLookback ≤ bound)
    (held : r.samplesSeen - r.maxBuffer ≤ bound) (start : r.bufferStart ≤ bound) : r.keep ≤ bound := by
  unfold keep
  refine max_le (max_le ((min_le_left ..).trans ?_) held) start
  split
  · exact (min_le_right ..).trans needed
  · exact needed

theorem keep_le_pending {p : Pending K} (member : p ∈ r.pending) (held : r.samplesSeen - r.maxBuffer ≤ p.sync.start)
    (start : r.bufferStart ≤ p.sync.start) : r.keep ≤ p.sync.start := by
  unfold keep
  refine max_le (max_le ((min_le_left ..).trans ?_) held) start
  have among : p.sync.start ∈ r.pending.map fun p => p.sync.start := List.mem_map_of_mem member
  split
  · rename_i least is
    exact (min_le_left ..).trans ((List.min?_eq_some_iff.mp is).2 _ among)
  · rename_i none_
    rw [List.min?_eq_none_iff.mp none_] at among
    exact absurd among List.not_mem_nil

end StreamingReceiver

/-- Nothing still needed is dropped, and no more is held than the buffer is for. -/
theorem Rolls.trim {stream : List (Sample K)} {r : StreamingReceiver m} (rolls : Rolls stream r)
    (near : stream.length ≤ r.searched - m.streamLookback + 2 * m.streamLookback)
    (waiting : ∀ p ∈ r.pending, due m stream.length p = false) :
    ∃ r' buffer bufferStart rows, r.trim = some r' ∧ r' = { r with buffer, bufferStart, rows } ∧ Rolls stream r' ∧
      r'.buffer.length ≤ r'.maxBuffer := by
  have seen := rolls.seen
  have within := rolls.within
  have length := rolls.length
  have kept := rolls.kept
  have searched := rolls.searched
  have roomy := r.roomy
  have lookback := m.lookback_le_toneKeep
  have first : r.bufferStart ≤ r.keep := le_max_right ..
  have held : r.samplesSeen - r.maxBuffer ≤ r.keep := (le_max_right ..).trans (le_max_left ..)
  have unsearched : r.keep ≤ r.searched - m.streamLookback := r.keep_le le_rfl (by omega) kept
  have fits : r.keep ≤ stream.length := by omega
  have starts : ∀ p ∈ r.pending, r.keep ≤ p.sync.start := by
    intro p member
    obtain ⟨start, span⟩ := rolls.pending p member
    have longest := m.span_le_toneKeep p.sync.frameType
    have early : ¬ p.end_ + m.margin ≤ stream.length := of_decide_eq_false (waiting p member)
    exact r.keep_le_pending member (by omega) start
  unfold StreamingReceiver.trim
  rw [StreamingBlanker.checkedSub_of_le first, Option.bind_eq_bind, Option.bind_some]
  by_cases nothing : r.keep - r.bufferStart = 0
  · refine ⟨r, r.buffer, r.bufferStart, r.rows, if_pos nothing, rfl, rolls, by omega⟩
  · rw [if_neg nothing, StreamingBlanker.checkedSlice_of_le (by omega) le_rfl, Option.bind_eq_bind, Option.bind_some,
      StreamingBlanker.checkedSlice_of_le (min_le_right ..) le_rfl, Option.bind_eq_bind, Option.bind_some, List.take_length,
      List.take_length]
    have place : r.bufferStart + (r.keep - r.bufferStart) = r.keep := by omega
    have rows : r.rows.drop (min (r.keep - r.bufferStart) r.rows.length) = r.rows.drop (r.keep - r.bufferStart) := by
      rcases Nat.le_total (r.keep - r.bufferStart) r.rows.length with few | many
      · rw [min_eq_left few]
      · rw [min_eq_right many, List.drop_length, List.drop_of_length_le many]
    rw [place, rows]
    refine ⟨_, _, _, _, rfl, rfl, ?_, ?_⟩
    · refine
        { flows := rolls.flows
          buffer := ?_
          kept := unsearched
          searched := searched
          rows := ?_
          pending := fun p member => ⟨starts p member, (rolls.pending p member).2⟩ }
      · show r.buffer.drop _ = stream.drop r.keep
        rw [rolls.buffer, List.drop_drop, place]
      · have dropped := rolls.rows.drop (r.keep - r.bufferStart)
        rwa [place] at dropped
    · show (r.buffer.drop _).length ≤ r.maxBuffer
      rw [List.length_drop]
      omega

end AetherHF.Phy.Rolling

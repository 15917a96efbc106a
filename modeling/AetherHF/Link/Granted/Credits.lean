import AetherHF.Link.Granted.Acknowledged

/-! The blocks credited over whole runs: each at most once in its session. -/
namespace AetherHF.Link

/-! ### The blocks of a session, by their places in it -/

/-- A block of a session's, by its place: one credited is known to have come. -/
structure PlaceOf (credited : Set Nat) (r : TxRecord) (k : Nat) : Prop where
  seq : r.seq = UInt8.ofNat k
  acked : r.acked = false → k ∉ credited

/-- The sender's window: the blocks of the session from the `taken`th on, those of `credited` acknowledged. -/
structure Places (credited : Set Nat) (tx : Sender) (taken count : Nat) : Prop where
  room : count ≤ window
  base : tx.base = UInt8.ofNat taken
  next : tx.next = UInt8.ofNat (taken + count)
  records : List.Forall₂ (PlaceOf credited) tx.records (List.range' taken count)
  before : ∀ k ∈ credited, k < taken + count

namespace Places

variable {credited : Set Nat} {tx tx' : Sender} {taken count : Nat}

theorem fresh (base : tx.base = 0) (next : tx.next = 0) (records : tx.records = []) : Places ∅ tx 0 0 where
  room := Nat.zero_le _
  base := base
  next := next
  records := records ▸ .nil
  before _ among := among.elim

theorem reworked (places : Places credited tx taken count) (base : tx'.base = tx.base) (next : tx'.next = tx.next)
    (records : List.Forall₂ TxRecord.Reworked tx.records tx'.records) : Places credited tx' taken count where
  room := places.room
  base := base.trans places.base
  next := next.trans places.next
  records := by
    have of := places.records
    generalize List.range' taken count = ks, tx.records = was, tx'.records = is at of records ⊢
    induction records generalizing ks with
    | nil => exact of
    | cons again _ ih =>
      cases of with
      | cons here rest => exact .cons ⟨again.seq.trans here.seq, fun open_ => here.acked (again.acked ▸ open_)⟩ (ih _ rest)
  before := places.before

/-- Blocks less than 256 places apart have numbers of their own. -/
theorem unlike {records : List TxRecord} {ks : List Nat} {k : Nat} (of : List.Forall₂ (PlaceOf credited) records ks)
    (apart : ∀ j ∈ ks, j ≠ k ∧ j < k + 256 ∧ k < j + 256) : ∀ r ∈ records, r.seq ≠ UInt8.ofNat k := by
  intro r member same
  obtain ⟨j, among, place⟩ := forall₂_mem of member
  obtain ⟨other, high, low⟩ := apart j among
  rcases Nat.le_total j k with before | after
  · exact other (ofNat_inj_near (place.seq ▸ same) before low)
  · exact other (ofNat_inj_near (place.seq ▸ same).symm after high).symm

theorem distance (places : Places credited tx taken count) {k : Nat} (low : taken ≤ k) (high : k < taken + 256) :
    seqDistance (UInt8.ofNat k) tx.base = k - taken := by
  have near := seqDistance_ofNat k taken
  rw [places.base]
  omega

theorem cut (places : Places credited tx taken count) (rung take : Nat) (room : seqDistance tx.next tx.base < window) :
    Places credited (tx.cut rung take) taken (count + 1) := by
  have within := places.room
  rw [show window = 16 from rfl] at room within
  have near := places.distance (k := taken + count) (by omega) (by omega)
  rw [places.next] at room
  refine ⟨?_, places.base, ?_, ?_, ?_⟩
  · rw [show window = 16 from rfl]
    omega
  · simp only [Sender.cut, places.next]
    exact seqAfter_ofNat _ 1
  · have unlike := unlike (k := taken + count) places.records fun j among => by
      have := List.mem_range'_1.mp among
      omega
    simp only [Sender.cut, Sender.insert, places.next]
    rw [filter_unlike unlike, List.range'_concat, Nat.one_mul]
    refine List.rel_append places.records (.cons ⟨rfl, fun _ among => ?_⟩ .nil)
    exact absurd (places.before _ among) (Nat.lt_irrefl _)
  · intro k among
    exact (places.before k among).trans (Nat.lt_succ_self _)

theorem release (places : Places credited tx taken count) (turns : Nat) :
    ∃ d, d ≤ count ∧ Places credited (tx.release turns) (taken + d) (count - d) := by
  induction turns generalizing tx taken count with
  | zero => exact ⟨0, Nat.zero_le _, places⟩
  | succ turns ih =>
    unfold Sender.release
    split
    · rename_i lowest
      obtain ⟨r, found, marked⟩ := (Option.any_eq_true _ _).mp lowest.2
      have member := record?_mem found
      have within := places.room
      rw [show window = 16 from rfl] at within
      obtain ⟨j, among, _⟩ := forall₂_mem places.records member
      have some_ : 0 < count := by
        have := List.mem_range'_1.mp among
        omega
      obtain ⟨count, rfl⟩ := Nat.exists_eq_add_of_le' some_
      have rest : Places credited { tx.remove tx.base with base := seqAfter tx.base 1 } (taken + 1) count := by
        refine ⟨?_, ?_, ?_, ?_, fun k among => ?_⟩
        · rw [show window = 16 from rfl]
          omega
        · simp only [places.base]
          exact seqAfter_ofNat _ 1
        · rw [show taken + 1 + count = taken + (count + 1) by omega]
          exact places.next
        · have records := places.records
          rw [List.range'_succ] at records
          cases split : tx.records with
          | nil => rw [split] at member; cases member
          | cons first later =>
            rw [split] at records
            cases records with
            | cons head tail =>
              have unlike : ∀ r ∈ later, r.seq ≠ tx.base := by
                rw [places.base]
                refine unlike tail fun j inside => ?_
                have := List.mem_range'_1.mp inside
                omega
              have dropped : (tx.remove tx.base).records = later := by
                simp only [Sender.remove, split]
                rw [List.filter_cons_of_neg (by simp [head.seq, places.base]), filter_unlike unlike]
              simp only [dropped]
              exact tail
        · have := places.before k among
          omega
      obtain ⟨d, fits, released⟩ := ih rest
      refine ⟨d + 1, by omega, ?_⟩
      rw [show taken + (d + 1) = taken + 1 + d by omega, show count + 1 - (d + 1) = count - d by omega]
      exact released
    · exact ⟨0, Nat.zero_le _, places⟩

end Places

/-- Where the sender of an engine stands in its session; outside one nothing is taken or cut. -/
structure Stands (taken : Nat) (credited : Set Nat) (e : Engine) : Prop where
  places : ∃ count, Places credited e.tx taken count ∧ (e.state.inSession = false → taken = 0 ∧ count = 0)

/-- What begins or ends a session. -/
def Action.turns : Action → Bool
  | .event said => said.turns
  | _ => false

/-- Of some calls: unless a session begins or ends, the sender stands as before; where one does, at the start. -/
structure Goes (taken : Nat) (credited : Set Nat) (e e' : Engine) : Prop where
  goes : ∃ more, e'.actions = e.actions ++ more ∧
    if more.any Action.turns then Stands 0 ∅ e' else Stands taken credited e'

namespace Stands

variable {e e' : Engine} {taken : Nat} {credited : Set Nat}

theorem fresh (blank : e.Blank) : Stands 0 ∅ e :=
  ⟨0, .fresh blank.txBase blank.txNext blank.records, fun _ => ⟨rfl, rfl⟩⟩

theorem outside (stands : Stands taken credited e) (down : e.state.inSession = false) :
    taken = 0 ∧ credited = ∅ ∧ Places ∅ e.tx 0 0 := by
  obtain ⟨count, places, none_⟩ := stands.places
  obtain ⟨rfl, rfl⟩ := none_ down
  have empty : credited = ∅ := Set.eq_empty_of_forall_notMem fun k among => Nat.not_lt_zero _ (places.before k among)
  subst empty
  exact ⟨rfl, rfl, places⟩

theorem kept (stands : Stands taken credited e) (kept : Kept e e') (state : e'.state.inSession = e.state.inSession) :
    Stands taken credited e' := by
  obtain ⟨count, places, none_⟩ := stands.places
  exact ⟨count, places.reworked kept.txBase kept.txNext kept.records, fun down => none_ (state.symm.trans down)⟩

theorem goes_same (stands : Stands taken credited e') (actions : e'.actions = e.actions) : Goes taken credited e e' :=
  ⟨[], actions.trans (List.append_nil _).symm, stands⟩

theorem goes_also (stands : Stands taken credited e') {action : Action} (other : action.turns = false)
    (actions : e'.actions = e.actions ++ [action]) : Goes taken credited e e' := by
  refine ⟨[action], actions, ?_⟩
  rw [if_neg (by simp [other])]
  exact stands

theorem goes_turned (stands : Stands 0 ∅ e') {action : Action} (turns : action.turns = true)
    (actions : e'.actions = e.actions ++ [action]) : Goes taken credited e e' := by
  refine ⟨[action], actions, ?_⟩
  rw [if_pos (by simp [turns])]
  exact stands

/-- One step without an acknowledgement. -/
theorem micro {b : Brought} (silent : ∀ ctl, ¬ b.control ctl) (stands : Stands taken credited e) (step : Micro b e e') :
    Goes taken credited e e' := by
  cases step with
  | quiet quiet => exact (stands.kept quiet.toKept quiet.inSession).goes_same quiet.actions
  | tell still event other actions =>
    have plain : (Action.event event).turns = false := other
    exact (stands.kept still.toKept still.inSession).goes_also plain actions
  | transmit still t frames actions => exact (stands.kept still.toKept still.inSession).goes_also rfl actions
  | give data given =>
    obtain ⟨count, places, none_⟩ := stands.places
    exact goes_same ⟨count, places.reworked rfl rfl (reworked_refl _), none_⟩ rfl
  | cut rung take room session =>
    obtain ⟨count, places, none_⟩ := stands.places
    have up : e.state.inSession ≠ false := by simp [session]
    exact goes_same ⟨count + 1, places.cut rung take room, fun down => absurd down up⟩ rfl
  | ack ctl told => exact (silent ctl told).elim
  | accept payload header body late heard read ours kind session =>
    obtain ⟨ready, tx, state, _, _, actions⟩ := e.acceptData_delivers header body late
    obtain ⟨count, places, none_⟩ := stands.places
    refine ⟨ready.map .deliver, actions, ?_⟩
    have plain : (ready.map Action.deliver).any Action.turns = false := by simp [Action.turns]
    rw [if_neg (by simp [plain])]
    exact ⟨count, tx ▸ places, state ▸ none_⟩
  | leave reason idle remote queue blank windowed actions => exact goes_turned (fresh blank) rfl actions
  | call idle calling queue blank windowed actions =>
    obtain ⟨rfl, rfl, _⟩ := stands.outside (by rw [idle]; rfl)
    exact (fresh blank).goes_same actions
  | up kept calling up role actions =>
    obtain ⟨rfl, rfl, places⟩ := stands.outside (by rw [calling]; rfl)
    exact goes_turned ⟨0, places.reworked kept.txBase kept.txNext kept.records, fun _ => ⟨rfl, rfl⟩⟩ rfl actions
  | called outside while_ up queue blank windowed role actions => exact goes_turned (fresh blank) rfl actions

end Stands

theorem Goes.trans {e e' e'' : Engine} {taken : Nat} {credited : Set Nat} (first : Goes taken credited e e')
    (second : ∀ taken credited, Stands taken credited e' → Goes taken credited e' e'') : Goes taken credited e e'' := by
  obtain ⟨more, actions, stands⟩ := first
  by_cases turned : more.any Action.turns = true
  · rw [if_pos turned] at stands
    obtain ⟨later, actions', stands'⟩ := second _ _ stands
    refine ⟨more ++ later, by rw [actions', actions, List.append_assoc], ?_⟩
    rw [List.any_append, turned, Bool.true_or, if_pos rfl]
    exact (ite_self (Stands 0 ∅ e'')).mp stands'
  · rw [if_neg turned] at stands
    obtain ⟨later, actions', stands'⟩ := second _ _ stands
    refine ⟨more ++ later, by rw [actions', actions, List.append_assoc], ?_⟩
    rw [List.any_append, Bool.not_eq_true _ |>.mp turned, Bool.false_or]
    exact stands'

theorem Stands.moves {b : Brought} (silent : ∀ ctl, ¬ b.control ctl) {e e' : Engine} {taken : Nat} {credited : Set Nat}
    (stands : Stands taken credited e) (moves : Moves b e e') : Goes taken credited e e' := by
  induction moves with
  | refl => exact stands.goes_same rfl
  | tail _ step ih => exact ih.trans fun _ _ stands => stands.micro silent step

/-! ### The blocks credited -/

namespace Engine

/-- The blocks of which a copy is judged decoded. -/
def decodedOf (copies : List (UInt8 × Nat × ℚ)) (outcomes : List FrameOutcome) : List UInt8 :=
  ((copies.zip outcomes).filter fun judged => judged.2.decoded).map fun judged => judged.1.1

theorem Judges.decodedOf_nodup {copies : List (UInt8 × Nat × ℚ)} {newly : List UInt8} {outcomes : List FrameOutcome}
    (judges : Judges copies newly outcomes) : (decodedOf copies outcomes).Nodup := by
  unfold decodedOf
  rw [List.Nodup, List.pairwise_map, List.pairwise_filter, List.pairwise_iff_getElem]
  intro i j inI inJ before first _ same
  rw [List.length_zip] at inI inJ
  rw [List.getElem_zip] at first same
  rw [List.getElem_zip] at same
  have latest := (judges.decoded i _ _ (List.getElem?_eq_getElem (by omega)) (List.getElem?_eq_getElem (by omega))).mp first
  exact latest.2 j _ before (List.getElem?_eq_getElem (by omega)) same.symm

theorem Judges.decodedOf_newly {copies : List (UInt8 × Nat × ℚ)} {newly : List UInt8} {outcomes : List FrameOutcome}
    (judges : Judges copies newly outcomes) {s : UInt8} (among : s ∈ decodedOf copies outcomes) : s ∈ newly := by
  obtain ⟨judged, inside, rfl⟩ := List.mem_map.mp among
  obtain ⟨member, decoded⟩ := List.mem_filter.mp inside
  obtain ⟨i, inI, is⟩ := List.mem_iff_getElem.mp member
  rw [List.length_zip] at inI
  rw [List.getElem_zip] at is
  subst is
  exact ((judges.decoded i _ _ (List.getElem?_eq_getElem (by omega)) (List.getElem?_eq_getElem (by omega))).mp decoded).1

section

variable {e : Engine} {credited : Set Nat} {taken count : Nat}

/-- The place in its session of the block a number stands for. -/
def placeIn (e : Engine) (taken : Nat) (s : UInt8) : Nat := taken + seqDistance s e.tx.base

/-- A block newly acknowledged is one of the window's not yet credited. -/
theorem newly_place (places : Places credited e.tx taken count) {ctl : GrantFrame} {s : UInt8} (among : s ∈ e.newly ctl) :
    e.placeIn taken s ∉ credited ∧ e.placeIn taken s < taken + count ∧ s = UInt8.ofNat (e.placeIn taken s) := by
  obtain ⟨r, told, rfl⟩ := List.mem_map.mp among
  obtain ⟨member, marks⟩ := List.mem_filter.mp told
  obtain ⟨k, inside, place⟩ := forall₂_mem places.records member
  have within := places.room
  rw [show window = 16 from rfl] at within
  have range := List.mem_range'_1.mp inside
  have here : e.placeIn taken r.seq = k := by
    unfold placeIn
    rw [place.seq, places.distance range.1 (by omega)]
    omega
  have open_ : r.acked = false := by
    have := (Bool.and_eq_true_iff.mp marks).1
    simpa using (Bool.and_eq_true_iff.mp this).1
  rw [here]
  exact ⟨place.acked open_, range.2, place.seq⟩

theorem records_apart (places : Places credited e.tx taken count) : (e.tx.records.map fun r => r.seq).Nodup := by
  have numbers : (e.tx.records.map fun r => r.seq) = (List.range' taken count).map UInt8.ofNat := by
    rw [← List.forall₂_eq_eq_eq, List.forall₂_map_left_iff, List.forall₂_map_right_iff]
    exact places.records.imp fun _ _ place => place.seq
  have within := places.room
  rw [show window = 16 from rfl] at within
  rw [numbers]
  refine List.Nodup.map_on (fun j inJ k inK same => ?_) List.nodup_range'
  have rangeJ := List.mem_range'_1.mp inJ
  have rangeK := List.mem_range'_1.mp inK
  rcases Nat.le_total j k with before | after
  · exact ofNat_inj_near same before (by omega)
  · exact (ofNat_inj_near same.symm after (by omega)).symm

/-- The window once an acknowledgement has marked its blocks and let the lowest go, with some of them credited. -/
theorem applyAck_places (places : Places credited e.tx taken count) (ctl : GrantFrame) {given : List UInt8}
    (among : ∀ s ∈ given, s ∈ e.newly ctl) : ∃ d, d ≤ count ∧
      Places (credited ∪ {k | k ∈ given.map (e.placeIn taken)}) (e.applyAck ctl).tx (taken + d) (count - d) := by
  have marked : Places (credited ∪ {k | k ∈ given.map (e.placeIn taken)}) { e.tx with
      records := e.tx.records.map fun (r : TxRecord) => { r with
        unknown := false
        acked := r.acked || (r.sent && ctl.received r.seq) }
      topAckedMode := (e.newlyAcked ctl).foldl (fun top (r : TxRecord) => some (max (top.getD 0) r.mode))
        e.tx.topAckedMode } taken count := by
    refine ⟨places.room, places.base, places.next, List.forall₂_map_left_iff.mpr (List.Forall₂.flip ?_), ?_⟩
    · refine forall₂_imp_mem (List.Forall₂.flip places.records) fun k r inside place => ⟨place.seq, fun open_ now => ?_⟩
      obtain ⟨unmarked, unsaid⟩ := Bool.or_eq_false_iff.mp open_
      rcases now with before | now
      · exact place.acked unmarked before
      · obtain ⟨s, member, rfl⟩ := List.mem_map.mp now
        obtain ⟨q, told, same⟩ := List.mem_map.mp (among s member)
        obtain ⟨inside', marks⟩ := List.mem_filter.mp told
        have number := (newly_place places (among s member)).2.2
        have one : q = r :=
          List.inj_on_of_nodup_map (records_apart places) inside' inside (same.trans (number.trans place.seq.symm))
        rw [one, Bool.and_assoc] at marks
        rw [(Bool.and_eq_true_iff.mp marks).2] at unsaid
        cases unsaid
    · intro k either
      rcases either with before | now
      · exact places.before k before
      · obtain ⟨s, member, rfl⟩ := List.mem_map.mp now
        exact (newly_place places (among s member)).2.1
  exact marked.release _

theorem given_places (places : Places credited e.tx taken count) {ctl : GrantFrame} {given : List UInt8}
    (nodup : given.Nodup) (among : ∀ s ∈ given, s ∈ e.newly ctl) : (given.map (e.placeIn taken)).Nodup := by
  refine List.Nodup.map_on (fun s inS t inT same => ?_) nodup
  rw [(newly_place places (among s inS)).2.2, (newly_place places (among t inT)).2.2, same]

end

section

variable [Libm]

/-- But for the acknowledgement itself, `take_ack` touches nothing of the streams. -/
theorem takeAck_quietly (e : Engine) (ctl : GrantFrame) (fresh : Bool) :
    ∃ e₁, Quiet e e₁ ∧ e₁.tx = e.tx ∧ Quiet (e₁.applyAck ctl) (e.takeAck ctl fresh) := by
  unfold takeAck
  cases fresh with
  | false => exact ⟨e, .refl e, rfl, .refl _⟩
  | true =>
    refine ⟨e.takeReport ctl, e.takeReport_quiet ctl, (e.takeReport_same ctl).1, ?_⟩
    have judged := ((e.takeReport ctl).applyAck ctl).judgeAnswer_quiet ctl (((e.takeReport ctl).newlyAcked ctl).map fun r => r.seq)
    simp only [if_true]
    split
    · exact judged.trans (.unseen (by rfl))
    · exact judged

/-- The blocks a call credits: what it acknowledges fresh, of the copies there were. -/
def credited (e : Engine) (input : Input) : List UInt8 :=
  match e.acknowledged input with
  | some (ctl, e₁, true) => decodedOf e₁.tx.sentCopies (e₁.outcomes (e₁.newly ctl))
  | _ => []

/-- Whether a session begins or ends in a call. -/
def turned (e : Engine) (input : Input) : Bool := ((e.handle input).actions.drop e.actions.length).any Action.turns

/-- The blocks credited over a run of calls, each by its session and its place there: the window moves on
with the blocks let go. -/
def credits (e : Engine) : List Input → Nat × Nat → List (Nat × Nat)
  | [], _ => []
  | input :: rest, (session, taken) =>
    ((e.credited input).map fun s => (session, e.placeIn taken s)) ++
      (e.handle input).credits rest (if e.turned input then (session + 1, 0)
        else (session, taken + seqDistance (e.handle input).tx.base e.tx.base))

/-- What one call comes to: the blocks it credits were not, and where the sender stands after it. -/
structure Credits (e : Engine) (taken : Nat) (before : Set Nat) (input : Input) : Prop where
  nodup : ((e.credited input).map (e.placeIn taken)).Nodup
  new : ∀ k ∈ (e.credited input).map (e.placeIn taken), k ∉ before
  stands : if e.turned input then Stands 0 ∅ (e.handle input)
    else Stands (taken + seqDistance (e.handle input).tx.base e.tx.base)
      (before ∪ {k | k ∈ (e.credited input).map (e.placeIn taken)}) (e.handle input)

end

end Engine

theorem Goes.turned {e e' : Engine} {taken : Nat} {before : Set Nat} (goes : Goes taken before e e') :
    if (e'.actions.drop e.actions.length).any Action.turns then Stands 0 ∅ e' else Stands taken before e' := by
  obtain ⟨more, actions, stands⟩ := goes
  rw [actions, List.drop_left]
  exact stands

theorem Stands.base {e : Engine} {taken : Nat} {before : Set Nat} (stands : Stands taken before e) :
    e.tx.base = UInt8.ofNat taken := by
  obtain ⟨_, places, _⟩ := stands.places
  exact places.base

section

variable [Libm]

/-- A call that credits nothing. -/
theorem Engine.Credits.nothing {e : Engine} {taken : Nat} {before : Set Nat} {input : Input} (none_ : e.credited input = [])
    (base : e.tx.base = UInt8.ofNat taken)
    (after : if e.turned input then Stands 0 ∅ (e.handle input) else Stands taken before (e.handle input)) :
    e.Credits taken before input := by
  have empty : (e.credited input).map (e.placeIn taken) = [] := by rw [none_]; rfl
  refine ⟨empty ▸ .nil, fun k among => absurd (empty ▸ among) List.not_mem_nil, ?_⟩
  split at after
  · rename_i turned
    rw [if_pos turned]
    exact after
  · rename_i still
    rw [if_neg still, empty, after.base, base, seqDistance_self]
    simpa using after

/-- One call. -/
theorem Stands.credits {e : Engine} {taken : Nat} {before : Set Nat} (stands : Stands taken before e) (input : Input) :
    e.Credits taken before input := by
  by_cases drained : input = .drain
  · subst drained
    have still : e.turned .drain = false := by simp [Engine.turned, Engine.handle, Engine.drain]
    refine .nothing rfl stands.base ?_
    rw [if_neg (by simp [still])]
    exact stands.kept (.unseen rfl) rfl
  · have applies := e.handle_applies input drained
    generalize ack : e.acknowledged input = said at applies
    cases said with
    | none =>
      obtain ⟨b, silent, moves⟩ := applies
      exact .nothing (by rw [Engine.credited, ack]) stands.base (stands.moves silent moves).turned
    | some said =>
      obtain ⟨ctl, e₁, fresh⟩ := said
      obtain ⟨quiet, up, after⟩ := applies
      obtain ⟨count, places, _⟩ := (stands.kept quiet.toKept quiet.inSession).places
      obtain ⟨e₂, reported, tx, rest⟩ := e₁.takeAck_quietly ctl fresh
      rw [← tx] at places
      have same : e₂.newly ctl = e₁.newly ctl := by
        unfold Engine.newly Engine.newlyAcked
        rw [tx]
      have judges := e₁.outcomes_judges (e₁.newly ctl)
      have among : ∀ s ∈ e.credited input, s ∈ e₂.newly ctl := by
        intro s member
        rw [Engine.credited, ack] at member
        cases fresh with
        | false => cases member
        | true => exact same ▸ judges.decodedOf_newly member
      have nodup : (e.credited input).Nodup := by
        rw [Engine.credited, ack]
        cases fresh with
        | false => exact .nil
        | true => exact judges.decodedOf_nodup
      have at_ : e.placeIn taken = e₂.placeIn taken := by
        funext s
        rw [Engine.placeIn, Engine.placeIn, tx, quiet.txBase]
      obtain ⟨d, fits, released⟩ := Engine.applyAck_places places ctl among
      have applied : Stands (taken + d) (before ∪ {k | k ∈ (e.credited input).map (e₂.placeIn taken)}) (e₂.applyAck ctl) := by
        have up₂ : e₂.state.inSession = true := reported.inSession_of (quiet.inSession_of up)
        exact ⟨count - d, released, fun down => absurd (up₂.symm.trans down) Bool.noConfusion⟩
      have goes := (applied.kept rest.toKept rest.inSession).moves (b := {}) (fun _ told => told) after
      have actions : (e₁.takeAck ctl fresh).actions = e.actions := rest.actions.trans (reported.actions.trans quiet.actions)
      have turned := goes.turned
      rw [actions] at turned
      refine ⟨?_, ?_, ?_⟩
      · rw [at_]
        exact Engine.given_places places nodup among
      · intro k member
        rw [at_] at member
        obtain ⟨s, inside, rfl⟩ := List.mem_map.mp member
        exact (Engine.newly_place places (among s inside)).1
      · rw [at_]
        unfold Engine.turned
        split at turned
        · rename_i turns
          rw [if_pos turns]
          exact turned
        · rename_i still
          rw [if_neg still]
          have within := places.room
          rw [show window = 16 from rfl] at within
          have moved : seqDistance (e.handle input).tx.base e.tx.base = d := by
            have near := seqDistance_ofNat (taken + d) taken
            rw [turned.base, stands.base]
            omega
          rw [moved]
          exact turned

theorem Engine.credits_nodup (inputs : List Input) {e : Engine} (session : Nat) {taken : Nat} {before : Set Nat} (stands : Stands taken before e) :
    (e.credits inputs (session, taken)).Nodup ∧
      ∀ place ∈ e.credits inputs (session, taken), session ≤ place.1 ∧ (place.1 = session → place.2 ∉ before) := by
  induction inputs generalizing e session taken before with
  | nil => exact ⟨.nil, fun _ among => absurd among List.not_mem_nil⟩
  | cons input rest ih =>
    obtain ⟨nodup, new, after⟩ := stands.credits input
    have first : ∀ place ∈ (e.credited input).map fun s => (session, e.placeIn taken s),
        place.1 = session ∧ place.2 ∈ (e.credited input).map (e.placeIn taken) := by
      intro place among
      obtain ⟨s, member, rfl⟩ := List.mem_map.mp among
      exact ⟨rfl, List.mem_map_of_mem member⟩
    have distinct : ((e.credited input).map fun s => (session, e.placeIn taken s)).Nodup := by
      have paired := nodup.map (f := Prod.mk session) fun _ _ same => (Prod.mk.inj same).2
      rwa [List.map_map] at paired
    rw [Engine.credits]
    by_cases turned : e.turned input = true
    · rw [if_pos turned] at after ⊢
      obtain ⟨later, beyond⟩ := ih (session + 1) after
      refine ⟨List.nodup_append'.mpr ⟨distinct, later, fun place now then_ => ?_⟩, fun place either => ?_⟩
      · have := (first place now).1
        have := (beyond place then_).1
        omega
      · rcases List.mem_append.mp either with now | then_
        · obtain ⟨here, among⟩ := first place now
          exact ⟨here.ge, fun _ => new _ among⟩
        · have := (beyond place then_).1
          exact ⟨by omega, fun same => by omega⟩
    · rw [if_neg turned] at after ⊢
      obtain ⟨later, beyond⟩ := ih session after
      refine ⟨List.nodup_append'.mpr ⟨distinct, later, fun place now then_ => ?_⟩, fun place either => ?_⟩
      · obtain ⟨here, among⟩ := first place now
        exact (beyond place then_).2 here (.inr among)
      · rcases List.mem_append.mp either with now | then_
        · obtain ⟨here, among⟩ := first place now
          exact ⟨here.ge, fun _ => new _ among⟩
        · obtain ⟨from_, unlike⟩ := beyond place then_
          exact ⟨from_, fun same old => unlike same (.inl old)⟩

omit [Libm] in
theorem Stands.new (myCall : Text) (timing : PhyTiming) (config : GrantConfig) (seed : UInt64) :
    Stands 0 ∅ (Engine.new myCall timing config seed) := .fresh (Engine.blank_fresh rfl)

/-- Each block acknowledged is credited once, to its latest copy. A fresh acknowledgement gives the rate controller
one outcome a copy, a stale one none; a transmission's copies are those of its whole blocks; and in no run is a
block of a session credited twice. -/
theorem Engine.credits_once :
    (∀ (e : Engine) (ctl : GrantFrame), e.Applied ctl (e.takeAck ctl true) ∧
      (e.takeAck ctl false).rate = e.rate ∧ (e.takeAck ctl false).tx.sentCopies = e.tx.sentCopies) ∧
    (∀ (e : Engine) (roomS : Option ℚ), Charges e (e.dataFrames roomS)) ∧
    ∀ myCall timing config seed inputs, ((Engine.new myCall timing config seed).credits inputs (0, 0)).Nodup := by
  refine ⟨fun e ctl => ⟨e.takeAck_applied ctl, rfl, e.applyAck_sentCopies ctl⟩, fun e roomS => e.dataFrames_charges roomS, ?_⟩
  intro myCall timing config seed inputs
  exact (credits_nodup inputs 0 (Stands.new myCall timing config seed)).1

end

end AetherHF.Link

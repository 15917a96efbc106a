import Mathlib.Data.List.MinMax
import AetherHF.Phy.ToneStream

/-! Tone frames and block sizes: every row is read once and every start judged once however
the stream is cut, and the frames are the same where the blocks end at the same hops. -/
namespace AetherHF.Phy.ToneStream

variable {V Row ρ : Type} [LinearOrder V] (det : ToneDetector V Row ρ)

/-- Hops whose rows are all in, of a stream as long as `stop`. -/
def hopsBy (stop : Nat) : Nat := if stop < symbolSamples then 0 else (stop - symbolSamples) / hop + 1

/-- What a buffer keeps of the stream: the longest frame and half a second. -/
def keep : Nat := (det.hypotheses.map fun x => x.1.samples).foldr max 0 + 4000

/-- Buffers that each go on from the last, and keep enough of it. -/
def Kept (stop : Nat) : List (Nat × Nat) → Prop
  | [] => True
  | buffer :: rest => buffer.1 ≤ stop - keep det ∧ stop ≤ buffer.2 ∧ Kept buffer.2 rest

instance instDecidableKept (stop : Nat) (calls : List (Nat × Nat)) : Decidable (Kept det stop calls) :=
  match calls with
  | [] => isTrue trivial
  | buffer :: rest =>
    have : Decidable (Kept det buffer.2 rest) := instDecidableKept buffer.2 rest
    inferInstanceAs (Decidable (_ ∧ _ ∧ _))

/-- Where the stream ends once the buffers are in. -/
def reached (stop : Nat) : List (Nat × Nat) → Nat
  | [] => stop
  | buffer :: rest => reached buffer.2 rest

/-- The hops the buffers end at that bring any. -/
def ends (top : Nat) : List (Nat × Nat) → List Nat
  | [] => []
  | buffer :: rest => if top < hopsBy buffer.2 then hopsBy buffer.2 :: ends (hopsBy buffer.2) rest else ends top rest

/-- The frames handed out. -/
def frames (calls : List (Nat × Nat)) : List (ToneSync ρ) :=
  (Stream.run (fun s buffer => s.feed det buffer) (withDetector det) calls).2

/-- A stream that has seen `stop` samples, its hops and frontiers. -/
structure Stands (s : ToneStream V Row) (top : Nat) : Prop where
  nextHop : s.nextHop = top
  rows : s.firstRow + s.rows.length = s.nextHop
  firstRow : 0 ≤ s.firstRow
  firstHops : s.firstHops = 28
  lengths : s.groups.map (·.1) = (grouped det.hypotheses).map (·.1)
  frontiers : ∀ group ∈ s.groups, group.2.2 = max 0 (s.nextHop - group.1)
  nextFirst : s.nextFirst = max 0 (s.nextHop - s.firstHops)

/-- The rows that starts still to be judged need are there. -/
structure Needs (s : ToneStream V Row) : Prop where
  groups : ∀ group ∈ s.groups, s.firstRow ≤ group.2.2
  firsts : s.firstRow ≤ s.nextFirst

/-- All that can settle has. -/
structure Settled (s : ToneStream V Row) : Prop where
  candidates : s.candidates.Pairwise Candidate.before
  waiting : ∀ x ∈ s.candidates, s.waits det x
  firsts : s.firsts.Pairwise Candidate.before
  waitingFirst : ∀ x ∈ s.firsts, x.h + announceLookahead ≥ s.nextFirst
  lapsed : s.lapse = s
  dropped : s.dropRows = s

variable {det} {s : ToneStream V Row} {top : Nat}

theorem hop_eq : hop = 80 := rfl

/-- Each group is of some kind's length, and starts at the start. -/
theorem grouped_mem {hypotheses : List (ToneKind × Nat)} {group : Int × List Nat × Int}
    (among : group ∈ grouped hypotheses) : (∃ x ∈ hypotheses, group.1 = x.1.hops) ∧ group.2.2 = 0 := by
  have step (xs : List ((ToneKind × Nat) × Nat)) (within : ∀ x ∈ xs, x.1 ∈ hypotheses)
      (groups : List (Int × List Nat × Int))
      (all : ∀ group ∈ groups, (∃ x ∈ hypotheses, group.1 = x.1.hops) ∧ group.2.2 = 0) :
      ∀ group ∈ xs.foldl joined groups, (∃ x ∈ hypotheses, group.1 = x.1.hops) ∧ group.2.2 = 0 := by
    induction xs generalizing groups with
    | nil => exact all
    | cons x rest ih =>
      obtain ⟨here, later⟩ := List.forall_mem_cons.mp within
      refine ih later _ fun group among => ?_
      unfold joined at among
      split at among
      · obtain ⟨old, member, rfl⟩ := List.mem_map.mp among
        have := all old member
        split <;> exact this
      · rcases List.mem_append.mp among with member | new
        · exact all group member
        · rw [List.mem_singleton.mp new]
          exact ⟨⟨x.1, here, rfl⟩, rfl⟩
  refine step _ (fun x member => ?_) [] (by simp) group among
  exact (List.mem_zipIdx' member).2 ▸ List.getElem_mem _

/-- One group a frame length. -/
theorem grouped_nodup (hypotheses : List (ToneKind × Nat)) : ((grouped hypotheses).map (·.1)).Nodup := by
  have step (xs : List ((ToneKind × Nat) × Nat)) (groups : List (Int × List Nat × Int))
      (distinct : (groups.map (·.1)).Nodup) : ((xs.foldl joined groups).map (·.1)).Nodup := by
    induction xs generalizing groups with
    | nil => exact distinct
    | cons x rest ih =>
      refine ih _ ?_
      unfold joined
      split
      · have same : (groups.map fun group =>
            if group.1 = x.1.1.hops then (group.1, group.2.1 ++ [x.2], group.2.2) else group).map (·.1) =
            groups.map (·.1) := by
          rw [List.map_map]
          refine List.map_congr_left fun group _ => ?_
          dsimp only [Function.comp]
          split <;> rfl
        rwa [same]
      · rename_i none_
        rw [List.map_append, List.map_singleton, List.nodup_append]
        refine ⟨distinct, by simp, ?_⟩
        simp only [List.any_eq_true, decide_eq_true_eq, not_exists, not_and] at none_
        intro length member other singleton same
        obtain ⟨group, among, rfl⟩ := List.mem_map.mp member
        exact none_ group among (same.trans (List.mem_singleton.mp singleton))
  exact step _ [] List.nodup_nil

omit [LinearOrder V] in
theorem Stands.resume (h : Stands det s top) {abs0 : Nat} (early : abs0 ≤ top * hop) : s.resume abs0 = s := by
  have nextHop := h.nextHop
  have rows := h.rows
  have there : ¬ ((abs0 : Int) + hop - 1) / hop > s.nextHop := by
    rw [hop_eq] at early ⊢
    omega
  simp only [ToneStream.resume, if_neg there]
  split
  · rename_i none_
    rw [none_] at rows
    have same : s.nextHop = s.firstRow := by simpa using rows.symm
    exact congrArg (fun firstRow => { s with firstRow }) same
  · rfl

omit [LinearOrder V] in
theorem newHops_eq (nextHop : s.nextHop = top) (stop : Nat) :
    s.newHops stop = (List.range (hopsBy stop - top)).map fun k => ((top + k : Nat) : Int) := by
  have count : (((stop : Int) - symbolSamples) / hop + 1 - s.nextHop).toNat = hopsBy stop - top := by
    rw [hopsBy, hop_eq, symbolSamples, nextHop]
    split <;> omega
  rw [newHops, count, nextHop]
  exact List.map_congr_left fun k _ => by push_cast; rfl

omit [LinearOrder V] in
/-- Rows read one after another. -/
theorem foldl_pushRow (rows : s.firstRow + s.rows.length = s.nextHop) (nextHop : s.nextHop = top) (count : Nat) :
    ((List.range count).map fun k => ((top + k : Nat) : Int)).foldl (pushRow det) s =
      { s with
        rows := s.rows ++ (List.range count).map fun k => det.ratiosAt (((top + k : Nat) : Int) * hop)
        nextHop := ((top + count : Nat) : Int) } := by
  induction count with
  | zero => simp [← nextHop]
  | succ count ih =>
    rw [List.range_succ, List.map_append, List.foldl_append, ih, List.map_singleton, List.foldl_cons, List.foldl_nil,
      pushRow]
    have next : ¬ s.firstRow + ((s.rows ++ (List.range count).map fun k =>
        det.ratiosAt (((top + k : Nat) : Int) * hop)).length : Int) ≠ ((top + count : Nat) : Int) := by
      rw [List.length_append, List.length_map, List.length_range]
      push_cast
      omega
    dsimp only
    rw [if_neg next, List.map_append, List.append_assoc, List.map_singleton]
    congr 1

omit [LinearOrder V] in
/-- The stream once its rows are read. -/
theorem Stands.readRows (h : Stands det s top) {stop : Nat} (more : top ≤ hopsBy stop) :
    s.readRows det stop = { s with
      rows := s.rows ++ (List.range (hopsBy stop - top)).map fun k => det.ratiosAt (((top + k : Nat) : Int) * hop)
      nextHop := (hopsBy stop : Nat) } := by
  rw [ToneStream.readRows, newHops_eq h.nextHop, foldl_pushRow h.rows h.nextHop, Nat.add_sub_cancel' more]

/-! ### Settling -/

variable {waiting xs : List (Candidate V)} {abs0 : Nat}

/-- The stream once a buffer's rows are read and its starts judged. -/
def judged (det : ToneDetector V Row ρ) (s : ToneStream V Row) (stop : Nat) : ToneStream V Row :=
  judgeAll det (s.readRows det stop)

theorem Stands.judged (h : Stands det s top) {stop : Nat} (more : top ≤ hopsBy stop) :
    Stands det (judged det s stop) (hopsBy stop) := by
  have nextHop := h.nextHop
  have rows := h.rows
  have nextFirst := h.nextFirst
  rw [ToneStream.judged, h.readRows more]
  exact
    { nextHop := rfl
      rows := by
        simp only [judgeAll, List.length_append, List.length_map, List.length_range]
        push_cast
        omega
      firstRow := h.firstRow
      firstHops := h.firstHops
      lengths := by
        simp only [judgeAll, List.map_map]
        exact h.lengths
      frontiers := by
        intro group among
        obtain ⟨old, member, rfl⟩ := List.mem_map.mp among
        have frontier := h.frontiers old member
        simp only [judgeAll]
        omega
      nextFirst := by
        simp only [judgeAll]
        omega }

theorem Needs.judged (h : Stands det s top) (needs : Needs s) {stop : Nat} (more : top ≤ hopsBy stop) :
    Needs (judged det s stop) := by
  rw [ToneStream.judged, h.readRows more]
  constructor
  · intro group among
    obtain ⟨old, member, rfl⟩ := List.mem_map.mp among
    have := needs.groups old member
    simp only [judgeAll]
    omega
  · have := needs.firsts
    simp only [judgeAll]
    omega

omit [LinearOrder V] in
/-- The rows dropped are those no start still to be judged needs. -/
theorem need_le : (∀ group ∈ s.groups, s.need ≤ group.2.2) ∧ s.need ≤ s.nextFirst := by
  have least {x : Int} (among : x ∈ s.groups.map (·.2.2) ++ s.nextFirst :: (s.candidates.map (·.h) ++ s.firsts.map (·.h))) :
      s.need ≤ x := by
    obtain ⟨m, is⟩ := Option.isSome_iff_exists.mp (List.isSome_min?_of_mem among)
    rw [need, is]
    exact (List.min?_eq_some_iff.mp is).2 x among
  exact ⟨fun group among => least (by simp only [List.mem_append, List.mem_map]; exact .inl ⟨group, among, rfl⟩),
    least (by simp)⟩

/-- Dropping rows, and what lapses, leave the stream where it stands. -/
theorem Stands.dropped (h : Stands det s top) : Stands det s.lapse.dropRows top := by
  have rows := h.rows
  have firstRow := h.firstRow
  exact
    { nextHop := h.nextHop
      rows := by
        show s.firstRow + ((min (s.need - s.firstRow).toNat s.rows.length : Nat) : Int) +
          ((s.rows.drop (min (s.need - s.firstRow).toNat s.rows.length)).length : Int) = s.nextHop
        rw [List.length_drop]
        omega
      firstRow := by
        show 0 ≤ s.firstRow + ((min (s.need - s.firstRow).toNat s.rows.length : Nat) : Int)
        omega
      firstHops := h.firstHops
      lengths := h.lengths
      frontiers := h.frontiers
      nextFirst := h.nextFirst }

theorem Needs.dropped (h : Needs s) : Needs s.lapse.dropRows := by
  obtain ⟨groups, first⟩ := need_le (s := s)
  constructor
  · intro group among
    have := h.groups group among
    have := groups group among
    show s.firstRow + ((min (s.need - s.firstRow).toNat s.rows.length : Nat) : Int) ≤ group.2.2
    omega
  · have := h.firsts
    show s.firstRow + ((min (s.need - s.firstRow).toNat s.rows.length : Nat) : Int) ≤ s.nextFirst
    omega

omit [LinearOrder V] in
/-- What a buffer keeps holds the longest frame's starts, with lookahead to spare. -/
theorem keep_holds {group : Int × List Nat × Int} (among : group ∈ grouped det.hypotheses) :
    0 ≤ group.1 ∧ group.1 * hop + symbolSamples + 4000 ≤ (keep det : Int) := by
  obtain ⟨⟨x, member, length⟩, -⟩ := grouped_mem among
  have longest : x.1.samples ≤ (det.hypotheses.map fun x => x.1.samples).foldr max 0 :=
    List.le_max_of_le' 0 (List.mem_map_of_mem (f := fun x : ToneKind × Nat => x.1.samples) member) le_rfl
  have samples : x.1.samples = x.1.symbols * 320 := rfl
  have hops : x.1.hops = 4 * ((x.1.symbols : Int) - 1) := rfl
  have some_ : 24 ≤ x.1.symbols := by
    rw [ToneKind.symbols, syncSymbols]
    omega
  have kept : keep det = (det.hypotheses.map fun x => x.1.samples).foldr max 0 + 4000 := rfl
  rw [hop_eq, symbolSamples, length]
  omega

theorem starts_ge {next oldest last h : Int} (among : h ∈ starts next oldest last) : next ≤ h := by
  obtain ⟨k, -, rfl⟩ := List.mem_map.mp among
  omega

theorem judge_h {threshold : V} {hyps : List Nat} {first : Bool} {h : Int} {x : Candidate V}
    (is : judge det s threshold hyps first h = some x) : x.h = h := by
  unfold judge at is
  split at is
  · split at is
    · cases is
      rfl
    · cases is
  · cases is

/-- Every candidate's start is in a buffer that keeps enough. -/
theorem held (h : Stands det s (hopsBy top)) (settled : Settled det s) {stop abs0 : Nat} (within : abs0 ≤ top - keep det)
    (more : hopsBy top ≤ hopsBy stop) {x : Candidate V} (among : x ∈ (judged det s stop).candidates) :
    abs0 ≤ x.h.toNat * hop := by
  have most : top < hopsBy top * 80 + 320 := by
    rw [hopsBy, hop_eq, symbolSamples]
    split <;> omega
  have nextHop := h.nextHop
  -- a candidate waits for a frontier, or starts at one
  have frontier : ∃ group ∈ s.groups, group.2.2 ≤ x.h + lookahead := by
    rw [judged, h.readRows more] at among
    rcases List.mem_append.mp among with waited | new
    · obtain ⟨next, is, waits⟩ := Option.any_eq_true _ _ |>.mp (settled.waiting x waited)
      obtain ⟨group, found, rfl⟩ := Option.map_eq_some_iff.mp is
      exact ⟨group, List.mem_of_find?_eq_some found, of_decide_eq_true waits⟩
    · obtain ⟨group, member, start⟩ := List.mem_flatMap.mp new
      obtain ⟨start, from_, is⟩ := List.mem_filterMap.mp start
      have := starts_ge from_
      refine ⟨group, member, ?_⟩
      rw [judge_h is, lookahead]
      omega
  obtain ⟨group, member, near⟩ := frontier
  have is := h.frontiers group member
  have length : group.1 ∈ (grouped det.hypotheses).map (·.1) := h.lengths ▸ List.mem_map.mpr ⟨group, member, rfl⟩
  obtain ⟨other, among, same⟩ := List.mem_map.mp length
  obtain ⟨long, holds⟩ := keep_holds among
  rw [lookahead] at near
  rw [hop_eq, symbolSamples] at holds
  rw [hop_eq]
  omega

/-- A buffer's rows all read at once. -/
def fed (det : ToneDetector V Row ρ) (s : ToneStream V Row) (top : Nat) (buffer : Nat × Nat) :
    ToneStream V Row × List (ToneSync ρ) :=
  let t := judgeAll det { s with
    rows := s.rows ++ (List.range (hopsBy buffer.2 - top)).map fun k => det.ratiosAt (((top + k : Nat) : Int) * hop)
    nextHop := (hopsBy buffer.2 : Nat) }
  (((t.settle det buffer.1).1.announce det).dropRows, (t.settle det buffer.1).2)

omit [LinearOrder V] in
/-- A buffer's starts of a frame length go on from the last's. -/
theorem Stands.starts (h : Stands det s top) (needs : Needs s) {group : Int × List Nat × Int} (among : group ∈ s.groups)
    {stop : Nat} (more : top ≤ hopsBy stop) :
    ToneStream.starts group.2.2 (s.readRows det stop).oldest ((s.readRows det stop).nextHop - 1 - group.1) =
      (List.range ((hopsBy stop - group.1).toNat - (top - group.1).toNat)).map fun k =>
        (((top - group.1).toNat + k : Nat) : Int) := by
  have nextHop := h.nextHop
  have rows := h.rows
  have frontier := h.frontiers group among
  have needed := needs.groups group among
  have length : 0 ≤ group.1 := by
    have member : group.1 ∈ (grouped det.hypotheses).map (·.1) := h.lengths ▸ List.mem_map.mpr ⟨group, among, rfl⟩
    obtain ⟨other, among, same⟩ := List.mem_map.mp member
    exact same ▸ (keep_holds among).1
  have first : max group.2.2 (s.readRows det stop).oldest = ((top - group.1).toNat : Int) := by
    have oldest : (s.readRows det stop).oldest ≤ group.2.2 := by
      rw [h.readRows more, oldest]
      split
      · rename_i none_
        dsimp only at none_ ⊢
        rw [List.append_eq_nil_iff] at none_
        obtain ⟨none_, none'⟩ := none_
        have count : hopsBy stop - top = 0 := by simpa using none'
        rw [none_, List.length_nil] at rows
        omega
      · exact needed
    omega
  have count : ((s.readRows det stop).nextHop - 1 - group.1 + 1 - ((top - group.1).toNat : Int)).toNat =
      (hopsBy stop - group.1).toNat - (top - group.1).toNat := by
    rw [h.readRows more]
    dsimp only
    omega
  rw [ToneStream.starts, first, count]
  exact List.map_congr_left fun k _ => by push_cast; rfl

end AetherHF.Phy.ToneStream

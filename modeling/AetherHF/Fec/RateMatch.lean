import Mathlib.Algebra.Order.BigOperators.Group.List
import Mathlib.Algebra.Order.Ring.Rat
import Mathlib.Data.List.TakeWhile
import AetherHF.Base.Circular
import AetherHF.Fec.Ldpc

/-! Circular-buffer bit selection with redundancy versions, and its soft inverse. Fillers
are skipped on transmit and pinned on receive, and recovering into a buffer that holds an
earlier transmission adds to it. Log-likelihood ratios are exact rationals. -/
namespace AetherHF.Fec

open Circular

/-- `k0` over the lifting size, by base graph and redundancy version. -/
def k0Numerators : List (List Nat) := [[0, 17, 33, 56], [0, 13, 25, 43]]

def fillerLlr : ℚ := 1000

/-- Bit selection for one code, information length, output length and redundancy version. -/
structure RateMatcher where
  infoLen : Nat
  e : Nat
  rv : Nat
  nCb : Nat
  nFull : Nat
  k : Nat
  twoZ : Nat
  /-- The circular-buffer index transmitted at each output position. -/
  positions : List Nat
  deriving DecidableEq

namespace RateMatcher

def k0 (code : NrLdpcCode) (rv : Nat) : Nat :=
  (k0Numerators.getD (if code.bgNumber = 2 then 1 else 0) []).getD rv 0 * code.z

/-- The places of the circular buffer that hold no filler. -/
def usable (code : NrLdpcCode) (infoLen : Nat) : List Nat :=
  (List.range code.nCb).filter fun index => index < infoLen - 2 * code.z || code.k - 2 * code.z ≤ index

/-- From `k0` on, and wrapping. -/
def order (code : NrLdpcCode) (infoLen rv : Nat) : List Nat :=
  let usable := usable code infoLen
  let start := (usable.takeWhile (· < k0 code rv)).length
  usable.drop start ++ usable.take start

/-- The order again and again, until there are `e`; `none` where the fuel is spent. -/
def fill (order : List Nat) (e : Nat) : Nat → List Nat → Option (List Nat)
  | 0, _ => none
  | fuel + 1, positions =>
    if positions.length < e then fill order e fuel (positions ++ order.take (e - positions.length))
    else some positions

/-- Build the selection pattern. -/
def new (fuel : Nat) (code : NrLdpcCode) (infoLen e rv : Nat) : Option (Except FecError RateMatcher) :=
  if 3 < rv then some (.error (.badRedundancyVersion rv))
  else if infoLen < 2 * code.z ∨ code.k < infoLen then some (.error (.badLength code.k infoLen))
  else (fill (order code infoLen rv) e fuel []).map fun positions => .ok
    { infoLen, e, rv, nCb := code.nCb, nFull := code.nFull, k := code.k, twoZ := 2 * code.z, positions }

variable (matcher : RateMatcher)

/-- Select the output bits from a full codeword. -/
def matchBits (codeword : Bytes) : Except FecError Bytes :=
  if codeword.length ≠ matcher.nFull then .error (.badLength matcher.nFull codeword.length)
  else
    let d := codeword.drop matcher.twoZ
    .ok (matcher.positions.map fun index => d.getD index 0)

/-- Nothing received: punctured bits zero, fillers pinned. -/
def fresh : List ℚ :=
  (List.replicate matcher.nFull 0).mapIdx fun i zero => if matcher.infoLen ≤ i ∧ i < matcher.k then fillerLlr else zero

/-- Soft rate recovery into full-codeword ratios, those of an earlier transmission or fresh. -/
def recover (llrE : List ℚ) (buffer : Option (List ℚ)) : Except FecError (List ℚ) :=
  if llrE.length ≠ matcher.e then .error (.badLength matcher.e llrE.length)
  else do
    let full ← match buffer with
      | some previous =>
        if previous.length ≠ matcher.nFull then .error (.badLength matcher.nFull previous.length) else .ok previous
      | none => .ok matcher.fresh
    let accumulator := scatter (List.replicate matcher.nCb 0) (matcher.positions.zip llrE)
    .ok (full.take matcher.twoZ ++
      (full.drop matcher.twoZ).mapIdx fun i slot => slot + accumulator.getD i 0)

/-- Transmissions recovered one into the next. -/
def recoverAll (transmissions : List (RateMatcher × List ℚ)) : Except FecError (Option (List ℚ)) :=
  transmissions.foldlM (fun buffer t => return some (← t.1.recover t.2 buffer)) none

/-! ### Selection -/

variable {code : NrLdpcCode} {infoLen : Nat}

/-- The buffer is the codeword less its first two columns, and ends in parity. -/
structure Layout (code : NrLdpcCode) : Prop where
  info : 2 * code.z ≤ code.k
  parity : code.k < code.nFull
  buffer : code.nCb + 2 * code.z = code.nFull
  starts : ∀ rv ≤ 3, k0 code rv ≤ code.nCb

theorem layout_new {bg z : Nat} (made : NrLdpcCode.new bg z = .ok code) : code.z = z ∧ Layout code := by
  obtain ⟨g, iLs, p, table, set_, rfl⟩ := NrLdpcCode.new_ok made
  have positive := liftingSetIndex_positive set_
  have numerators : ∀ rv ≤ 3, (k0Numerators.getD 0 []).getD rv 0 ≤ 66 ∧ (k0Numerators.getD 1 []).getD rv 0 ≤ 50 := by
    decide
  match bg, table with
  | 1, rfl =>
    have cols : bg1.cols = 68 := rfl
    refine ⟨rfl, ?_, ?_, ?_, fun rv known => Nat.mul_le_mul_right z (numerators rv known).1⟩ <;>
      simp only [NrLdpcCode.blank, cols, if_true] <;> omega
  | 2, rfl =>
    have cols : bg2.cols = 52 := rfl
    refine ⟨rfl, ?_, ?_, ?_, fun rv known => Nat.mul_le_mul_right z (numerators rv known).2⟩ <;>
      simp only [NrLdpcCode.blank, cols, Nat.reduceEqDiff, reduceIte] <;> omega

/-- No filler stands at this place of the buffer. -/
def keeps (code : NrLdpcCode) (infoLen i : Nat) : Bool := !(infoLen ≤ 2 * code.z + i && 2 * code.z + i < code.k)

theorem usable_eq (low : 2 * code.z ≤ infoLen) (layout : Layout code) :
    usable code infoLen = (List.range code.nCb).filter (keeps code infoLen) := by
  have info := layout.info
  refine List.filter_congr fun i _ => Bool.eq_iff_iff.mpr ?_
  simp only [keeps, Bool.or_eq_true, decide_eq_true_eq, Bool.not_eq_true', Bool.and_eq_false_iff, decide_eq_false_iff_not]
  omega

/-- The order is one walk round the buffer. -/
theorem order_eq (low : 2 * code.z ≤ infoLen) (layout : Layout code) {rv : Nat} (known : rv ≤ 3) :
    order code infoLen rv = (walk code.nCb (k0 code rv) code.nCb).filter (keeps code infoLen) := by
  have within := layout.starts rv known
  have halves : usable code infoLen = (List.range (k0 code rv)).filter (keeps code infoLen) ++
      (List.range' (k0 code rv) (code.nCb - k0 code rv)).filter (keeps code infoLen) := by
    have joined := @List.range'_append_1 0 (k0 code rv) (code.nCb - k0 code rv)
    rw [Nat.zero_add, Nat.add_sub_cancel' within, ← List.range_eq_range', ← List.range_eq_range'] at joined
    rw [usable_eq low layout, ← List.filter_append, joined]
  have first : (usable code infoLen).takeWhile (· < k0 code rv) =
      (List.range (k0 code rv)).filter (keeps code infoLen) := by
    rw [halves, List.takeWhile_append_of_pos, List.takeWhile_eq_nil_iff.mpr, List.append_nil]
    · intro inside
      have member := List.mem_of_mem_filter (List.getElem_mem inside)
      have := (List.mem_range'_1.mp member).1
      simpa using this
    · intro i member
      simpa using (List.mem_filter.mp member).1
  unfold order
  simp only
  rw [first, halves, List.drop_left, List.take_left, walk_round within, List.filter_append]

/-- The last place of the buffer is parity. -/
theorem order_ne_nil (low : 2 * code.z ≤ infoLen) (layout : Layout code) {rv : Nat} (known : rv ≤ 3) :
    order code infoLen rv ≠ [] := by
  have parity := layout.parity
  have buffer := layout.buffer
  have info := layout.info
  have within := layout.starts rv known
  have last : code.nCb - 1 ∈ order code infoLen rv := by
    rw [order_eq low layout known, walk_round within]
    refine List.mem_filter.mpr ⟨?_, ?_⟩
    · rw [List.mem_append, List.mem_range'_1, List.mem_range]
      omega
    · simp only [keeps, Bool.not_eq_true', Bool.and_eq_false_iff, decide_eq_false_iff_not]
      omega
  exact List.ne_nil_of_mem last

theorem fill_rounds {order : List Nat} (some_ : order ≠ []) {e fuel : Nat} {positions : List Nat}
    (enough : e - positions.length < fuel) :
    ∃ m, fill order e fuel positions =
        some (positions ++ (List.replicate m order).flatten.take (e - positions.length)) ∧
      e - positions.length ≤ (List.replicate m order).flatten.length := by
  induction fuel generalizing positions with
  | zero => omega
  | succ fuel ih =>
    have long : 0 < order.length := List.length_pos_of_ne_nil some_
    unfold fill
    by_cases short : positions.length < e
    · have taken : (positions ++ order.take (e - positions.length)).length =
          positions.length + min (e - positions.length) order.length := by
        rw [List.length_append, List.length_take]
      have fewer : e - (positions ++ order.take (e - positions.length)).length < fuel := by omega
      obtain ⟨m, filled, rest⟩ := ih fewer
      have left : e - (positions ++ order.take (e - positions.length)).length = e - positions.length - order.length := by
        omega
      rw [left] at filled rest
      refine ⟨m + 1, ?_, ?_⟩
      · rw [if_pos short, filled, List.replicate_succ, List.flatten_cons, List.take_append, List.append_assoc]
      · rw [List.replicate_succ, List.flatten_cons, List.length_append]
        omega
    · have none_ : e - positions.length = 0 := by omega
      exact ⟨0, by rw [if_neg short, none_, List.take_zero, List.append_nil], by rw [none_]; exact Nat.zero_le _⟩

theorem fill_mono {order : List Nat} {e fuel fuel' : Nat} {positions filled : List Nat} (more : fuel ≤ fuel')
    (run : fill order e fuel positions = some filled) : fill order e fuel' positions = some filled := by
  induction fuel generalizing fuel' positions with
  | zero => simp [fill] at run
  | succ fuel ih =>
    obtain ⟨fuel', rfl⟩ : ∃ n, fuel' = n + 1 := ⟨fuel' - 1, by omega⟩
    unfold fill at run ⊢
    by_cases short : positions.length < e
    · rw [if_pos short] at run ⊢
      exact ih (by omega) run
    · rwa [if_neg short] at run ⊢

/-- A pattern for a code and an information length. -/
structure Fits (code : NrLdpcCode) (infoLen e rv : Nat) (matcher : RateMatcher) : Prop where
  infoLen_eq : matcher.infoLen = infoLen
  e_eq : matcher.e = e
  nCb_eq : matcher.nCb = code.nCb
  nFull_eq : matcher.nFull = code.nFull
  k_eq : matcher.k = code.k
  twoZ_eq : matcher.twoZ = 2 * code.z
  length : matcher.positions.length = e
  walked : ∃ t, matcher.positions = (walk code.nCb (k0 code rv) t).filter (keeps code infoLen)

/-- Building ends, in a pattern that fits. -/
theorem new_fits (layout : Layout code) (low : 2 * code.z ≤ infoLen) (high : infoLen ≤ code.k) (e : Nat) {rv : Nat}
    (known : rv ≤ 3) :
    ∃ matcher, (∀ fuel > e, new fuel code infoLen e rv = some (.ok matcher)) ∧ Fits code infoLen e rv matcher := by
  obtain ⟨m, filled, enough⟩ :=
    fill_rounds (order_ne_nil low layout known) (show e - ([] : List Nat).length < e + 1 by simp)
  rw [List.nil_append, List.length_nil, Nat.sub_zero] at filled
  rw [List.length_nil, Nat.sub_zero] at enough
  refine ⟨⟨infoLen, e, rv, code.nCb, code.nFull, code.k, 2 * code.z, _⟩, fun fuel more => ?_,
    ⟨rfl, rfl, rfl, rfl, rfl, rfl, List.length_take_of_le enough, ?_⟩⟩
  · unfold new
    rw [if_neg (by omega), if_neg (by omega), fill_mono more filled]
    rfl
  · have rounds : (List.replicate m (order code infoLen rv)).flatten =
        (walk code.nCb (k0 code rv) (m * code.nCb)).filter (keeps code infoLen) := by
      rw [walk_rounds, List.filter_flatten, List.map_replicate, order_eq low layout known]
    obtain ⟨t, within, same⟩ := take_filter (keeps code infoLen) (walk code.nCb (k0 code rv) (m * code.nCb)) e
    refine ⟨t, ?_⟩
    rw [walk, List.length_map, List.length_range] at within
    simp only
    rw [rounds, same, take_walk within]

/-- What is built, whatever the fuel, is that pattern. -/
theorem fits_of_new (layout : Layout code) {fuel e rv : Nat} {matcher : RateMatcher}
    (made : new fuel code infoLen e rv = some (.ok matcher)) : Fits code infoLen e rv matcher := by
  by_cases known : rv ≤ 3
  swap
  · simp [new, Nat.lt_of_not_le known] at made
  by_cases inside : infoLen < 2 * code.z ∨ code.k < infoLen
  · simp [new, Nat.not_lt.mpr known, inside] at made
  have low : 2 * code.z ≤ infoLen := by omega
  obtain ⟨other, returns, fits⟩ := new_fits layout low (by omega) e known
  have again := returns (max fuel (e + 1)) (by omega)
  have same : new (max fuel (e + 1)) code infoLen e rv = some (.ok matcher) := by
    unfold new at made ⊢
    rw [if_neg (by omega), if_neg inside] at made ⊢
    obtain ⟨positions, filled, whole⟩ := Option.map_eq_some_iff.mp made
    rw [fill_mono (Nat.le_max_left ..) filled, Option.map_some, whole]
  rw [again, Option.some.injEq, Except.ok.injEq] at same
  exact same ▸ fits

variable {matcher : RateMatcher} {e rv : Nat}

/-- The codeword bits a pattern reads: neither punctured nor filler. -/
theorem Fits.reads (fits : Fits code infoLen e rv matcher) (layout : Layout code) {i : Nat}
    (member : i ∈ matcher.positions) :
    i < code.nCb ∧ 2 * code.z + i < code.nFull ∧ ¬(infoLen ≤ 2 * code.z + i ∧ 2 * code.z + i < code.k) := by
  obtain ⟨t, walked⟩ := fits.walked
  have parity := layout.parity
  have info := layout.info
  have buffer := layout.buffer
  rw [walked] at member
  obtain ⟨among, kept⟩ := List.mem_filter.mp member
  have below := mem_walk (by omega) among
  simp only [keeps, Bool.not_eq_true', Bool.and_eq_false_iff, decide_eq_false_iff_not] at kept
  omega

theorem Fits.matchBits (fits : Fits code infoLen e rv matcher) {cw : Bytes} (length : cw.length = code.nFull) :
    matcher.matchBits cw = .ok ((matcher.positions.map (2 * code.z + ·)).map fun i => cw.getD i 0) := by
  unfold RateMatcher.matchBits
  rw [if_neg (by rw [length, fits.nFull_eq]; simp), fits.twoZ_eq, List.map_map]
  refine congrArg Except.ok (List.map_congr_left fun i _ => ?_)
  simp only [Function.comp_apply, List.getD_eq_getElem?_getD, List.getElem?_drop]

/-! ### Recovery -/

/-- The ratios of a transmission, by codeword index. -/
def received (code : NrLdpcCode) (transmissions : List (RateMatcher × List ℚ)) : List (ℕ × ℚ) :=
  transmissions.flatMap fun t => (t.1.positions.zip t.2).map fun pair => (2 * code.z + pair.1, pair.2)

/-- What is held before anything is received. -/
def pinned (code : NrLdpcCode) (infoLen i : Nat) : ℚ := if infoLen ≤ i ∧ i < code.k then fillerLlr else 0

/-- A codeword of ratios: those pinned, and the sums of those received. -/
def Holds (code : NrLdpcCode) (infoLen : Nat) (pairs : List (ℕ × ℚ)) (full : List ℚ) : Prop :=
  full.length = code.nFull ∧ ∀ i < code.nFull, full.getD i 0 = pinned code infoLen i + (valuesAt pairs i).sum

theorem Fits.fresh (fits : Fits code infoLen e rv matcher) : Holds code infoLen [] matcher.fresh := by
  unfold RateMatcher.fresh
  refine ⟨by simp [fits.nFull_eq], fun i inside => ?_⟩
  rw [List.getD_eq_getElem _ _ (by simpa [fits.nFull_eq] using inside)]
  simp [pinned, valuesAt, fits.infoLen_eq, fits.k_eq]

theorem valuesAt_append (pairs pairs' : List (ℕ × ℚ)) (i : ℕ) :
    valuesAt (pairs ++ pairs') i = valuesAt pairs i ++ valuesAt pairs' i := by
  simp [valuesAt]

theorem valuesAt_shifted (pairs : List (ℕ × ℚ)) (d i : ℕ) :
    valuesAt (pairs.map fun pair => (d + pair.1, pair.2)) (d + i) = valuesAt pairs i := by
  simp [valuesAt, List.filter_map, Function.comp_def]

/-- One transmission adds its ratios, each at its bit. -/
theorem Fits.recover (fits : Fits code infoLen e rv matcher) (layout : Layout code) {llr : List ℚ}
    (length : llr.length = e) {pairs : List (ℕ × ℚ)} {previous : List ℚ} (holds : Holds code infoLen pairs previous)
    {buffer : Option (List ℚ)} (from_ : buffer = some previous ∨ buffer = none ∧ previous = matcher.fresh) :
    ∃ full, matcher.recover llr buffer = .ok full ∧ Holds code infoLen (pairs ++ received code [(matcher, llr)]) full := by
  obtain ⟨size, sums⟩ := holds
  have room := layout.buffer
  have full_ : matcher.recover llr buffer = .ok (previous.take matcher.twoZ ++ (previous.drop matcher.twoZ).mapIdx
      fun i slot => slot + (scatter (List.replicate matcher.nCb 0) (matcher.positions.zip llr)).getD i 0) := by
    unfold RateMatcher.recover
    rw [if_neg (by rw [length, fits.e_eq]; simp)]
    rcases from_ with rfl | ⟨rfl, rfl⟩
    · simp only
      rw [if_neg (by rw [size, fits.nFull_eq]; simp)]
      rfl
    · rfl
  refine ⟨_, full_, ?_, fun i inside => ?_⟩
  · rw [List.length_append, List.length_take, List.length_mapIdx, List.length_drop, size, fits.twoZ_eq]
    omega
  have front : (previous.take matcher.twoZ).length = 2 * code.z := by
    rw [List.length_take, size, fits.twoZ_eq]
    omega
  have shifted : received code [(matcher, llr)] =
      (matcher.positions.zip llr).map fun pair => (2 * code.z + pair.1, pair.2) := by
    simp [received]
  rw [valuesAt_append, List.sum_append, ← add_assoc, ← sums i inside, shifted]
  rcases Nat.lt_or_ge i (2 * code.z) with punctured | beyond
  · have none_ : valuesAt ((matcher.positions.zip llr).map fun pair => (2 * code.z + pair.1, pair.2)) i = [] :=
      valuesAt_eq_nil fun pair member => by
        obtain ⟨_, _, rfl⟩ := List.mem_map.mp member
        simp only
        omega
    rw [none_, List.sum_nil, add_zero, List.getD_append _ _ _ _ (by rw [front]; exact punctured), fits.twoZ_eq,
      List.getD_eq_getElem?_getD, List.getElem?_take, if_pos punctured, List.getD_eq_getElem?_getD]
  · obtain ⟨j, rfl⟩ := Nat.exists_eq_add_of_le beyond
    have within : j < ((previous.drop matcher.twoZ).mapIdx fun i slot =>
        slot + (scatter (List.replicate matcher.nCb 0) (matcher.positions.zip llr)).getD i 0).length := by
      rw [List.length_mapIdx, List.length_drop, size, fits.twoZ_eq]
      omega
    have place : j < (List.replicate matcher.nCb (0 : ℚ)).length := by
      rw [List.length_replicate, fits.nCb_eq]
      omega
    have zero : (List.replicate matcher.nCb (0 : ℚ)).getD j 0 = 0 := by
      rw [List.getD_eq_getElem _ _ place, List.getElem_replicate]
    rw [valuesAt_shifted, List.getD_append_right _ _ _ _ (by rw [front]; omega), front, Nat.add_sub_cancel_left,
      List.getD_eq_getElem _ _ within, List.getElem_mapIdx, getD_scatter _ place, zero, zero_add, List.getElem_drop,
      List.getD_eq_getElem _ _ (by rw [size]; exact inside)]
    simp only [fits.twoZ_eq]

/-- A transmission of a code and an information length. -/
def Sent (code : NrLdpcCode) (infoLen : Nat) (t : RateMatcher × List ℚ) : Prop :=
  ∃ fuel e rv, new fuel code infoLen e rv = some (.ok t.1) ∧ t.2.length = e

/-- Transmissions recovered one into the next add up. -/
theorem recoverAll_from (layout : Layout code) {ts : List (RateMatcher × List ℚ)} (sent : ∀ t ∈ ts, Sent code infoLen t)
    {pairs : List (ℕ × ℚ)} {previous : List ℚ} (holds : Holds code infoLen pairs previous) :
    ∃ full, ts.foldlM (fun buffer t => return some (← t.1.recover t.2 buffer)) (some previous) =
        (.ok (some full) : Except FecError _) ∧ Holds code infoLen (pairs ++ received code ts) full := by
  induction ts generalizing pairs previous with
  | nil => exact ⟨previous, rfl, by simpa [received] using holds⟩
  | cons t rest ih =>
    obtain ⟨⟨_, _, _, made, length⟩, later⟩ := List.forall_mem_cons.mp sent
    obtain ⟨next, recovered, holds'⟩ := (fits_of_new layout made).recover layout length holds (.inl rfl)
    obtain ⟨full, run, sums⟩ := ih later holds'
    refine ⟨full, ?_, ?_⟩
    · rw [List.foldlM_cons, recovered]
      exact run
    · simpa [received] using sums

theorem recoverAll_holds (layout : Layout code) {ts : List (RateMatcher × List ℚ)} (some_ : ts ≠ [])
    (sent : ∀ t ∈ ts, Sent code infoLen t) :
    ∃ full, recoverAll ts = .ok (some full) ∧ Holds code infoLen (received code ts) full := by
  match ts, some_ with
  | t :: rest, _ =>
    obtain ⟨⟨_, _, _, made, length⟩, later⟩ := List.forall_mem_cons.mp sent
    have fits := fits_of_new layout made
    obtain ⟨next, recovered, holds⟩ := fits.recover layout length fits.fresh (.inr ⟨rfl, rfl⟩)
    obtain ⟨full, run, sums⟩ := recoverAll_from layout later holds
    refine ⟨full, ?_, by simpa [received] using sums⟩
    unfold recoverAll
    rw [List.foldlM_cons, recovered]
    exact run

/-- In whatever order. -/
theorem Holds.unique {pairs pairs' : List (ℕ × ℚ)} {full full' : List ℚ} (same : pairs.Perm pairs')
    (holds : Holds code infoLen pairs full) (holds' : Holds code infoLen pairs' full') : full = full' := by
  obtain ⟨length, sums⟩ := holds
  obtain ⟨length', sums'⟩ := holds'
  refine List.ext_getElem (length.trans length'.symm) fun i inside inside' => ?_
  have sum : (valuesAt pairs i).sum = (valuesAt pairs' i).sum := ((same.filter _).map _).sum_eq
  rw [← List.getD_eq_getElem full 0 inside, ← List.getD_eq_getElem full' 0 inside', sums i (length ▸ inside),
    sums' i (length ▸ inside), sum]

/-- Neither a punctured bit nor a filler is received. -/
theorem mem_received (layout : Layout code) {ts : List (RateMatcher × List ℚ)} (sent : ∀ t ∈ ts, Sent code infoLen t)
    {i : ℕ} {value : ℚ} (member : (i, value) ∈ received code ts) :
    2 * code.z ≤ i ∧ i < code.nFull ∧ ¬(infoLen ≤ i ∧ i < code.k) := by
  obtain ⟨t, among, inside⟩ := List.mem_flatMap.mp member
  obtain ⟨pair, zipped, same⟩ := List.mem_map.mp inside
  obtain ⟨_, _, _, made, _⟩ := sent t among
  have := (fits_of_new layout made).reads layout (List.of_mem_zip zipped).1
  obtain ⟨rfl, rfl⟩ := Prod.mk.inj same
  omega

/-- The ratios of a transmission have the signs of the bits sent: negative for one. -/
def Agrees (cw : Bytes) (t : RateMatcher × List ℚ) : Prop :=
  ∀ bits, t.1.matchBits cw = .ok bits → ∀ pair ∈ bits.zip t.2, (pair.1 = 1 → pair.2 < 0) ∧ (pair.1 = 0 → 0 < pair.2)

theorem received_agrees {ts : List (RateMatcher × List ℚ)} (layout : Layout code) (sent : ∀ t ∈ ts, Sent code infoLen t)
    {cw : Bytes} (length : cw.length = code.nFull) (agrees : ∀ t ∈ ts, Agrees cw t) {i : ℕ} {value : ℚ}
    (member : (i, value) ∈ received code ts) : (cw.getD i 0 = 1 → value < 0) ∧ (cw.getD i 0 = 0 → 0 < value) := by
  obtain ⟨t, among, inside⟩ := List.mem_flatMap.mp member
  obtain ⟨pair, zipped, same⟩ := List.mem_map.mp inside
  obtain ⟨rfl, rfl⟩ := Prod.mk.inj same
  obtain ⟨_, _, _, made, _⟩ := sent t among
  have bits := (fits_of_new layout made).matchBits length
  have matched : (cw.getD (2 * code.z + pair.1) 0, pair.2) ∈
      ((t.1.positions.map (2 * code.z + ·)).map fun i => cw.getD i 0).zip t.2 := by
    rw [List.map_map, List.zip_map_left]
    exact List.mem_map.mpr ⟨pair, zipped, rfl⟩
  exact agrees t among _ bits _ matched

theorem sum_neg {values : List ℚ} (some_ : values ≠ []) (all : ∀ value ∈ values, value < 0) : values.sum < 0 := by
  have flipped : ∀ value ∈ values.map Neg.neg, 0 < value := fun _ member => by
    obtain ⟨value, inside, rfl⟩ := List.mem_map.mp member
    exact neg_pos.mpr (all value inside)
  have positive := List.sum_pos (values.map Neg.neg) flipped (by simpa using some_)
  rw [← List.sum_neg] at positive
  exact neg_pos.mp positive

/-- Whatever is selected at least once. -/
theorem values_ne_nil {ts : List (RateMatcher × List ℚ)} (layout : Layout code) (sent : ∀ t ∈ ts, Sent code infoLen t)
    {t : RateMatcher × List ℚ} (among : t ∈ ts) {j : ℕ} (selected : j ∈ t.1.positions) :
    valuesAt (received code ts) (2 * code.z + j) ≠ [] := by
  obtain ⟨_, _, _, made, length⟩ := sent t among
  obtain ⟨n, inside, rfl⟩ := List.mem_iff_getElem.mp selected
  have size : n < t.2.length := by rwa [length, ← (fits_of_new layout made).length]
  have zipped : (t.1.positions[n], t.2[n]) ∈ t.1.positions.zip t.2 := by
    refine List.mem_iff_getElem.mpr ⟨n, by rw [List.length_zip]; omega, ?_⟩
    rw [List.getElem_zip]
  exact List.ne_nil_of_mem (mem_valuesAt.mpr (List.mem_flatMap.mpr ⟨t, among, List.mem_map.mpr ⟨_, zipped, rfl⟩⟩))

/-- Rate matching and soft recovery agree: a pattern is the buffer walked from `k0` with the
fillers passed over, and each bit ends with the sum of what was received for it. -/
theorem rate_matching (bg z : Nat) (code : NrLdpcCode) (made : NrLdpcCode.new bg z = .ok code) (infoLen : Nat)
    (low : 2 * z ≤ infoLen) (high : infoLen ≤ code.k) :
    (∀ e rv, rv ≤ 3 → ∃ matcher, (∀ fuel > e, new fuel code infoLen e rv = some (.ok matcher)) ∧
      matcher.positions.length = e ∧
      (∃ t, matcher.positions = (walk code.nCb (k0 code rv) t).filter fun i =>
        !(infoLen ≤ 2 * z + i && 2 * z + i < code.k)) ∧
      (∀ cw : Bytes, cw.length = code.nFull →
        matcher.matchBits cw = .ok ((matcher.positions.map (2 * z + ·)).map fun i => cw.getD i 0)) ∧
      ∀ i ∈ matcher.positions.map (2 * z + ·), 2 * z ≤ i ∧ i < code.nFull ∧ ¬(infoLen ≤ i ∧ i < code.k)) ∧
    ∀ ts : List (RateMatcher × List ℚ), ts ≠ [] → (∀ t ∈ ts, Sent code infoLen t) →
      ∃ full, recoverAll ts = .ok (some full) ∧ full.length = code.nFull ∧
        (∀ i < code.nFull, full.getD i 0 = if infoLen ≤ i ∧ i < code.k then fillerLlr else if i < 2 * z then 0
          else (valuesAt (received code ts) i).sum) ∧
        (∀ ts', ts'.Perm ts → recoverAll ts' = .ok (some full)) ∧
        ∀ cw : Bytes, cw.length = code.nFull → (∀ t ∈ ts, Agrees cw t) → ∀ t ∈ ts, ∀ j ∈ t.1.positions,
          (cw.getD (2 * z + j) 0 = 1 → full.getD (2 * z + j) 0 < 0) ∧
            (cw.getD (2 * z + j) 0 = 0 → 0 < full.getD (2 * z + j) 0) := by
  obtain ⟨rfl, layout⟩ := layout_new made
  refine ⟨fun e rv known => ?_, fun ts some_ sent => ?_⟩
  · obtain ⟨matcher, returns, fits⟩ := new_fits layout low high e known
    refine ⟨matcher, returns, fits.length, fits.walked, fun cw length => fits.matchBits length, fun i member => ?_⟩
    obtain ⟨j, selected, rfl⟩ := List.mem_map.mp member
    exact ⟨Nat.le_add_right .., (fits.reads layout selected).2⟩
  obtain ⟨full, run, holds⟩ := recoverAll_holds layout some_ sent
  refine ⟨full, run, holds.1, fun i inside => ?_, fun ts' perm => ?_, fun cw length agrees t among j selected => ?_⟩
  · have none_ (out : i < 2 * code.z ∨ infoLen ≤ i ∧ i < code.k) : valuesAt (received code ts) i = [] :=
      List.eq_nil_iff_forall_not_mem.mpr fun value member => by
        have := mem_received layout sent (mem_valuesAt.mp member)
        omega
    rw [holds.2 i inside]
    unfold pinned
    by_cases filler : infoLen ≤ i ∧ i < code.k
    · rw [if_pos filler, if_pos filler, none_ (.inr filler), List.sum_nil, add_zero]
    · rw [if_neg filler, if_neg filler, zero_add]
      by_cases punctured : i < 2 * code.z
      · rw [if_pos punctured, none_ (.inl punctured), List.sum_nil]
      · rw [if_neg punctured]
  · have some_' : ts' ≠ [] := fun none_ => some_ (by rw [none_] at perm; exact perm.nil_eq.symm)
    obtain ⟨full', run', holds'⟩ := recoverAll_holds layout some_' fun t member => sent t (perm.mem_iff.mp member)
    rw [run', holds'.unique (perm.flatMap_right _) holds]
  · obtain ⟨_, _, _, matched, _⟩ := sent t among
    obtain ⟨_, inside, kept⟩ := (fits_of_new layout matched).reads layout selected
    have some_values := values_ne_nil layout sent among selected
    have signs {value : ℚ} (member : value ∈ valuesAt (received code ts) (2 * code.z + j)) :=
      received_agrees layout sent length agrees (mem_valuesAt.mp member)
    rw [holds.2 _ inside, pinned, if_neg kept, zero_add]
    exact ⟨fun one => sum_neg some_values fun value member => (signs member).1 one,
      fun zero => List.sum_pos _ (fun value member => (signs member).2 zero) some_values⟩

/-- A short block, with fillers over most of the information part. -/
theorem rate_matching_short : ∃ code matcher, NrLdpcCode.new 2 30 = .ok code ∧
    (∀ fuel > 400, new fuel code 100 400 2 = some (.ok matcher)) ∧ matcher.positions.length = 400 := by
  obtain ⟨code, made⟩ : ∃ code, NrLdpcCode.new 2 30 = .ok code := ⟨_, rfl⟩
  have k : code.k = 300 := by
    obtain ⟨g, iLs, p, _, _, rfl⟩ := NrLdpcCode.new_ok made
    rfl
  obtain ⟨matcher, returns, length, _⟩ := (rate_matching 2 30 code made 100 (by decide) (by rw [k]; decide)).1 400 2
    (by decide)
  exact ⟨code, matcher, made, returns, length⟩

end RateMatcher

end AetherHF.Fec

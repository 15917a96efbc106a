import AetherHF.Fec.Erasures
import AetherHF.Fec.RateMatch

/-! The base graph and lifting size of a block, and what a transmission at redundancy version 0 covers of its
codeword: where the rows give the rest, it is decoded from that transmission and any others. -/
namespace AetherHF.Fec

open Peeling Circular

/-! ### The code of a block -/

/-- The information columns a block of this length is spread over. -/
def kbFor (bg infoLen : Nat) : Nat :=
  if bg = 1 then 22
  else if 640 < infoLen then 10
  else if 560 < infoLen then 9
  else if 192 < infoLen then 8
  else 6

/-- The smallest lifting size that holds the block. -/
def selectLiftingSize (bg infoLen : Nat) : Except FecError Nat :=
  match allLiftingSizes.find? fun z => infoLen ≤ kbFor bg infoLen * z with
  | some z => .ok z
  | none => .error (.blockTooLong infoLen (kbFor bg infoLen * 384))

def selectBaseGraph (payloadBits : Nat) (rate : ℚ) : Nat :=
  if payloadBits ≤ 292 ∨ (payloadBits ≤ 3824 ∧ rate ≤ 67 / 100) ∨ rate ≤ 1 / 4 then 2 else 1

/-! ### What redundancy version 0 covers -/

/-- How much of a column is below `top`. -/
def knownOf (z top col : Nat) : Nat := min z (top - col * z)

/-- What is unknown of the columns when the codeword is known from the third column to `top`. -/
def unknownFrom (cols z top : Nat) : List Nat :=
  (List.range cols).map fun col => if col < 2 then 2 ^ z - 1 else (2 ^ (z - knownOf z top col) - 1) <<< knownOf z top col

theorem unknownFrom_known {cols z top col r : Nat} (inside : col < cols) (low : r < z)
    (clear : ((unknownFrom cols z top).getD col 0).testBit r = false) : 2 ≤ col ∧ col * z + r < top := by
  have at_ : (unknownFrom cols z top).getD col 0 =
      if col < 2 then 2 ^ z - 1 else (2 ^ (z - knownOf z top col) - 1) <<< knownOf z top col := by
    rw [unknownFrom, List.getD_eq_getElem _ _ (by simpa using inside), List.getElem_map, List.getElem_range]
  rw [at_] at clear
  split at clear
  · rw [Nat.testBit_two_pow_sub_one, decide_eq_false_iff_not] at clear
    exact absurd low clear
  · rw [Nat.testBit_shiftLeft, Nat.testBit_two_pow_sub_one, Bool.and_eq_false_iff, decide_eq_false_iff_not,
      decide_eq_false_iff_not] at clear
    unfold knownOf at clear
    omega

/-- Whether a transmission at redundancy version 0 leaves nothing that the rows do not give. -/
def recovers (bg z infoLen e : Nat) : Bool :=
  match baseGraph bg, liftingSetIndex z with
  | some g, some iLs =>
    let k := (if bg = 1 then 22 else 10) * z
    2 * z ≤ infoLen && infoLen ≤ k && infoLen - 2 * z ≤ e &&
      (solveAll z ((g.tableRows iLs).map fun row => row.map fun e => (e.1, e.2 % z))
        (unknownFrom g.cols z (k + (e - (infoLen - 2 * z))))).all (· = 0)
  | _, _ => false

/-- What that says of a code. -/
structure Recovers (code : NrLdpcCode) (infoLen e : Nat) : Prop where
  low : 2 * code.z ≤ infoLen
  high : infoLen ≤ code.k
  most : infoLen - 2 * code.z ≤ e
  gives : ∃ cols, code.nFull = cols * code.z ∧
    ∀ mask ∈ solveAll code.z code.blockRows (unknownFrom cols code.z (code.k + (e - (infoLen - 2 * code.z)))), mask = 0

theorem recovers_code {bg z infoLen e : Nat} {code : NrLdpcCode} (made : NrLdpcCode.new bg z = .ok code)
    (does : recovers bg z infoLen e = true) : Recovers code infoLen e := by
  obtain ⟨g, iLs, p, table, set_, rfl⟩ := NrLdpcCode.new_ok made
  rw [recovers, table, set_] at does
  simp only [Bool.and_eq_true, decide_eq_true_eq, List.all_eq_true] at does
  obtain ⟨⟨⟨low, high⟩, most⟩, gives⟩ := does
  exact ⟨low, high, most, g.cols, rfl, gives⟩

theorem recovers_sized {bg z infoLen e : Nat} (does : recovers bg z infoLen e = true) :
    (bg = 1 ∨ bg = 2) ∧ z ∈ allLiftingSizes := by
  unfold recovers at does
  split at does
  · rename_i g iLs table set_
    obtain ⟨inside, member, -⟩ := List.findIdx?_eq_some_iff_getElem.mp set_
    refine ⟨?_, (List.perm_insertionSort ..).mem_iff.mpr (List.mem_flatten.mpr ⟨_, List.getElem_mem inside, ?_⟩)⟩
    · unfold baseGraph at table
      split at table
      · exact .inl rfl
      · exact .inr rfl
      · cases table
    · exact of_decide_eq_true member
  · cases does

/-- Decoding a word of the codeword's length ends, in a word of that length. -/
theorem decodeFrom_ends {code : NrLdpcCode} (alpha : ℚ) (left iterations : Nat) {s : Decoder ℚ}
    (length : s.post.length = code.nFull) :
    ∃ d, code.decodeFrom alpha left iterations s = .ok d ∧ d.bits.length = code.nFull ∧ ∀ b ∈ d.bits, b = 0 ∨ b = 1 := by
  have decided (post : List ℚ) : ∀ b ∈ hard post, b = 0 ∨ b = 1 := by
    intro b member
    obtain ⟨v, -, rfl⟩ := List.mem_map.mp member
    split
    · exact .inr rfl
    · exact .inl rfl
  induction left generalizing iterations s with
  | zero => exact ⟨_, rfl, (List.length_map _).trans length, decided _⟩
  | succ left ih =>
    have length' : (code.iteration alpha s).post.length = code.nFull := (length_layers ..).trans length
    have size : (hard (code.iteration alpha s).post).length = code.nFull := (List.length_map _).trans length'
    rw [NrLdpcCode.decodeFrom]
    unfold NrLdpcCode.syndromeOk
    rw [if_neg (not_not.mpr size)]
    dsimp only [bind, Except.bind]
    split
    · exact ⟨_, rfl, size, decided _⟩
    · exact ih (iterations + 1) length'

theorem decode_ends {code : NrLdpcCode} {llr : List ℚ} (length : llr.length = code.nFull) (maxIter : Nat) (alpha : ℚ) :
    ∃ d, code.decode llr maxIter alpha = .ok d ∧ d.bits.length = code.nFull ∧ ∀ b ∈ d.bits, b = 0 ∨ b = 1 := by
  rw [NrLdpcCode.decode, if_neg (not_not.mpr length)]
  exact decodeFrom_ends alpha maxIter 0 length

namespace RateMatcher

variable {code : NrLdpcCode} {infoLen e : Nat} {matcher : RateMatcher}

/-- Redundancy version 0 takes the buffer from its start. -/
theorem Fits.covers (fits : Fits code infoLen e 0 matcher) (layout : Layout code) (low : 2 * code.z ≤ infoLen)
    (high : infoLen ≤ code.k) (most : infoLen - 2 * code.z ≤ e) {j : Nat} (inside : j < code.nCb)
    (kept : keeps code infoLen j = true) (early : 2 * code.z + j < code.k + (e - (infoLen - 2 * code.z))) :
    j ∈ matcher.positions := by
  obtain ⟨t, walked⟩ := fits.walked
  have first : k0 code 0 = 0 := by
    unfold k0
    split <;> exact Nat.zero_mul _
  rw [first] at walked
  have start (i : Nat) (short : i < code.nCb) : (0 + i) % code.nCb = i := by rw [Nat.zero_add, Nat.mod_eq_of_lt short]
  by_cases far : j < t
  · rw [walked]
    refine List.mem_filter.mpr ⟨?_, kept⟩
    exact List.mem_map.mpr ⟨j, List.mem_range.mpr far, start j inside⟩
  -- else those before it are already more than there are
  have round : walk code.nCb 0 t = List.range t := by
    rw [walk]
    conv_rhs => rw [← List.map_id (List.range t)]
    exact List.map_congr_left fun i member => start i (by have := List.mem_range.mp member; omega)
  have apart : matcher.positions.Nodup := by
    rw [walked, round]
    exact List.nodup_range.filter _
  have among : matcher.positions ⊆ List.range (min j (infoLen - 2 * code.z)) ++
      List.range' (code.k - 2 * code.z) (j - (code.k - 2 * code.z)) := by
    intro i member
    rw [walked, round] at member
    obtain ⟨before, kept⟩ := List.mem_filter.mp member
    have before := List.mem_range.mp before
    simp only [keeps, Bool.not_eq_true', Bool.and_eq_false_iff, decide_eq_false_iff_not] at kept
    rw [List.mem_append, List.mem_range, List.mem_range'_1]
    omega
  have count := (apart.subperm among).length_le
  rw [fits.length, List.length_append, List.length_range, List.length_range'] at count
  have info := layout.info
  simp only [keeps, Bool.not_eq_true', Bool.and_eq_false_iff, decide_eq_false_iff_not] at kept
  omega

variable {cw : Bytes} {ts : List (RateMatcher × List ℚ)}

/-- What is held is never wrong in sign, and what is covered is there. -/
theorem Holds.heard (layout : Layout code) (recovers : Recovers code infoLen e) (sent : ∀ t ∈ ts, Sent code infoLen t)
    (bits : ∀ b ∈ cw, b = 0 ∨ b = 1) (size : cw.length = code.nFull)
    (fillers : ∀ i, infoLen ≤ i → i < code.k → cw.getD i 0 = 0) (agrees : ∀ t ∈ ts, Agrees cw t)
    {t : RateMatcher × List ℚ} (among : t ∈ ts) (fits : Fits code infoLen e 0 t.1) {full : List ℚ}
    (holds : Holds code infoLen (received code ts) full) {cols : Nat} (columns : code.nFull = cols * code.z) :
    Heard code.z (unknownFrom cols code.z (code.k + (e - (infoLen - 2 * code.z)))) cw full := by
  have bit (i : Nat) : cw.getD i 0 = 0 ∨ cw.getD i 0 = 1 := by
    by_cases inside : i < cw.length
    · rw [List.getD_eq_getElem _ _ inside]
      exact bits _ (List.getElem_mem inside)
    · exact .inl (List.getD_eq_default _ _ (Nat.le_of_not_lt inside))
  have signs {i : Nat} {value : ℚ} (member : value ∈ valuesAt (received code ts) i) :
      (cw.getD i 0 = 1 → value < 0) ∧ (cw.getD i 0 = 0 → 0 < value) :=
    received_agrees layout sent size agrees (mem_valuesAt.mp member)
  -- a pinned filler is received by nobody
  have pinned_ {i : Nat} (filler : infoLen ≤ i ∧ i < code.k) : valuesAt (received code ts) i = [] :=
    List.eq_nil_iff_forall_not_mem.mpr fun value member => by
      have := mem_received layout sent (mem_valuesAt.mp member)
      omega
  refine ⟨holds.1.trans size.symm, fun i => ?_, ?_⟩
  · by_cases inside : i < code.nFull
    swap
    · rw [List.getD_eq_default _ _ (by rw [holds.1]; omega), mul_zero]
    rw [holds.2 i inside, pinned]
    split
    · rename_i filler
      rw [pinned_ filler, signsOf, fillers i filler.1 filler.2]
      exact (show (0 : ℚ) ≤ 1 * (1000 + 0) by norm_num)
    · rw [zero_add, signsOf, signBit]
      split
      · rename_i one_
        rw [neg_one_mul, neg_nonneg]
        rcases eq_or_ne (valuesAt (received code ts) i) [] with none_ | some_
        · rw [none_, List.sum_nil]
        · exact (sum_neg some_ fun value member => (signs member).1 one_).le
      · rename_i zero
        rw [one_mul]
        exact List.sum_nonneg fun value member => ((signs member).2 ((bit i).resolve_right zero)).le
  · intro col short r low clear
    rw [unknownFrom, List.length_map, List.length_range] at short
    obtain ⟨third, early⟩ := unknownFrom_known short low clear
    have inside : col * code.z + r < code.nFull := columns ▸ place_lt ⟨r, low⟩ short
    have beyond : 2 * code.z ≤ col * code.z + r := (Nat.mul_le_mul_right code.z third).trans (Nat.le_add_right ..)
    obtain ⟨j, is⟩ := Nat.exists_eq_add_of_le beyond
    rw [is] at early inside ⊢
    rw [holds.2 _ inside, pinned]
    by_cases filler : infoLen ≤ 2 * code.z + j ∧ 2 * code.z + j < code.k
    · rw [if_pos filler, pinned_ filler]
      exact (show (1000 : ℚ) + 0 ≠ 0 by norm_num)
    · have kept : keeps code infoLen j = true := by
        simpa only [keeps, Bool.not_eq_true', Bool.and_eq_false_iff, decide_eq_false_iff_not, not_and_or] using filler
      have buffer := layout.buffer
      have selected := fits.covers layout recovers.low recovers.high recovers.most (by omega) kept early
      have some_ := values_ne_nil layout sent among selected
      rw [if_neg filler, zero_add]
      rcases bit (2 * code.z + j) with zero | one_
      · exact (List.sum_pos _ (fun value member => (signs member).2 zero) some_).ne'
      · exact (sum_neg some_ fun value member => (signs member).1 one_).ne

/-- So the codeword is decoded at once. -/
theorem Holds.decode {bg z : Nat} (made : NrLdpcCode.new bg z = .ok code) (recovers : Recovers code infoLen e)
    (sent : ∀ t ∈ ts, Sent code infoLen t) (bits : ∀ b ∈ cw, b = 0 ∨ b = 1) (codeword : code.syndromeOk cw = .ok true)
    (fillers : ∀ i, infoLen ≤ i → i < code.k → cw.getD i 0 = 0) (agrees : ∀ t ∈ ts, Agrees cw t)
    {t : RateMatcher × List ℚ} (among : t ∈ ts) (fits : Fits code infoLen e 0 t.1) {full : List ℚ}
    (holds : Holds code infoLen (received code ts) full) {alpha : ℚ} (some_ : 0 < alpha) (left : Nat) :
    code.decode full (left + 1) alpha = .ok ⟨cw, true, 1⟩ := by
  obtain ⟨rfl, layout⟩ := layout_new made
  obtain ⟨cols, columns, gives⟩ := recovers.gives
  have heard := holds.heard layout recovers sent bits (syndromeOk_length codeword) fillers agrees among fits columns
  refine decode_heard made bits codeword ?_ (fun mask member r _ => ?_) heard some_ left
  · rw [unknownFrom, List.length_map, List.length_range, columns]
  · rw [gives mask member, Nat.zero_testBit]

end RateMatcher

end AetherHF.Fec

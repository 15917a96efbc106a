import Mathlib.Data.Nat.ModEq
import AetherHF.Base.Peeling
import AetherHF.Fec.Decoding

/-! What the decoder fills in. Where no value is wrong in sign, and the block rows taken once each give
every value that is missing, the first iteration gives the codeword. -/
namespace AetherHF.Fec

open MinSum Peeling

/-! ### Rows -/

theorem graphs_apart : ∀ g ∈ graphs, ∀ iLs < 8, ∀ row ∈ g.1.tableRows iLs, (row.map Prod.fst).Nodup := by decide +kernel

/-- What every block row has: two entries at least, in columns of their own. -/
structure Wired (code : NrLdpcCode) (cols : Nat) : Prop where
  positive : 0 < code.z
  columns : code.nFull = cols * code.z
  two : ∀ row ∈ code.blockRows, 2 ≤ row.length
  apart : ∀ row ∈ code.blockRows, (row.map Prod.fst).Nodup
  inside : ∀ row ∈ code.blockRows, ∀ e ∈ row, e.1 < cols ∧ e.2 < code.z

theorem wired_of_new {bg z : Nat} {code : NrLdpcCode} (made : NrLdpcCode.new bg z = .ok code) :
    ∃ cols, code.z = z ∧ Wired code cols := by
  obtain ⟨g, iLs, p, table, set_, rfl⟩ := NrLdpcCode.new_ok made
  have listed : ∃ kb, (g, kb) ∈ graphs := by
    unfold baseGraph at table
    split at table
    · exact ⟨22, Option.some.inj table ▸ List.mem_cons_self⟩
    · exact ⟨10, Option.some.inj table ▸ List.mem_cons_of_mem _ List.mem_cons_self⟩
    · cases table
  obtain ⟨kb, listed⟩ := listed
  have small : iLs < 8 := (List.findIdx?_eq_some_iff_getElem.mp set_).1
  have positive := liftingSetIndex_positive set_
  refine ⟨g.cols, rfl, positive, rfl, ?_, ?_, ?_⟩
  all_goals
    intro row member
    obtain ⟨row, known, rfl⟩ := List.mem_map.mp member
  · exact (graphs_two _ listed iLs small row known).trans_eq (List.length_map _).symm
  · rw [List.map_map]
    exact graphs_apart _ listed iLs small row known
  · intro e among
    obtain ⟨e, entry, rfl⟩ := List.mem_map.mp among
    exact ⟨graphs_inside _ listed iLs small row known e entry, Nat.mod_lt _ positive⟩

variable {code : NrLdpcCode} {cols : Nat}

theorem Wired.bitAt_lt (wired : Wired code cols) {i edge r : Nat} {e : Nat × Nat} (at_ : (code.row i)[edge]? = some e) :
    code.bitAt e r < code.nFull := by
  have member := List.mem_of_getElem? at_
  unfold NrLdpcCode.row at member
  rw [List.getD_eq_getElem?_getD] at member
  cases row : code.blockRows[i]? with
  | none =>
    rw [row] at member
    cases member
  | some entries =>
    rw [row] at member
    have inside := (wired.inside entries (List.mem_of_getElem? row) e member).1
    rw [wired.columns, NrLdpcCode.bitAt]
    exact place_lt ⟨(r + e.2) % code.z, Nat.mod_lt _ wired.positive⟩ inside

theorem Wired.row_apart (wired : Wired code cols) (i : Nat) : ((code.row i).map Prod.fst).Nodup := by
  rw [NrLdpcCode.row, List.getD_eq_getElem?_getD]
  cases row : code.blockRows[i]? with
  | none => exact List.nodup_nil
  | some entries => exact wired.apart entries (List.mem_of_getElem? row)

/-- A row's checks have no bit in common. -/
theorem Wired.bitAt_inj (wired : Wired code cols) {i edge edge' r r' : Nat} {e e' : Nat × Nat}
    (at_ : (code.row i)[edge]? = some e) (at' : (code.row i)[edge']? = some e') (low : r < code.z) (low' : r' < code.z)
    (same : code.bitAt e r = code.bitAt e' r') : edge = edge' ∧ r = r' := by
  have positive := wired.positive
  have left := Nat.mod_lt (r + e.2) positive
  have right := Nat.mod_lt (r' + e'.2) positive
  unfold NrLdpcCode.bitAt at same
  have column : e.1 = e'.1 := by
    have divided := congrArg (· / code.z) same
    simpa only [Nat.mul_comm _ code.z, Nat.mul_add_div positive, Nat.div_eq_of_lt left, Nat.div_eq_of_lt right,
      Nat.add_zero] using divided
  have edges : edge = edge' := by
    refine (List.getElem?_inj (by simpa using (List.getElem?_eq_some_iff.mp at_).1) (wired.row_apart i)).mp ?_
    rw [List.getElem?_map, List.getElem?_map, at_, at', Option.map_some, Option.map_some, column]
  refine ⟨edges, ?_⟩
  subst edges
  obtain rfl := Option.some.inj (at_.symm.trans at')
  have turned : Nat.ModEq code.z r r' := Nat.ModEq.add_right_cancel' e.2 (Nat.add_left_cancel same)
  exact Nat.ModEq.eq_of_lt_of_lt turned low low'

/-! ### One row -/

variable {K : Type} [Field K] [LinearOrder K] [IsStrictOrderedRing K]

/-- A check whose other bits are known gives its bit, and no other check of the row takes it back. -/
theorem Grown.gives {start : List K} {i : Nat} {s : Decoder K} (grown : Grown start i s) (wired : Wired code cols)
    (known : i < code.blockRows.length) (size : s.post.length = code.nFull) (all : ∀ bit, 0 ≤ start.getD bit 0) {alpha : K}
    (some_ : 0 < alpha) {edge r : Nat} {e : Nat × Nat} (at_ : (code.row i)[edge]? = some e) (low : r < code.z)
    (others : ∀ other e', other ≠ edge → (code.row i)[other]? = some e' → 0 < s.post.getD (code.bitAt e' r) 0) :
    0 < (code.layer alpha s i).post.getD (code.bitAt e r) 0 := by
  have read (place : Nat) {e' : Nat × Nat} (here : (code.row i)[place]? = some e') :
      (code.incoming s i r)[place]? = some (s.post.getD (code.bitAt e' r) 0) := by
    rw [NrLdpcCode.incoming, List.getElem?_mapIdx, here, Option.map_some, grown.quiet i le_rfl, sub_zero]
  have values : ∀ v ∈ code.incoming s i r, 0 ≤ v := by
    intro v member
    obtain ⟨place, inside, rfl⟩ := List.mem_mapIdx.mp member
    rw [grown.quiet i le_rfl, sub_zero]
    exact (all _).trans (grown.grown _)
  have two : 2 ≤ (code.incoming s i r).length := by
    rw [NrLdpcCode.incoming, List.length_mapIdx, NrLdpcCode.row, List.getD_eq_getElem _ _ known]
    exact wired.two _ (List.getElem_mem known)
  have told : 0 < message alpha (scan (code.incoming s i r)) edge (s.post.getD (code.bitAt e r) 0) := by
    refine message_pos values two some_ (read edge at_) fun other v apart here => ?_
    cases entry : (code.row i)[other]? with
    | none =>
      rw [NrLdpcCode.incoming, List.getElem?_mapIdx, entry] at here
      cases here
    | some e' => exact Option.some.inj ((read other entry).symm.trans here) ▸ others other e' apart entry
  have value : (code.incoming s i r).getD edge 0 = s.post.getD (code.bitAt e r) 0 := by
    rw [List.getD_eq_getElem?_getD, read edge at_, Option.getD_some]
  have written : 0 < (code.incoming s i r).getD edge 0 +
      message alpha (scan (code.incoming s i r)) edge ((code.incoming s i r).getD edge 0) := by
    rw [value]
    exact add_pos_of_nonneg_of_pos ((all _).trans (grown.grown _)) told
  have room := wired.bitAt_lt (r := r) at_
  let Given (s' : Decoder K) : Prop := s'.post.length = code.nFull → 0 < s'.post.getD (code.bitAt e r) 0
  -- a write to the bit is the check's own
  have step (r' : Nat) (low' : r' < code.z) (entry : (Nat × Nat) × Nat) (among : entry ∈ (code.row i).zipIdx) (s' : Decoder K)
      (given : Given s') : Given (code.update i r' entry.2 entry.1 ((code.incoming s i r').getD entry.2 0)
        (message alpha (scan (code.incoming s i r')) entry.2 ((code.incoming s i r').getD entry.2 0)) s') := by
    intro length
    rw [NrLdpcCode.update, List.length_set] at length
    rw [NrLdpcCode.update, getD_set]
    split
    · rename_i here
      obtain ⟨same, rfl⟩ := wired.bitAt_inj (List.mem_zipIdx_iff_getElem?.mp among) at_ low' low here.1
      rw [same]
      exact written
    · exact given length
  have own (s' : Decoder K) : Given (code.update i r edge e ((code.incoming s i r).getD edge 0)
      (message alpha (scan (code.incoming s i r)) edge ((code.incoming s i r).getD edge 0)) s') := by
    intro length
    rw [NrLdpcCode.update, List.length_set] at length
    rw [NrLdpcCode.update, getD_set, if_pos ⟨rfl, length ▸ room⟩]
    exact written
  have given : Given (code.layer alpha s i) := by
    refine foldl_reaches (List.mem_range.mpr low) (fun s' => ?_) (fun r' member s' given => ?_) s
    · exact foldl_reaches (x := (e, edge)) (List.mem_zipIdx_iff_getElem?.mpr at_) own (step r low) s'
    · exact List.foldlRecOn _ _ given fun s' still entry among => step r' (List.mem_range.mp member) entry among s' still
  have same : Grown s.post i s := ⟨rfl, fun _ => le_rfl, grown.quiet⟩
  refine given ((same.layer ?_ some_.le).length.trans size)
  exact fun bit => (all bit).trans (grown.grown bit)

/-! ### Every row once -/

/-- What the rows taken so far leave unknown is all that may still be zero. -/
theorem Wired.layers (wired : Wired code cols) {start : List K} (size : start.length = code.nFull)
    (all : ∀ bit, 0 ≤ start.getD bit 0) {alpha : K} (some_ : 0 < alpha) {masks : List Nat} (columns : masks.length = cols)
    (leaves : Leaves code.z masks fun col r => 0 < start.getD (col * code.z + r) 0) {n : Nat}
    (within : n ≤ code.blockRows.length) :
    Leaves code.z (solveAll code.z (code.blockRows.take n) masks) fun col r =>
      0 < (code.layers alpha n (code.startDecoder start)).post.getD (col * code.z + r) 0 := by
  induction n with
  | zero => exact leaves
  | succ n ih =>
    have known : n < code.blockRows.length := by omega
    have leaves := ih (by omega)
    have grown : Grown start n (code.layers alpha n (code.startDecoder start)) := .layers all some_.le n
    have row : code.row n = code.blockRows[n] := List.getD_eq_getElem _ _ known
    have step : code.layers alpha (n + 1) (code.startDecoder start) =
        code.layer alpha (code.layers alpha n (code.startDecoder start)) n := by
      rw [NrLdpcCode.layers, List.range_succ, List.foldl_append]
      rfl
    have count : (solveAll code.z (code.blockRows.take n) masks).length = cols := by
      rw [length_solveAll, columns]
    rw [step, List.take_succ_eq_append_getElem known, solveAll, List.foldl_append]
    generalize code.layers alpha n (code.startDecoder start) = s at leaves grown
    have inside := wired.inside _ (List.getElem_mem known)
    have above (bit : Nat) : 0 ≤ s.post.getD bit 0 := (all bit).trans (grown.grown bit)
    have again : Grown s.post n s := ⟨rfl, fun _ => le_rfl, grown.quiet⟩
    refine leaves.solve (fun e member => (inside e member).2) (fun e member => count.symm ▸ (inside e member).1) ?_ ?_
    · exact fun col r positive => positive.trans_le ((again.layer above some_.le).grown _)
    · intro place e q at_ low others
      rw [← row] at at_ others
      exact grown.gives wired known (grown.length.trans size) all some_ at_ low others

/-- A word's values: none of them wrong in sign, and some known to be there. -/
structure Heard (z : Nat) (masks : List Nat) (c : Bytes) (llr : List K) : Prop where
  length : llr.length = c.length
  agrees : ∀ bit, 0 ≤ signsOf c bit * llr.getD bit 0
  known : Leaves z masks fun col r => llr.getD (col * z + r) 0 ≠ 0

/-- A codeword heard with values missing is returned after one iteration, where the rows give all of them. -/
theorem decode_heard {bg z : Nat} (made : NrLdpcCode.new bg z = .ok code) {c : Bytes} (bits : ∀ b ∈ c, b = 0 ∨ b = 1)
    (codeword : code.syndromeOk c = .ok true) {masks : List Nat} (columns : masks.length * z = code.nFull)
    (gives : ∀ mask ∈ solveAll z code.blockRows masks, ∀ r < z, mask.testBit r = false) {llr : List K}
    (heard : Heard z masks c llr) {alpha : K} (some_ : 0 < alpha) (left : Nat) :
    code.decode llr (left + 1) alpha = .ok ⟨c, true, 1⟩ := by
  obtain ⟨cols, rfl, wired⟩ := wired_of_new made
  obtain ⟨g, kb, iLs, built, inside, -⟩ := built_of_new made
  have size := syndromeOk_length codeword
  have even := codeword_even (K := K) built inside (size.trans built.nFull) bits codeword
  obtain rfl : masks.length = cols := Nat.eq_of_mul_eq_mul_right wired.positive (columns.trans wired.columns)
  -- the magnitudes alone, which no sign is wrong of
  obtain ⟨start, is⟩ : ∃ start : List K, llr.map (|·|) = start := ⟨_, rfl⟩
  have magnitude (bit : Nat) : start.getD bit 0 = |llr.getD bit 0| := by
    rw [← is, List.getD_eq_getElem?_getD, List.getElem?_map, List.getD_eq_getElem?_getD]
    cases llr[bit]? with
    | none => exact abs_zero.symm
    | some x => rfl
  have all (bit : Nat) : 0 ≤ start.getD bit 0 := magnitude bit ▸ abs_nonneg _
  have length : start.length = code.nFull := by rw [← is, List.length_map, heard.length, size]
  have turned : code.startDecoder llr = (code.startDecoder start).turn code (signsOf c) := by
    rw [← startDecoder_turn, ← is]
    congr 1
    refine List.ext_getElem (by simp) fun bit inside _ => ?_
    have agrees := heard.agrees bit
    rw [List.getD_eq_getElem _ _ inside] at agrees
    rw [List.getElem_mapIdx, List.getElem_map]
    rcases even.signs bit with one_ | minus
    · rw [one_, one_mul] at agrees ⊢
      exact (abs_of_nonneg agrees).symm
    · rw [minus, neg_one_mul, neg_nonneg] at agrees
      rw [minus, neg_one_mul, abs_of_nonpos agrees, neg_neg]
  have first : Leaves code.z masks fun col r => 0 < start.getD (col * code.z + r) 0 := by
    intro col short r low clear
    rw [magnitude]
    exact abs_pos.mpr (heard.known col short r low clear)
  have after := wired.layers length all some_ rfl first le_rfl
  rw [List.take_length] at after
  have positive : ∀ bit < code.nFull, 0 < (code.iteration alpha (code.startDecoder start)).post.getD bit 0 := by
    intro bit here
    have column : bit / code.z < masks.length := by
      rw [Nat.div_lt_iff_lt_mul wired.positive, columns]
      exact here
    have place : bit / code.z * code.z + bit % code.z = bit := Nat.div_add_mod' ..
    rw [← place]
    have short := column
    rw [← length_solveAll code.z code.blockRows masks] at short
    have low := Nat.mod_lt bit wired.positive
    exact after _ short _ low (gives _ (List.getD_eq_getElem _ _ short ▸ List.getElem_mem short) _ low)
  have posts : (code.iteration alpha (code.startDecoder start)).post.length = code.nFull := (length_layers ..).trans length
  have hard_ : hard (code.iteration alpha (code.startDecoder llr)).post = c := by
    rw [turned, NrLdpcCode.iteration, layers_turn even]
    refine hard_eq bits ?_ fun bit here => ?_
    · rw [Decoder.turn, List.length_mapIdx]
      exact posts.trans size.symm
    · have value := positive bit (size ▸ here)
      rw [NrLdpcCode.iteration] at value
      rw [turn_post, signsOf, signBit]
      split
      · rename_i one_
        exact iff_of_true (by rwa [neg_one_mul, neg_lt_zero]) one_
      · rename_i zero
        exact iff_of_false (by rw [one_mul]; exact value.not_gt) zero
  rw [NrLdpcCode.decode, if_neg (by rw [heard.length, size]; simp), NrLdpcCode.decodeFrom, hard_, codeword]
  rfl

end AetherHF.Fec

import Mathlib.Algebra.Order.Ring.Rat
import Mathlib.Tactic.NormNum
import AetherHF.Fec.Decoder

/-! What the decoder makes of a word: one right in sign it returns at once, what it calls converged
satisfies every check, and the signs of a codeword turned it decodes to the same with that added. -/
namespace AetherHF.Fec

open MinSum QuasiCyclic

/-! ### A codeword's signs -/

section
variable {K : Type} [Field K]

/-- The sign of a bit: negative for a one. -/
def signBit (b : UInt8) : K := if b = 1 then -1 else 1

def signsOf (c : Bytes) (bit : Nat) : K := signBit (c.getD bit 0)

theorem signBit_add {a b : XorByte} (first : a ∈ XorByte.bits) (second : b ∈ XorByte.bits) :
    (signBit (a + b).byte : K) = signBit a.byte * signBit b.byte := by
  obtain ⟨a⟩ := a
  obtain ⟨b⟩ := b
  have one_ : (1 : UInt8) ^^^ 1 = 0 := rfl
  have right : (0 : UInt8) ^^^ 1 = 1 := rfl
  have left : (1 : UInt8) ^^^ 0 = 1 := rfl
  have none_ : (0 : UInt8) ^^^ 0 = 0 := rfl
  have zero : (0 : UInt8) ≠ 1 := by decide
  rcases first with rfl | rfl <;> rcases second with rfl | rfl <;>
    simp [XorByte.add_byte, signBit, one_, right, left, none_, zero]

theorem signBit_check {z : Nat} {c : Word z XorByte} (bits : ∀ col r, c col r ∈ XorByte.bits) (row : Row) (r : Fin z) :
    (row.map fun e => (signBit (c e.1 (shift r e.2)).byte : K)).prod = signBit (check row c r).byte := by
  induction row with
  | nil =>
    have zero : (check [] c r).byte = 0 := rfl
    rw [zero]
    exact (if_neg (by decide)).symm
  | cons e rest ih =>
    rw [List.map_cons, List.prod_cons, ih, check_cons, signBit_add (bits _ _) (check_mem XorByte.bits bits r)]

theorem view_mem_bits {z : Nat} {c : Bytes} (bits : ∀ b ∈ c, b = 0 ∨ b = 1) (col : Nat) (r : Fin z) :
    view z c col r ∈ XorByte.bits := by
  have at_ : c.getD (col * z + r) 0 = 0 ∨ c.getD (col * z + r) 0 = 1 := by
    by_cases inside : col * z + r < c.length
    · rw [List.getD_eq_getElem _ _ inside]
      exact bits _ (List.getElem_mem inside)
    · exact .inl (List.getD_eq_default _ _ (Nat.le_of_not_lt inside))
  exact at_

variable {g : BaseGraph} {kb iLs z : Nat} {code : NrLdpcCode}

/-- A codeword's signs multiply to one in every check. -/
theorem codeword_even (built : Built g kb iLs z code) (inside : ∀ row ∈ g.tableRows iLs, ∀ e ∈ row, e.1 < g.cols)
    {c : Bytes} (length : c.length = g.cols * z) (bits : ∀ b ∈ c, b = 0 ∨ b = 1) (codeword : code.syndromeOk c = .ok true) :
    Even code (signsOf c : Nat → K) where
  signs bit := by
    unfold signsOf signBit
    split
    · exact .inr rfl
    · exact .inl rfl
  even i r small := by
    obtain rfl := built.size
    have row : code.row i = ((g.tableRows iLs).getD i []).map fun e => (e.1, e.2 % code.z) := by
      rw [NrLdpcCode.row, built.blockRows, getD_mod]
    by_cases known : i < g.rows
    · have zero := (syndromeOk_iff built inside length).mp codeword i known ⟨r, small⟩
      have product := signBit_check (K := K) (view_mem_bits bits) (code.row i) ⟨r, small⟩
      rw [row, check_mod, zero, ← row] at product
      refine product.trans (if_neg ?_)
      decide
    · rw [row, List.getD_eq_default _ _ (by rw [length_tableRows]; omega)]
      rfl

end

variable {K : Type} [Field K] [LinearOrder K] [IsStrictOrderedRing K] {code : NrLdpcCode}

/-! ### A word right in sign -/

/-- Posteriors no less than where they started, and rows from one on that have said nothing. -/
structure Grown (start : List K) (n : Nat) (s : Decoder K) : Prop where
  length : s.post.length = start.length
  grown : ∀ bit, start.getD bit 0 ≤ s.post.getD bit 0
  quiet : ∀ i ≥ n, ∀ place, (s.messages.getD i []).getD place 0 = 0

omit [IsStrictOrderedRing K] in
theorem grown_startDecoder (code : NrLdpcCode) (start : List K) : Grown start 0 (code.startDecoder start) where
  length := rfl
  grown _ := le_rfl
  quiet i _ place := by
    simp only [NrLdpcCode.startDecoder, List.getD_eq_getElem?_getD, List.getElem?_map]
    cases code.blockRows[i]? with
    | none => rfl
    | some row =>
      simp only [Option.map_some, Option.getD_some, List.getElem?_replicate]
      split <;> rfl

/-- Where none is negative a row adds to its bits only. -/
theorem Grown.layer {start : List K} {i : Nat} {s : Decoder K} (grown : Grown start i s) (all : ∀ bit, 0 ≤ start.getD bit 0)
    {alpha : K} (some_ : 0 ≤ alpha) : Grown start (i + 1) (code.layer alpha s i) := by
  have values (r : Nat) : ∀ v ∈ code.incoming s i r, 0 ≤ v := by
    intro v member
    obtain ⟨edge, inside, rfl⟩ := List.mem_mapIdx.mp member
    rw [grown.quiet i le_rfl, sub_zero]
    exact (all _).trans (grown.grown _)
  refine List.foldlRecOn (motive := Grown start (i + 1)) _ _ ⟨grown.length, grown.grown, fun j later => grown.quiet j (by omega)⟩
    fun s' still r _ => ?_
  refine List.foldlRecOn (motive := Grown start (i + 1)) _ _ still fun s' still e among => ?_
  obtain ⟨e, edge⟩ := e
  have at_ : (code.row i)[edge]? = some e := List.mem_zipIdx_iff_getElem?.mp among
  have value : (code.incoming s i r).getD edge 0 = s.post.getD (code.bitAt e r) 0 := by
    rw [List.getD_eq_getElem?_getD, NrLdpcCode.incoming, List.getElem?_mapIdx, at_]
    exact (congrArg (_ - ·) (grown.quiet i le_rfl _)).trans (sub_zero _)
  have member : (code.incoming s i r).getD edge 0 ∈ code.incoming s i r := by
    have inside : edge < (code.incoming s i r).length := by
      rw [NrLdpcCode.incoming, List.length_mapIdx]
      exact (List.getElem?_eq_some_iff.mp at_).1
    rw [List.getD_eq_getElem _ _ inside]
    exact List.getElem_mem inside
  have told := message_nonneg (values r) some_ edge member
  refine ⟨by rw [NrLdpcCode.update, List.length_set, still.length], fun bit => ?_, fun j later place => ?_⟩
  · rw [NrLdpcCode.update, getD_set]
    split
    · rename_i here
      rw [← here.1, value]
      exact (grown.grown _).trans (le_add_of_nonneg_right (value ▸ told))
    · exact still.grown bit
  · rw [NrLdpcCode.update, getD_set, if_neg (by omega)]
    exact still.quiet j later place

theorem Grown.layers {start : List K} (all : ∀ bit, 0 ≤ start.getD bit 0) {alpha : K} (some_ : 0 ≤ alpha) (n : Nat) :
    Grown start n (code.layers alpha n (code.startDecoder start)) := by
  induction n with
  | zero => exact grown_startDecoder code start
  | succ n ih =>
    rw [NrLdpcCode.layers, List.range_succ, List.foldl_append]
    exact ih.layer all some_

/-- Every value of a word has its bit's sign. -/
structure RightInSign (c : Bytes) (llr : List K) : Prop where
  length : llr.length = c.length
  signs : ∀ bit < llr.length, llr.getD bit 0 ≠ 0 ∧ (llr.getD bit 0 < 0 ↔ c.getD bit 0 = 1)

/-- Such a word is its magnitudes with the signs turned. -/
theorem RightInSign.turned {c : Bytes} {llr : List K} (right : RightInSign c llr) :
    llr = (llr.map (|·|)).mapIdx fun bit x => signsOf c bit * x := by
  refine List.ext_getElem (by simp) fun bit inside _ => ?_
  obtain ⟨some_, sign⟩ := right.signs bit inside
  rw [List.getD_eq_getElem _ _ inside] at some_ sign
  rw [List.getElem_mapIdx, List.getElem_map, signsOf, signBit]
  split
  · rename_i one_
    rw [abs_of_neg (sign.mpr one_), neg_one_mul, neg_neg]
  · rename_i zero
    rw [abs_of_nonneg (not_lt.mp fun below => zero (sign.mp below)), one_mul]

/-- Through the layers of the first iteration every posterior keeps its value's sign, and its magnitude
or more. -/
theorem RightInSign.layers {c : Bytes} {llr : List K} (right : RightInSign c llr) (even : Even code (signsOf c : Nat → K))
    {alpha : K} (some_ : 0 ≤ alpha) (n : Nat) :
    let s := code.layers alpha n (code.startDecoder llr);
    s.post.length = llr.length ∧ ∀ bit < llr.length, |llr.getD bit 0| ≤ |s.post.getD bit 0| ∧ s.post.getD bit 0 ≠ 0 ∧
      (s.post.getD bit 0 < 0 ↔ c.getD bit 0 = 1) := by
  have magnitude (bit : Nat) : (llr.map (|·|)).getD bit 0 = |llr.getD bit 0| := by
    rw [List.getD_eq_getElem?_getD, List.getElem?_map, List.getD_eq_getElem?_getD]
    cases llr[bit]? with
    | none => exact abs_zero.symm
    | some x => rfl
  have all (bit : Nat) : 0 ≤ (llr.map (|·|)).getD bit 0 := magnitude bit ▸ abs_nonneg _
  have grown : Grown (llr.map (|·|)) n (code.layers alpha n (code.startDecoder (llr.map (|·|)))) := .layers all some_ n
  intro s
  have is : s = (code.layers alpha n (code.startDecoder (llr.map (|·|)))).turn code (signsOf c) := by
    rw [← layers_turn even, ← startDecoder_turn, ← right.turned]
  refine ⟨?_, fun bit inside => ?_⟩
  · rw [is, Decoder.turn, List.length_mapIdx, grown.length, List.length_map]
  · have more := grown.grown bit
    rw [magnitude] at more
    have positive := (abs_pos.mpr (right.signs bit inside).1).trans_le more
    rw [is, turn_post, signsOf, signBit]
    generalize (code.layers alpha n (code.startDecoder (llr.map (|·|)))).post.getD bit 0 = x at more positive
    split
    · rename_i one_
      rw [neg_one_mul, abs_neg, abs_of_pos positive]
      exact ⟨more, neg_ne_zero.mpr positive.ne', iff_of_true (neg_lt_zero.mpr positive) one_⟩
    · rename_i zero
      rw [one_mul, abs_of_pos positive]
      exact ⟨more, positive.ne', iff_of_false positive.not_gt zero⟩

omit [IsStrictOrderedRing K] in
/-- The hard decisions of a word of the right signs. -/
theorem hard_eq {c : Bytes} {post : List K} (bits : ∀ b ∈ c, b = 0 ∨ b = 1) (length : post.length = c.length)
    (signs : ∀ bit < c.length, post.getD bit 0 < 0 ↔ c.getD bit 0 = 1) : hard post = c := by
  refine List.ext_getElem (by simp [hard, length]) fun bit _ inside => ?_
  have sign := signs bit inside
  have here := bits _ (List.getElem_mem inside)
  rw [List.getD_eq_getElem _ _ inside, List.getD_eq_getElem _ _ (length ▸ inside)] at sign
  simp only [hard, List.getElem_map]
  split
  · rename_i below
    exact (sign.mp below).symm
  · rename_i above
    exact (here.resolve_right fun one_ => above (sign.mpr one_)).symm

/-! ### What is called converged -/

omit [IsStrictOrderedRing K] in
/-- It satisfies every check. -/
theorem decodeFrom_converged {alpha : K} {left iterations : Nat} {s : Decoder K} {d : Decoded}
    (run : code.decodeFrom alpha left iterations s = .ok d) (converged : d.converged = true) :
    code.syndromeOk d.bits = .ok true := by
  induction left generalizing iterations s with
  | zero =>
    obtain rfl := Except.ok.inj run
    cases converged
  | succ left ih =>
    rw [NrLdpcCode.decodeFrom] at run
    cases checked : code.syndromeOk (hard (code.iteration alpha s).post) with
    | error e =>
      rw [checked] at run
      cases run
    | ok passed =>
      rw [checked] at run
      cases passed with
      | true =>
        obtain rfl := Except.ok.inj run
        exact checked
      | false => exact ih run

/-! ### A codeword's signs turned -/

omit [IsStrictOrderedRing K] in
theorem length_layers (alpha : K) (n : Nat) (s : Decoder K) : (code.layers alpha n s).post.length = s.post.length := by
  refine List.foldlRecOn (motive := fun s' : Decoder K => s'.post.length = s.post.length) _ _ rfl fun s₁ first i _ => ?_
  refine List.foldlRecOn (motive := fun s' : Decoder K => s'.post.length = s.post.length) _ _ first fun s₂ second r _ => ?_
  refine List.foldlRecOn (motive := fun s' : Decoder K => s'.post.length = s.post.length) _ _ second fun s₃ third e _ => ?_
  rw [NrLdpcCode.update, List.length_set, third]

/-- Where no value is zero, the decisions turn by the word. -/
theorem hard_turn {c : Bytes} {post : List K} (bits : ∀ b ∈ c, b = 0 ∨ b = 1) (length : post.length = c.length)
    (some_ : ∀ x ∈ post, x ≠ 0) : hard (post.mapIdx fun bit x => signsOf c bit * x) = xorBytes (hard post) c := by
  refine List.ext_getElem (by simp [hard, xorBytes, length]) fun bit _ inside => ?_
  have here : bit < c.length := by
    simp only [xorBytes, List.length_zipWith] at inside
    omega
  have zero := some_ _ (List.getElem_mem (length ▸ here))
  simp only [hard, xorBytes, List.getElem_map, List.getElem_mapIdx, List.getElem_zipWith, signsOf, signBit,
    List.getD_eq_getElem _ _ here]
  have xor : (1 : UInt8) ^^^ 1 = 0 := rfl
  have own : (0 : UInt8) ^^^ 1 = 1 := rfl
  have other : (0 : UInt8) ≠ 1 := by decide
  rcases bits _ (List.getElem_mem here) with is | is
  · rw [is, if_neg other, one_mul, UInt8.xor_zero]
  · rw [is, if_pos rfl, neg_one_mul]
    rcases zero.lt_or_gt with below | above
    · rw [if_pos below, if_neg (by simpa using below.le), xor]
    · rw [if_neg above.not_gt, if_pos (by simpa using above), own]

theorem syndromeOk_xor {g : BaseGraph} {kb iLs z : Nat} (built : Built g kb iLs z code)
    (inside : ∀ row ∈ g.tableRows iLs, ∀ e ∈ row, e.1 < g.cols) {h c : Bytes} (length : h.length = code.nFull)
    (length' : c.length = code.nFull) (codeword : code.syndromeOk c = .ok true) :
    code.syndromeOk (xorBytes h c) = code.syndromeOk h := by
  have same : h.length = c.length := length.trans length'.symm
  have size : (xorBytes h c).length = code.nFull := by simp [xorBytes, length, length']
  obtain ⟨b, is⟩ : ∃ b, code.syndromeOk h = .ok b := ⟨_, if_neg (not_not.mpr length)⟩
  obtain ⟨b', is'⟩ : ∃ b, code.syndromeOk (xorBytes h c) = .ok b := ⟨_, if_neg (not_not.mpr size)⟩
  have zero := (syndromeOk_iff built inside (length'.trans built.nFull)).mp codeword
  have iff : code.syndromeOk (xorBytes h c) = .ok true ↔ code.syndromeOk h = .ok true := by
    rw [syndromeOk_iff built inside (size.trans built.nFull), syndromeOk_iff built inside (length.trans built.nFull),
      view_xorBytes same]
    refine forall₂_congr fun row known => forall_congr' fun r => ?_
    rw [check_add, zero row known r, add_zero]
  rw [is, is'] at iff ⊢
  rw [Except.ok.injEq, Except.ok.injEq] at iff
  rw [Bool.eq_iff_iff.mpr iff]

omit [IsStrictOrderedRing K] in
theorem decodeFrom_iterations {alpha : K} {left iterations : Nat} {s : Decoder K} {d : Decoded}
    (run : code.decodeFrom alpha left iterations s = .ok d) : iterations ≤ d.iterations := by
  induction left generalizing iterations s with
  | zero =>
    obtain rfl := Except.ok.inj run
    exact le_rfl
  | succ left ih =>
    rw [NrLdpcCode.decodeFrom] at run
    cases checked : code.syndromeOk (hard (code.iteration alpha s).post) with
    | error e =>
      rw [checked] at run
      cases run
    | ok passed =>
      rw [checked] at run
      cases passed with
      | true =>
        obtain rfl := Except.ok.inj run
        exact Nat.le_succ _
      | false => exact (Nat.le_succ _).trans (ih run)

/-- The iterations run on with the signs turned decode to the same, turned, where no posterior is zero at
the end of one. -/
theorem decodeFrom_turn {g : BaseGraph} {kb iLs z : Nat} (built : Built g kb iLs z code)
    (inside : ∀ row ∈ g.tableRows iLs, ∀ e ∈ row, e.1 < g.cols) {c : Bytes} (bits : ∀ b ∈ c, b = 0 ∨ b = 1)
    (size : c.length = code.nFull) (codeword : code.syndromeOk c = .ok true) {alpha : K} {left iterations : Nat}
    {s : Decoder K} (length : s.post.length = code.nFull) {d : Decoded}
    (run : code.decodeFrom alpha left iterations s = .ok d)
    (some_ : ∀ k, 1 ≤ k → iterations + k ≤ d.iterations → ∀ x ∈ ((code.iteration alpha)^[k] s).post, x ≠ 0)
    (first : left = 0 → ∀ x ∈ s.post, x ≠ 0) :
    code.decodeFrom alpha left iterations (s.turn code (signsOf c)) = .ok ⟨xorBytes d.bits c, d.converged, d.iterations⟩ := by
  have even := codeword_even (K := K) built inside (size.trans built.nFull) bits codeword
  induction left generalizing iterations s with
  | zero =>
    obtain rfl := Except.ok.inj run
    exact congrArg (fun bits => Except.ok (Decoded.mk bits false iterations))
      (hard_turn bits (length.trans size.symm) (first rfl))
  | succ left ih =>
    have length' : (code.iteration alpha s).post.length = code.nFull := (length_layers ..).trans length
    have step : code.iteration alpha (s.turn code (signsOf c)) = (code.iteration alpha s).turn code (signsOf c) :=
      layers_turn even ..
    have least : iterations + 1 ≤ d.iterations := by
      rw [NrLdpcCode.decodeFrom] at run
      cases checked : code.syndromeOk (hard (code.iteration alpha s).post) with
      | error e =>
        rw [checked] at run
        cases run
      | ok passed =>
        rw [checked] at run
        cases passed with
        | true =>
          obtain rfl := Except.ok.inj run
          exact le_rfl
        | false => exact decodeFrom_iterations (s := code.iteration alpha s) run
    have none_ := some_ 1 le_rfl least
    have turned : hard ((code.iteration alpha s).turn code (signsOf c)).post = xorBytes (hard (code.iteration alpha s).post) c :=
      hard_turn bits (length'.trans size.symm) none_
    have hardLength : (hard (code.iteration alpha s).post).length = code.nFull := by
      rw [hard, List.length_map, length']
    rw [NrLdpcCode.decodeFrom] at run ⊢
    rw [step, turned, syndromeOk_xor built inside hardLength size codeword]
    cases checked : code.syndromeOk (hard (code.iteration alpha s).post) with
    | error e =>
      rw [checked] at run
      cases run
    | ok passed =>
      rw [checked] at run
      cases passed with
      | true =>
        obtain rfl := Except.ok.inj run
        rfl
      | false =>
        refine ih length' run (fun k least' most => ?_) fun _ => none_
        exact some_ (k + 1) (by omega) (by omega)

/-! ### Every code -/

theorem graphs_two : ∀ g ∈ graphs, ∀ iLs < 8, ∀ row ∈ g.1.tableRows iLs, 2 ≤ row.length := by decide +kernel

theorem built_of_new {bg z : Nat} {code : NrLdpcCode} (made : NrLdpcCode.new bg z = .ok code) :
    ∃ g kb iLs, Built g kb iLs z code ∧ (∀ row ∈ g.tableRows iLs, ∀ e ∈ row, e.1 < g.cols) ∧
      ∀ row ∈ g.tableRows iLs, 2 ≤ row.length := by
  obtain ⟨g, iLs, p, table, set_, rfl⟩ := NrLdpcCode.new_ok made
  have known : bg = 1 ∨ bg = 2 := by
    unfold baseGraph at table
    split at table
    · exact .inl rfl
    · exact .inr rfl
    · cases table
  obtain ⟨g', table', listed⟩ := graphs_of_number known
  obtain rfl := Option.some.inj (table'.symm.trans table)
  have small : iLs < 8 := (List.findIdx?_eq_some_iff_getElem.mp set_).1
  have built : Built g' (infoColumns bg) iLs z { NrLdpcCode.blank bg z g' iLs with p1Shift := p } :=
    ⟨liftingSetIndex_positive set_, rfl, rfl, rfl, rfl, rfl, rfl⟩
  exact ⟨g', infoColumns bg, iLs, built, graphs_inside _ listed iLs small, graphs_two _ listed iLs small⟩

omit [IsStrictOrderedRing K] in
/-- So both least magnitudes of every check are finite. -/
theorem scan_incoming {bg z : Nat} {code : NrLdpcCode} (made : NrLdpcCode.new bg z = .ok code) (s : Decoder K) {i : Nat}
    (inside : i < code.rows) (r : Nat) :
    (scan (code.incoming s i r)).min1.isSome = true ∧ (scan (code.incoming s i r)).min2.isSome = true := by
  obtain ⟨g, kb, iLs, built, -, two⟩ := built_of_new made
  have known : i < (g.tableRows iLs).length := by rw [length_tableRows, ← built.rows]; exact inside
  refine scan_finite ?_
  rw [NrLdpcCode.incoming, List.length_mapIdx, NrLdpcCode.row, built.blockRows, getD_mod, List.length_map,
    List.getD_eq_getElem _ _ known]
  exact two _ (List.getElem_mem known)

theorem syndromeOk_length {w : Bytes} {b : Bool} (ok : code.syndromeOk w = .ok b) : w.length = code.nFull := by
  unfold NrLdpcCode.syndromeOk at ok
  split at ok
  · cases ok
  · exact not_not.mp ‹_›

theorem RightInSign.decode {c : Bytes} {llr : List K} (right : RightInSign c llr) (even : Even code (signsOf c : Nat → K))
    (bits : ∀ b ∈ c, b = 0 ∨ b = 1) (codeword : code.syndromeOk c = .ok true) {alpha : K} (some_ : 0 ≤ alpha) (left : Nat) :
    code.decode llr (left + 1) alpha = .ok ⟨c, true, 1⟩ := by
  obtain ⟨length, signs⟩ := right.layers even some_ code.blockRows.length
  have hard_ : hard (code.iteration alpha (code.startDecoder llr)).post = c :=
    hard_eq bits (length.trans right.length) fun bit inside => (signs bit (right.length ▸ inside)).2.2
  rw [NrLdpcCode.decode, if_neg (by rw [right.length, syndromeOk_length codeword]; simp), NrLdpcCode.decodeFrom, hard_,
    codeword]
  rfl

/-- A word right in sign is decoded at once, unchanged, every posterior keeping its sign and magnitude on
the way; and what is called converged satisfies every check, whatever came. -/
theorem decode_right {bg z : Nat} {code : NrLdpcCode} (made : NrLdpcCode.new bg z = .ok code) (maxIter : Nat) (alpha : K) :
    (∀ (c : Bytes) (llr : List K), (∀ b ∈ c, b = 0 ∨ b = 1) → code.syndromeOk c = .ok true → RightInSign c llr →
      0 < alpha → 1 ≤ maxIter →
      (∀ n, ∀ bit < llr.length,
        let post := (code.layers alpha n (code.startDecoder llr)).post;
        |llr.getD bit 0| ≤ |post.getD bit 0| ∧ post.getD bit 0 ≠ 0 ∧ (post.getD bit 0 < 0 ↔ llr.getD bit 0 < 0)) ∧
      code.decode llr maxIter alpha = .ok ⟨c, true, 1⟩) ∧
    ∀ (llr : List K) (d : Decoded), code.decode llr maxIter alpha = .ok d → d.converged = true →
      code.syndromeOk d.bits = .ok true := by
  obtain ⟨g, kb, iLs, built, inside, -⟩ := built_of_new made
  refine ⟨fun c llr bits codeword right positive more => ?_, fun llr d run converged => ?_⟩
  · have size := syndromeOk_length codeword
    have even := codeword_even (K := K) built inside (size.trans built.nFull) bits codeword
    have layers := right.layers even positive.le
    refine ⟨fun n bit inside => ?_, ?_⟩
    · obtain ⟨magnitude, some_, sign⟩ := (layers n).2 bit inside
      exact ⟨magnitude, some_, sign.trans (right.signs bit inside).2.symm⟩
    · obtain ⟨left, rfl⟩ := Nat.exists_eq_add_of_le' more
      exact right.decode even bits codeword positive.le left
  · unfold NrLdpcCode.decode at run
    split at run
    · cases run
    · exact decodeFrom_converged run converged

/-- A code and a codeword of it with a one in every third of its information bits. -/
theorem third_codeword : ∃ code cw, NrLdpcCode.new 2 30 = .ok code ∧
    code.encode ((List.range code.k).map fun i => if i % 3 = 0 then 1 else 0) = .ok cw ∧
    code.syndromeOk cw = .ok true ∧ (∀ b ∈ cw, b = 0 ∨ b = 1) ∧ 1 ∈ cw := by
  obtain ⟨g, iLs, s, code, made, built, sound, shift_, paired⟩ := new_built (.inr rfl) (z := 30) (by decide)
  have size : ((List.range code.k).map fun i => if i % 3 = 0 then (1 : UInt8) else 0).length = code.k := by simp
  obtain ⟨cw, run, -, info, codeword, bits⟩ := built.encode_holds sound shift_ paired size
  have some_ : 0 < code.k := by
    rw [built.k]
    decide
  refine ⟨code, cw, made, run, codeword, bits fun b member => ?_, ?_⟩
  · obtain ⟨i, -, rfl⟩ := List.mem_map.mp member
    split
    · exact .inr rfl
    · exact .inl rfl
  · refine List.mem_of_mem_take (i := code.k) ?_
    rw [info]
    exact List.mem_map.mpr ⟨0, List.mem_range.mpr some_, rfl⟩

theorem decode_right_clean : ∃ code cw, NrLdpcCode.new 2 30 = .ok code ∧
    code.encode ((List.range code.k).map fun i => if i % 3 = 0 then 1 else 0) = .ok cw ∧
    code.decode (cw.map fun b => if b = 1 then (-4 : ℚ) else 4) 25 (4 / 5) = .ok ⟨cw, true, 1⟩ := by
  obtain ⟨code, cw, made, run, codeword, bits, -⟩ := third_codeword
  refine ⟨code, cw, made, run, ?_⟩
  refine ((decode_right made 25 (4 / 5)).1 cw _ bits codeword ⟨List.length_map _, fun bit inside => ?_⟩ (by norm_num)
    (by decide)).2
  have here : bit < cw.length := by simpa using inside
  rw [List.getD_eq_getElem _ _ inside, List.getD_eq_getElem _ _ here, List.getElem_map]
  split
  · rename_i one_
    exact ⟨by norm_num, iff_of_true (by norm_num) one_⟩
  · rename_i zero
    exact ⟨by norm_num, iff_of_false (by norm_num) zero⟩

/-- The decoder treats every codeword alike: with a codeword's signs turned every posterior and message
of every layer is turned, and it decodes to the same with the codeword added, where no posterior is zero
at the end of an iteration, or no value where none is run. -/
theorem decode_alike {bg z : Nat} {code : NrLdpcCode} (made : NrLdpcCode.new bg z = .ok code) {c : Bytes}
    (bits : ∀ b ∈ c, b = 0 ∨ b = 1) (codeword : code.syndromeOk c = .ok true) (llr : List K) (maxIter : Nat) (alpha : K) :
    let turned := llr.mapIdx fun bit x => signsOf c bit * x;
    (∀ n k,
      let s := code.layers alpha k ((code.iteration alpha)^[n] (code.startDecoder llr));
      let s' := code.layers alpha k ((code.iteration alpha)^[n] (code.startDecoder turned));
      (∀ bit, s'.post.getD bit 0 = signsOf c bit * s.post.getD bit 0) ∧
      ∀ i edge e r, (code.row i)[edge]? = some e → r < code.z →
        (s'.messages.getD i []).getD (edge * code.z + r) 0 =
          signsOf c (code.bitAt e r) * (s.messages.getD i []).getD (edge * code.z + r) 0) ∧
    ∀ d, code.decode llr maxIter alpha = .ok d →
      (∀ k, 1 ≤ k → k ≤ d.iterations → ∀ x ∈ ((code.iteration alpha)^[k] (code.startDecoder llr)).post, x ≠ 0) →
      (maxIter = 0 → ∀ x ∈ llr, x ≠ 0) →
      code.decode turned maxIter alpha = .ok ⟨xorBytes d.bits c, d.converged, d.iterations⟩ := by
  obtain ⟨g, kb, iLs, built, inside, -⟩ := built_of_new made
  have size := syndromeOk_length codeword
  have even := codeword_even (K := K) built inside (size.trans built.nFull) bits codeword
  intro turned
  refine ⟨fun n k => ?_, fun d run some_ none_ => ?_⟩
  · intro s s'
    have is : s' = s.turn code (signsOf c) := by
      rw [← layers_turn even, ← iterate_turn even, ← startDecoder_turn]
    rw [is]
    exact ⟨turn_post s, fun i edge e r at_ small => turn_messages s small at_⟩
  · unfold NrLdpcCode.decode at run ⊢
    split at run
    · cases run
    · rename_i length
      have length := not_not.mp length
      rw [if_neg (by rw [List.length_mapIdx, length]; simp), startDecoder_turn]
      exact decodeFrom_turn built inside bits size codeword length run
        (fun k least most => some_ k least (by omega)) none_

theorem syndromeOk_zero {bg z : Nat} {code : NrLdpcCode} (made : NrLdpcCode.new bg z = .ok code) :
    code.syndromeOk (List.replicate code.nFull 0) = .ok true := by
  obtain ⟨g, kb, iLs, built, inside, -⟩ := built_of_new made
  refine (syndromeOk_iff built inside (List.length_replicate.trans built.nFull)).mpr fun row _ r => ?_
  have zero : view z (List.replicate code.nFull 0) = 0 := by
    funext col r
    refine XorByte.ext ?_
    simp only [view, List.getD_eq_getElem?_getD, List.getElem?_replicate]
    split <;> rfl
  rw [zero]
  exact List.sum_eq_zero fun x member => by
    obtain ⟨e, -, rfl⟩ := List.mem_map.mp member
    rfl

/-- Every bit sent at four, and the signs of a codeword turned. -/
theorem decode_alike_clean : ∃ code cw, NrLdpcCode.new 2 30 = .ok code ∧
    code.decode ((List.replicate code.nFull (4 : ℚ)).mapIdx fun bit x => signsOf cw bit * x) 25 (4 / 5) =
      .ok ⟨xorBytes (List.replicate code.nFull 0) cw, true, 1⟩ := by
  obtain ⟨code, cw, made, -, codeword, bits, -⟩ := third_codeword
  obtain ⟨g, kb, iLs, built, inside, -⟩ := built_of_new made
  have zero := syndromeOk_zero made
  have zeroBits : ∀ b ∈ List.replicate code.nFull (0 : UInt8), b = 0 ∨ b = 1 := fun b member =>
    .inl (List.eq_of_mem_replicate member)
  have right : RightInSign (List.replicate code.nFull 0) (List.replicate code.nFull (4 : ℚ)) := by
    refine ⟨by simp, fun bit inside => ?_⟩
    have here : bit < code.nFull := by simpa using inside
    rw [List.getD_eq_getElem _ _ inside, List.getD_eq_getElem _ _ (by simpa using here), List.getElem_replicate,
      List.getElem_replicate]
    exact ⟨by norm_num, iff_of_false (by norm_num) (by decide)⟩
  have even := codeword_even (K := ℚ) built inside (List.length_replicate.trans built.nFull) zeroBits zero
  have positive : (0 : ℚ) ≤ 4 / 5 := by norm_num
  refine ⟨code, cw, made, ?_⟩
  refine (decode_alike made bits codeword (List.replicate code.nFull (4 : ℚ)) 25 (4 / 5)).2 _
    (right.decode even zeroBits zero positive 24) (fun k least most x member => ?_) nofun
  obtain rfl : k = 1 := by
    dsimp only at most
    omega
  obtain ⟨length, signs⟩ := right.layers even positive code.blockRows.length
  rw [Function.iterate_one, NrLdpcCode.iteration] at member
  obtain ⟨bit, at_, rfl⟩ := List.mem_iff_getElem.mp member
  have some_ := (signs bit (length ▸ at_)).2.1
  rwa [List.getD_eq_getElem _ _ at_] at some_

/-- With no iteration to run and nothing heard, the decisions are zeros whatever codeword is turned. -/
theorem decode_alike_none : ∃ code cw, NrLdpcCode.new 2 30 = .ok code ∧ code.syndromeOk cw = .ok true ∧
    (∀ b ∈ cw, b = 0 ∨ b = 1) ∧
    code.decode (List.replicate code.nFull (0 : ℚ)) 0 (4 / 5) = .ok ⟨List.replicate code.nFull 0, false, 0⟩ ∧
    code.decode ((List.replicate code.nFull (0 : ℚ)).mapIdx fun bit x => signsOf cw bit * x) 0 (4 / 5) =
      .ok ⟨List.replicate code.nFull 0, false, 0⟩ ∧
    xorBytes (List.replicate code.nFull 0) cw ≠ List.replicate code.nFull 0 := by
  obtain ⟨code, cw, made, -, codeword, bits, one_⟩ := third_codeword
  have none_ : code.decode (List.replicate code.nFull (0 : ℚ)) 0 (4 / 5) = .ok ⟨List.replicate code.nFull 0, false, 0⟩ := by
    rw [NrLdpcCode.decode, if_neg (by simp), NrLdpcCode.decodeFrom, NrLdpcCode.startDecoder, hard, List.map_replicate]
    rfl
  have same : ((List.replicate code.nFull (0 : ℚ)).mapIdx fun bit x => signsOf cw bit * x) = List.replicate code.nFull 0 := by
    refine List.ext_getElem (by simp) fun bit _ _ => ?_
    simp
  refine ⟨code, cw, made, codeword, bits, none_, by rw [same]; exact none_, fun zeros => ?_⟩
  obtain ⟨bit, inside, is⟩ := List.mem_iff_getElem.mp one_
  have size := syndromeOk_length codeword
  have at_ : (xorBytes (List.replicate code.nFull 0) cw).getD bit 0 = 0 := by
    rw [zeros, List.getD_eq_getElem _ _ (by simpa using size ▸ inside), List.getElem_replicate]
  rw [List.getD_eq_getElem _ _ (by simpa [xorBytes] using ⟨size ▸ inside, inside⟩)] at at_
  simp [xorBytes, is] at at_

end AetherHF.Fec

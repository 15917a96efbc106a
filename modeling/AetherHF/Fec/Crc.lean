import AetherHF.Base.Remainder
import AetherHF.Fec.Codeword

/-! The cyclic redundancy checks of TS 38.212 §5.1: the register's two loops are division of
the bits, shifted by the width, by the generator over two elements, and what they are checked
by is whether the generator divides them. -/
namespace AetherHF.Fec

open Polynomial Remainder

/-- A check by its generator, less the leading term, and its width. -/
structure Crc where
  poly : Nat
  /-- Number of parity bits. -/
  width : Nat
  deriving DecidableEq, Repr

/-- The payload check of a frame. -/
def crc24a : Crc := ⟨0x864CFB, 24⟩

def crc24b : Crc := ⟨0x800063, 24⟩

def crc24c : Crc := ⟨0xB2B117, 24⟩

def crc16 : Crc := ⟨0x1021, 16⟩

def crc11 : Crc := ⟨0x621, 11⟩

def crc6 : Crc := ⟨0x21, 6⟩

def crcs : List Crc := [crc24a, crc24b, crc24c, crc16, crc11, crc6]

namespace Crc

variable (crc : Crc)

def top : Nat := 1 <<< crc.width

def mask : Nat := crc.top - 1

/-- The generator out of the register, where its top bit is set. -/
def reduce (reg : Nat) : Nat := if reg &&& crc.top ≠ 0 then (reg ^^^ crc.top) ^^^ crc.poly else reg

/-- A bit of the message taken into the register. -/
def take (reg : Nat) (bit : UInt8) : Nat :=
  crc.reduce (((reg <<< 1) ||| (bit &&& 1).toNat) &&& (crc.mask ||| crc.top))

def flush (reg : Nat) : Nat := crc.reduce ((reg <<< 1) &&& (crc.mask ||| crc.top))

/-- The parity bits, most significant first. -/
def remainder (bits : Bytes) : Bytes :=
  let reg := bits.foldl crc.take 0
  let reg := (List.range crc.width).foldl (fun reg _ => crc.flush reg) reg
  let reg := reg &&& crc.mask
  (List.range crc.width).map fun i => ((reg >>> (crc.width - 1 - i)) &&& 1).toUInt8

/-- The bits and their parity. -/
def attach (bits : Bytes) : Bytes := bits ++ crc.remainder bits

/-- Whether the last `width` bits are the parity of those before them. -/
def check (bitsWithCrc : Bytes) : Bool :=
  if bitsWithCrc.length < crc.width then false
  else
    let split := bitsWithCrc.length - crc.width
    crc.remainder (bitsWithCrc.take split) = bitsWithCrc.drop split

/-- What a generator has: bits below its width, and a constant term. -/
structure Sound (crc : Crc) : Prop where
  small : crc.poly < 2 ^ crc.width
  odd : crc.poly.testBit 0 = true

theorem crcs_sound : ∀ crc ∈ crcs, crc.Sound := by
  have each : ∀ crc ∈ crcs, crc.poly < 2 ^ crc.width ∧ crc.poly.testBit 0 = true := by decide
  exact fun crc member => ⟨(each crc member).1, (each crc member).2⟩

noncomputable def generator : (ZMod 2)[X] := X ^ crc.width + ofBits crc.poly

end Crc

/-! ### The register -/

def parity (b : UInt8) : ZMod 2 := if b.toNat.testBit 0 then 1 else 0

/-- The polynomial of a string of bits, most significant first. -/
noncomputable def ofBytes (bits : Bytes) : (ZMod 2)[X] := ofCoeffs (bits.map parity)

def AllBits (bits : Bytes) : Prop := ∀ b ∈ bits, b = 0 ∨ b = 1

theorem low_bit (b : UInt8) : (b &&& 1).toNat = (b.toNat.testBit 0).toNat := by
  rw [UInt8.toNat_and, UInt8.toNat_one, Nat.and_one_is_mod, Nat.testBit_zero]
  rcases Nat.mod_two_eq_zero_or_one b.toNat with even | odd
  · simp [even]
  · simp [odd]

namespace Crc

variable {crc : Crc}

@[simp] theorem top_eq : crc.top = 2 ^ crc.width := Nat.one_shiftLeft crc.width

theorem window : crc.mask ||| crc.top = 2 ^ (crc.width + 1) - 1 := by
  refine Nat.eq_of_testBit_eq fun i => ?_
  rw [mask, top_eq, Nat.testBit_or, Nat.testBit_two_pow_sub_one, Nat.testBit_two_pow, Nat.testBit_two_pow_sub_one]
  rw [← Bool.decide_or, decide_eq_decide]
  omega

theorem Sound.degree (sound : crc.Sound) : (ofBits crc.poly).degree < crc.width := degree_ofBits_lt sound.small

theorem Sound.monic (sound : crc.Sound) : crc.generator.Monic := monic_X_pow_add sound.degree

theorem Sound.width_eq (sound : crc.Sound) : crc.generator.degree = crc.width := by
  rw [generator, degree_add_eq_left_of_degree_lt (by rw [degree_X_pow]; exact sound.degree), degree_X_pow]

theorem Sound.constant (sound : crc.Sound) (some_ : crc.width ≠ 0) : crc.generator.coeff 0 = 1 := by
  rw [generator, coeff_add, coeff_X_pow, if_neg (Ne.symm some_), zero_add, coeff_ofBits, if_pos sound.odd]

/-- Taking the generator out once is division, where the register is one bit too long at most. -/
theorem Sound.reduce (sound : crc.Sound) {reg : Nat} (small : reg < 2 ^ (crc.width + 1)) :
    crc.reduce reg < 2 ^ crc.width ∧ ofBits (crc.reduce reg) = ofBits reg %ₘ crc.generator := by
  have test : reg &&& crc.top = (reg.testBit crc.width).toNat * 2 ^ crc.width := by
    rw [top_eq, Nat.and_two_pow]
  unfold Crc.reduce
  cases high : reg.testBit crc.width with
  | false =>
    have below : reg < 2 ^ crc.width := by
      refine Nat.lt_pow_two_of_testBit reg fun i beyond => ?_
      rcases Nat.eq_or_lt_of_le beyond with rfl | beyond
      · exact high
      · exact Nat.testBit_lt_two_pow (small.trans_le (Nat.pow_le_pow_right (by omega) beyond))
    rw [test, high, if_neg (by simp)]
    refine ⟨below, ((modByMonic_eq_self_iff sound.monic).mpr ?_).symm⟩
    rw [sound.width_eq]
    exact degree_ofBits_lt below
  | true =>
    have below : (reg ^^^ crc.top) ^^^ crc.poly < 2 ^ crc.width := by
      refine Nat.xor_lt_two_pow (Nat.lt_pow_two_of_testBit _ fun i beyond => ?_) sound.small
      rw [top_eq, Nat.testBit_xor, Nat.testBit_two_pow]
      rcases Nat.eq_or_lt_of_le beyond with rfl | beyond
      · simp [high]
      · rw [Nat.testBit_lt_two_pow (small.trans_le (Nat.pow_le_pow_right (by omega) beyond)),
          decide_eq_false (by omega)]
        rfl
    rw [test, high, if_pos (by simp)]
    refine ⟨below, (div_modByMonic_unique 1 _ sound.monic ⟨?_, ?_⟩).2.symm⟩
    · rw [ofBits_xor, ofBits_xor, top_eq, ofBits_two_pow, mul_one, add_assoc (ofBits reg)]
      exact CharTwo.add_cancel_right _ _
    · rw [sound.width_eq]
      exact degree_ofBits_lt below

/-- A bit taken in is one step of the division. -/
theorem Sound.take (sound : crc.Sound) {reg : Nat} (small : reg < 2 ^ crc.width) (b : UInt8) :
    crc.take reg b < 2 ^ crc.width ∧
      ofBits (crc.take reg b) = (ofBits reg * X + C (parity b)) %ₘ crc.generator := by
  have bit : (reg <<< 1) ||| (b &&& 1).toNat = Nat.bit (b.toNat.testBit 0) reg := by
    rw [low_bit, ← Nat.shiftLeft_add_eq_or_of_lt (Bool.toNat_lt _), Nat.shiftLeft_eq, pow_one, Nat.mul_comm, Nat.bit_val]
  have fits : (reg <<< 1) ||| (b &&& 1).toNat < 2 ^ (crc.width + 1) := by
    rw [bit, pow_succ, mul_comm]
    cases b.toNat.testBit 0 <;> simp <;> omega
  unfold Crc.take
  rw [window, Nat.and_two_pow_sub_one_of_lt_two_pow fits]
  refine ⟨(sound.reduce fits).1, ?_⟩
  rw [(sound.reduce fits).2, bit, ofBits_bit]
  rfl

theorem flush_eq (reg : Nat) : crc.flush reg = crc.take reg 0 := by
  unfold Crc.flush Crc.take
  rw [low_bit]
  simp

/-- The register once the message and as many zeros as it is wide went in. -/
def register (crc : Crc) (bits : Bytes) : Nat := (bits ++ List.replicate crc.width 0).foldl crc.take 0

theorem remainder_eq (bits : Bytes) : crc.remainder bits = (List.range crc.width).map fun i =>
    (((crc.register bits &&& crc.mask) >>> (crc.width - 1 - i)) &&& 1).toUInt8 := by
  have flushed (n reg : Nat) : (List.range n).foldl (fun reg _ => crc.flush reg) reg =
      (List.replicate n 0).foldl crc.take reg := by
    induction n with
    | zero => rfl
    | succ n ih =>
      rw [List.range_succ, List.replicate_succ', List.foldl_append, List.foldl_append, ih]
      exact flush_eq _
  unfold Crc.remainder register
  simp only [flushed, List.foldl_append]

theorem Sound.foldl_take (sound : crc.Sound) (bits : Bytes) :
    bits.foldl crc.take 0 < 2 ^ crc.width ∧ ofBits (bits.foldl crc.take 0) = ofBytes bits %ₘ crc.generator := by
  rw [ofBytes, ← foldl_modByMonic sound.monic]
  induction bits using List.reverseRecOn with
  | nil => simp [ofBits]
  | append_singleton bits b ih =>
    obtain ⟨small, is⟩ := ih
    simp only [List.map_append, List.map_singleton, List.foldl_append, List.foldl_cons, List.foldl_nil, ← is]
    exact sound.take small b

theorem Sound.register (sound : crc.Sound) (bits : Bytes) : crc.register bits < 2 ^ crc.width ∧
    ofBits (crc.register bits) = (ofBytes bits * X ^ crc.width) %ₘ crc.generator := by
  have shifted : ofBytes (bits ++ List.replicate crc.width 0) = ofBytes bits * X ^ crc.width := by
    have zeros : (List.replicate crc.width (0 : UInt8)).map parity = List.replicate crc.width 0 := by
      rw [List.map_replicate]
      rfl
    rw [ofBytes, List.map_append, ofCoeffs_append, zeros, ofCoeffs_zeros, add_zero, List.length_replicate]
    rfl
  rw [← shifted]
  exact sound.foldl_take _

theorem length_remainder (bits : Bytes) : (crc.remainder bits).length = crc.width := by
  rw [remainder_eq, List.length_map, List.length_range]

/-- The parity bits are the remainder of the bits by the generator, shifted by its width. -/
theorem Sound.remainder (sound : crc.Sound) (bits : Bytes) : AllBits (crc.remainder bits) ∧
    ofBytes (crc.remainder bits) = (ofBytes bits * X ^ crc.width) %ₘ crc.generator := by
  obtain ⟨small, is⟩ := sound.register bits
  have kept : crc.register bits &&& crc.mask = crc.register bits := by
    rw [mask, top_eq, Nat.and_two_pow_sub_one_of_lt_two_pow small]
  have bit (i : Nat) : (((crc.register bits &&& crc.mask) >>> i) &&& 1).toUInt8 =
      if (crc.register bits).testBit i then 1 else 0 := by
    rw [kept, Nat.and_one_is_mod, Nat.shiftRight_eq_div_pow, ← Nat.toNat_testBit]
    cases (crc.register bits).testBit i <;> rfl
  simp only [AllBits, remainder_eq, bit]
  refine ⟨fun b member => ?_, ?_⟩
  · obtain ⟨i, -, rfl⟩ := List.mem_map.mp member
    split
    · exact .inr rfl
    · exact .inl rfl
  · rw [← is, ← ofCoeffs_testBit small, ofBytes, List.map_map]
    congr 2
    funext i
    simp only [Function.comp_apply]
    cases (crc.register bits).testBit (crc.width - 1 - i) <;> rfl

end Crc

/-! ### Strings of bits -/

theorem parity_xor (a b : UInt8) : parity (a ^^^ b) = parity a + parity b := by
  unfold parity
  rw [UInt8.toNat_xor, Nat.testBit_xor]
  cases a.toNat.testBit 0 <;> cases b.toNat.testBit 0 <;> decide

theorem ofBytes_xor {a b : Bytes} (same : a.length = b.length) : ofBytes (xorBytes a b) = ofBytes a + ofBytes b := by
  have bits : (xorBytes a b).map parity = List.zipWith (· + ·) (a.map parity) (b.map parity) := by
    rw [xorBytes, List.map_zipWith, List.zipWith_map]
    exact congrArg (fun f => List.zipWith f a b) (funext₂ parity_xor)
  rw [ofBytes, bits, ofCoeffs_zipWith (by simpa using same)]
  rfl

theorem ofBytes_append (a b : Bytes) : ofBytes (a ++ b) = ofBytes a * X ^ b.length + ofBytes b := by
  rw [ofBytes, List.map_append, ofCoeffs_append, List.length_map]
  rfl

theorem ofBytes_zeros {a : Bytes} (zeros : ∀ b ∈ a, b = 0) : ofBytes a = 0 := by
  have parities : a.map parity = List.replicate a.length 0 :=
    List.eq_replicate_iff.mpr ⟨List.length_map .., by
      simp only [List.mem_map]
      rintro p ⟨b, member, rfl⟩
      rw [zeros b member]
      rfl⟩
  rw [ofBytes, parities, ofCoeffs_zeros]

theorem degree_ofBytes_lt (a : Bytes) : (ofBytes a).degree < a.length := by
  have length : (a.map parity).length = a.length := List.length_map ..
  rw [← length]
  exact degree_ofCoeffs_lt _

theorem AllBits.injective {a b : Bytes} (bits : AllBits a) (bits' : AllBits b) (same : a.length = b.length)
    (eq : ofBytes a = ofBytes b) : a = b := by
  have back {a : Bytes} (bits : AllBits a) : (a.map parity).map (fun p => if p = 0 then (0 : UInt8) else 1) = a := by
    rw [List.map_map]
    refine (List.map_congr_left fun b member => ?_).trans (List.map_id a)
    rcases bits b member with rfl | rfl <;> rfl
  have parities : a.map parity = b.map parity := ofCoeffs_injective (by simpa using same) eq
  rw [← back bits, ← back bits', parities]

theorem AllBits.of_append {a b : Bytes} (bits : AllBits (a ++ b)) : AllBits a ∧ AllBits b :=
  ⟨fun x member => bits x (List.mem_append_left _ member), fun x member => bits x (List.mem_append_right _ member)⟩

theorem AllBits.xor {a b : Bytes} (bits : AllBits a) (bits' : AllBits b) : AllBits (xorBytes a b) := by
  induction a generalizing b with
  | nil => exact nofun
  | cons x a ih =>
    cases b with
    | nil => exact nofun
    | cons y b =>
      obtain ⟨here, later⟩ := List.forall_mem_cons.mp bits
      obtain ⟨here', later'⟩ := List.forall_mem_cons.mp bits'
      refine List.forall_mem_cons.mpr ⟨?_, ih later later'⟩
      rcases here with rfl | rfl <;> rcases here' with rfl | rfl <;> decide

namespace Crc

variable {crc : Crc}

/-- A string of bits checks exactly when the generator divides it. -/
theorem Sound.check_iff (sound : crc.Sound) {w : Bytes} (bits : AllBits w) :
    crc.check w = true ↔ crc.width ≤ w.length ∧ crc.generator ∣ ofBytes w := by
  unfold Crc.check
  by_cases short : w.length < crc.width
  · rw [if_pos short]
    simp only [Bool.false_eq_true, false_iff, not_and]
    omega
  obtain ⟨a, s, rfl, width⟩ : ∃ a s, w = a ++ s ∧ s.length = crc.width :=
    ⟨w.take (w.length - crc.width), w.drop (w.length - crc.width), (List.take_append_drop ..).symm, by
      rw [List.length_drop]
      omega⟩
  obtain ⟨bitsA, bitsS⟩ := bits.of_append
  obtain ⟨bitsR, is⟩ := sound.remainder a
  have split : (a ++ s).length - crc.width = a.length := by rw [List.length_append, width, Nat.add_sub_cancel]
  have narrow : (ofCoeffs (s.map parity)).degree < crc.generator.degree := by
    rw [sound.width_eq, ← width]
    exact degree_ofBytes_lt s
  have divides := dvd_append_iff sound.monic (a.map parity) narrow
  rw [← List.map_append, CharTwo.neg_eq, List.length_map, width] at divides
  have parity_ : crc.remainder a = s ↔ ofBytes s = ofBytes a * X ^ crc.width %ₘ crc.generator := by
    rw [← is]
    exact ⟨fun same => by rw [same], fun same => bitsR.injective bitsS (by rw [length_remainder, width]) same.symm⟩
  rw [if_neg short, split]
  simp only [List.take_left, List.drop_left, decide_eq_true_iff, parity_]
  exact ⟨fun same => ⟨by omega, divides.mpr same⟩, fun whole => divides.mp whole.2⟩

/-- What is attached checks, whatever it is attached to. -/
theorem check_attach (crc : Crc) (a : Bytes) : crc.check (crc.attach a) = true := by
  have width : (crc.remainder a).length = crc.width := length_remainder a
  have long : ¬ (crc.attach a).length < crc.width := by
    rw [attach, List.length_append, width]
    omega
  have split : (crc.attach a).length - crc.width = a.length := by
    rw [attach, List.length_append, width, Nat.add_sub_cancel]
  unfold Crc.check
  rw [if_neg long, split]
  simp [attach]

theorem Sound.remainder_xor (sound : crc.Sound) {a b : Bytes} (same : a.length = b.length) :
    crc.remainder (xorBytes a b) = xorBytes (crc.remainder a) (crc.remainder b) := by
  have lengths : (crc.remainder a).length = (crc.remainder b).length := by rw [length_remainder, length_remainder]
  have bits : AllBits (xorBytes (crc.remainder a) (crc.remainder b)) :=
    AllBits.xor (sound.remainder a).1 (sound.remainder b).1
  refine AllBits.injective (sound.remainder _).1 bits ?_ ?_
  · rw [length_remainder, xorBytes, List.length_zipWith, length_remainder, length_remainder, Nat.min_self]
  · rw [(sound.remainder _).2, ofBytes_xor lengths, ofBytes_xor same, (sound.remainder a).2, (sound.remainder b).2,
      add_mul, add_modByMonic]

/-- The ones of a pattern lie within so many places in a row. -/
def Within (n : Nat) (pattern : Bytes) : Prop :=
  ∃ start, ∀ i, pattern[i]? = some 1 → start ≤ i ∧ i < start + n

/-- A pattern with its ones close together is no multiple of the generator. -/
theorem Sound.not_dvd (sound : crc.Sound) (positive : crc.width ≠ 0) {pattern : Bytes} (bits : AllBits pattern)
    (some_ : 1 ∈ pattern) (burst : Within crc.width pattern) : ¬ crc.generator ∣ ofBytes pattern := by
  obtain ⟨start, within⟩ := burst
  -- zeros, the burst, and zeros
  have front : ofBytes (pattern.take start) = 0 := ofBytes_zeros fun b member => by
    obtain ⟨i, inside, is⟩ := List.mem_iff_getElem.mp member
    have below : i < start ∧ i < pattern.length := by simpa using inside
    rw [List.getElem_take] at is
    refine (bits b (List.mem_of_mem_take member)).resolve_right fun one_ => ?_
    have := within i (by rw [List.getElem?_eq_getElem below.2, is, one_])
    omega
  have back : ofBytes ((pattern.drop start).drop crc.width) = 0 := ofBytes_zeros fun b member => by
    rw [List.drop_drop] at member
    obtain ⟨i, inside, is⟩ := List.mem_iff_getElem.mp member
    rw [List.length_drop] at inside
    rw [List.getElem_drop] at is
    refine (bits b (List.mem_of_mem_drop member)).resolve_right fun one_ => ?_
    have := within (start + crc.width + i) (by rw [List.getElem?_eq_getElem (by omega), is, one_])
    omega
  have whole : ofBytes pattern =
      ofBytes ((pattern.drop start).take crc.width) * X ^ ((pattern.drop start).drop crc.width).length := by
    conv_lhs => rw [← List.take_append_drop start pattern, ← List.take_append_drop crc.width (pattern.drop start)]
    rw [ofBytes_append, front, zero_mul, zero_add, ofBytes_append, back, add_zero]
  have nonzero : ofBytes pattern ≠ 0 := fun zero_ => by
    have zeros : ofBytes (List.replicate pattern.length 0) = 0 := ofBytes_zeros fun b member => List.eq_of_mem_replicate member
    have none_ := bits.injective (fun b member => .inl (List.eq_of_mem_replicate member)) (by simp) (zero_.trans zeros.symm)
    rw [none_] at some_
    exact absurd (List.eq_of_mem_replicate some_) (by decide)
  rw [whole] at nonzero ⊢
  refine not_dvd_burst ?_ ?_ (left_ne_zero_of_mul nonzero) _
  · rw [sound.constant positive]
    exact isUnit_one
  · rw [sound.width_eq]
    refine (degree_ofBytes_lt _).trans_le ?_
    exact_mod_cast List.length_take_le ..

theorem crcs_wide : ∀ crc ∈ crcs, crc.width ≠ 0 := by decide

/-- The parity bits are the remainder of the bits by the generator; what is attached checks; and no
pattern of errors within the width of a string that checks goes unseen. -/
theorem polynomial_division (crc : Crc) (one_of : crc ∈ crcs) :
    (crc.generator.Monic ∧ crc.generator.natDegree = crc.width) ∧
    (∀ a, (crc.remainder a).length = crc.width ∧ AllBits (crc.remainder a) ∧
      ofBytes (crc.remainder a) = (ofBytes a * X ^ crc.width) %ₘ crc.generator) ∧
    (∀ a, crc.check (crc.attach a) = true) ∧
    (∀ a b, a.length = b.length → crc.remainder (xorBytes a b) = xorBytes (crc.remainder a) (crc.remainder b)) ∧
    ∀ w pattern, AllBits w → AllBits pattern → pattern.length = w.length → crc.check w = true → 1 ∈ pattern →
      Within crc.width pattern → crc.check (xorBytes w pattern) = false := by
  have sound := crcs_sound crc one_of
  refine ⟨⟨sound.monic, natDegree_eq_of_degree_eq_some sound.width_eq⟩,
    fun a => ⟨length_remainder a, sound.remainder a⟩, check_attach crc, fun a b => sound.remainder_xor,
    fun w pattern bits bits' same checks some_ burst => ?_⟩
  have divides := ((sound.check_iff bits).mp checks).2
  rw [Bool.eq_false_iff]
  intro missed
  have divides' := ((sound.check_iff (bits.xor bits')).mp missed).2
  rw [ofBytes_xor same.symm] at divides'
  exact sound.not_dvd (crcs_wide crc one_of) bits' some_ burst ((dvd_add_right divides).mp divides')

/-- Three bits with their parity, the first of them and a bit of the parity wrong. -/
theorem polynomial_division_crc16 :
    crc16.check (xorBytes (crc16.attach [1, 0, 1]) ([1] ++ List.replicate 14 0 ++ [1, 0, 0, 0])) = false := by
  have holds := polynomial_division crc16 (by decide)
  have burst : ∀ i < 19, ([1] ++ List.replicate 14 0 ++ [1, 0, 0, 0] : Bytes)[i]? = some 1 → 0 ≤ i ∧ i < 0 + 16 := by decide
  exact holds.2.2.2.2 (crc16.attach [1, 0, 1]) _ (by unfold AllBits; decide +kernel) (by unfold AllBits; decide +kernel) (by decide)
    (holds.2.2.1 _) (by decide) ⟨0, fun i one_ => burst i (List.getElem?_eq_some_iff.mp one_).1 one_⟩

end Crc

end AetherHF.Fec

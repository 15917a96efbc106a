import AetherHF.Phy.Constellation
import AetherHF.Phy.Interleaver

/-! Payload and coded bits of a frame, and back: check, fillers, code, bit selection and interleaver, and the soft
inverse, which adds to what an earlier transmission of the block left. -/
namespace AetherHF.Phy.Coding

open Fec Stride

/-! ### The chain -/

/-- A byte's bits, most significant first. -/
def bitsOfByte (byte : UInt8) : Bytes := (List.range 8).reverse.map fun shift => (byte >>> shift.toUInt8) &&& 1

def byteOfBits (chunk : Bytes) : UInt8 := chunk.foldl (fun acc b => (acc <<< 1) ||| (b &&& 1)) 0

def unpack (payload : Bytes) : Bytes := payload.flatMap bitsOfByte

def pack (bits : Bytes) : Bytes := (chunksExact 8 bits).map byteOfBits

/-- Cut or filled with zeros to a length. -/
def resize (n : Nat) (xs : Bytes) : Bytes := xs.take n ++ List.replicate (n - xs.length) 0

/-- One block's codec: what a frame codec and a tone codec have in common. -/
structure BlockCodec where
  payloadBytes : Nat
  infoBits : Nat
  codedBits : Nat
  code : NrLdpcCode
  /-- Where each coded bit is sent. -/
  permutation : List Nat

/-- The payload of a decoded word: none where the check fails or the block is all zeros. -/
def payloadOf (infoBits : Nat) (bits : Bytes) : Option Bytes :=
  let info := bits.take infoBits
  if !crc24a.check info || info.all (· = 0) then none
  else some (pack (info.take (info.length - crc24a.width)))

/-- The selection pattern; what fuel there is is never spent. -/
def selection (code : NrLdpcCode) (infoBits codedBits rv : Nat) : Except FecError RateMatcher :=
  (RateMatcher.new (codedBits + 1) code infoBits codedBits rv).getD (.error (.badLength codedBits 0))

namespace BlockCodec

def new (payloadBytes infoBits codedBits bg z : Nat) : Except FecError BlockCodec := do
  let code ← NrLdpcCode.new bg z
  if code.k < infoBits then .error (.badLength code.k infoBits)
  else .ok ⟨payloadBytes, infoBits, codedBits, code, strided codedBits (coprimeStride codedBits)⟩

variable (block : BlockCodec)

/-- The interleaved coded bits of a payload. -/
def encodeBits (payload : Bytes) (rv : Nat) : Except FecError Bytes :=
  if payload.length ≠ block.payloadBytes then .error (.badLength block.payloadBytes payload.length)
  else do
    let info := resize block.code.k (crc24a.attach (unpack payload))
    let codeword ← block.code.encode info
    let matcher ← selection block.code block.infoBits block.codedBits rv
    let selected ← matcher.matchBits codeword
    .ok (place (List.replicate block.codedBits 0) block.permutation selected)

/-- Soft bits to payload, if it checks, and the codeword's soft bits to keep. -/
def decodeBits (maxIter : Nat) (llr : List ℚ) (rv : Nat) (buffer : Option (List ℚ)) :
    Except FecError (Option Bytes × List ℚ) := do
  let llrE := block.permutation.map fun p => llr.getD p 0
  let matcher ← selection block.code block.infoBits block.codedBits rv
  let full ← matcher.recover llrE buffer
  let decoded ← block.code.decode full maxIter (4 / 5)
  .ok (payloadOf block.infoBits decoded.bits, full)

/-- Transmissions of a block decoded one after another, each with what those before it left. -/
def decodeAll (maxIter : Nat) (ts : List (Nat × List ℚ)) : Except FecError (Option Bytes × Option (List ℚ)) :=
  ts.foldlM (fun s t => do
    let (payload, full) ← block.decodeBits maxIter t.2 t.1 s.2
    return (payload, some full)) (none, none)

end BlockCodec

/-! ### Bytes and bits -/

theorem length_bitsOfByte (byte : UInt8) : (bitsOfByte byte).length = 8 := by
  rw [bitsOfByte, List.length_map, List.length_reverse, List.length_range]

theorem byteOfBits_bitsOfByte (byte : UInt8) : byteOfBits (bitsOfByte byte) = byte := by
  have all : ∀ n < 256, byteOfBits (bitsOfByte (UInt8.ofNat n)) = UInt8.ofNat n := by decide +kernel
  have here := all byte.toNat byte.toNat_lt
  rwa [UInt8.ofNat_toNat] at here

theorem bitsOfByte_byteOfBits {chunk : Bytes} (eight : chunk.length = 8) (bits : ∀ b ∈ chunk, b = 0 ∨ b = 1) :
    bitsOfByte (byteOfBits chunk) = chunk := by
  match chunk, eight with
  | [a, b, c, d, e, f, g, h], _ =>
    simp only [List.forall_mem_cons] at bits
    obtain ⟨rfl | rfl, rfl | rfl, rfl | rfl, rfl | rfl, rfl | rfl, rfl | rfl, rfl | rfl, rfl | rfl, -⟩ := bits <;> rfl

theorem length_unpack (payload : Bytes) : (unpack payload).length = payload.length * 8 :=
  length_flatMap_const length_bitsOfByte payload

theorem unpack_bits (payload : Bytes) : ∀ b ∈ unpack payload, b = 0 ∨ b = 1 := by
  intro b member
  obtain ⟨byte, -, among⟩ := List.mem_flatMap.mp member
  obtain ⟨shift, -, rfl⟩ := List.mem_map.mp among
  have all : ∀ n < 256, UInt8.ofNat n &&& 1 = 0 ∨ UInt8.ofNat n &&& 1 = 1 := by decide +kernel
  have here := all (byte >>> shift.toUInt8).toNat (UInt8.toNat_lt _)
  rwa [UInt8.ofNat_toNat] at here

theorem pack_unpack (payload : Bytes) : pack (unpack payload) = payload := by
  refine List.ext_getElem? fun i => ?_
  have size : (unpack payload).length / 8 = payload.length := by
    rw [length_unpack, Nat.mul_div_cancel _ (by decide)]
  rw [pack, List.getElem?_map]
  rcases Nat.lt_or_ge i payload.length with inside | beyond
  · have chunk : ((unpack payload).drop (i * 8)).take 8 = bitsOfByte payload[i] := by
      refine List.ext_getElem? fun position => ?_
      rcases Nat.lt_or_ge position 8 with short | past
      · rw [List.getElem?_take_of_lt short, List.getElem?_drop, unpack, getElem?_flatMap_const length_bitsOfByte short,
          List.getElem?_eq_getElem inside, Option.bind_some]
      · have left : (((unpack payload).drop (i * 8)).take 8).length ≤ position := (List.length_take_le ..).trans past
        have right : (bitsOfByte payload[i]).length ≤ position := (length_bitsOfByte _).trans_le past
        rw [List.getElem?_eq_none left, List.getElem?_eq_none right]
    rw [getElem?_chunksExact (size ▸ inside), Option.map_some, chunk, byteOfBits_bitsOfByte, List.getElem?_eq_getElem inside]
  · rw [List.getElem?_eq_none (by rw [length_chunksExact, size]; exact beyond), List.getElem?_eq_none beyond]
    rfl

/-- Whole bytes of bits are those of the bytes they are. -/
theorem unpack_pack {bits : Bytes} (all : ∀ b ∈ bits, b = 0 ∨ b = 1) {n : Nat} (whole : bits.length = n * 8) :
    unpack (pack bits) = bits ∧ (pack bits).length = n := by
  have size : bits.length / 8 = n := by rw [whole, Nat.mul_div_cancel _ (by decide)]
  have count : (pack bits).length = n := by rw [pack, List.length_map, length_chunksExact, size]
  refine ⟨List.ext_getElem (by rw [length_unpack, count, whole]) fun p inside inside' => ?_, count⟩
  have row : p / 8 < n := by omega
  have short : p % 8 < 8 := Nat.mod_lt _ (by decide)
  have place : p = p / 8 * 8 + p % 8 := (Nat.div_add_mod' p 8).symm
  have group : (chunksExact 8 bits)[p / 8]? = some ((bits.drop (p / 8 * 8)).take 8) := getElem?_chunksExact (size ▸ row)
  obtain ⟨eight, among⟩ := mem_chunksExact (List.mem_of_getElem? group)
  generalize is : (bits.drop (p / 8 * 8)).take 8 = chunk at group eight among
  have at_ : (unpack (pack bits))[p]? = bits[p]? := by
    conv_lhs => rw [place]
    rw [unpack, getElem?_flatMap_const length_bitsOfByte short, pack, List.getElem?_map, group, Option.map_some,
      Option.bind_some, bitsOfByte_byteOfBits eight fun b member => all b (among b member), ← is,
      List.getElem?_take_of_lt short, List.getElem?_drop, ← place]
  rwa [List.getElem?_eq_getElem inside, List.getElem?_eq_getElem inside', Option.some.injEq] at at_

/-! ### A block sent and received -/

/-- Soft bits with the signs of the bits: below zero for a one. -/
def Signed (bits : Bytes) (llr : List ℚ) : Prop :=
  llr.length = bits.length ∧
    ∀ p < bits.length, (bits.getD p 0 = 1 → llr.getD p 0 < 0) ∧ (bits.getD p 0 = 0 → 0 < llr.getD p 0)

namespace BlockCodec

/-- A codec of a code whose transmission at redundancy version 0 leaves nothing that the rows do not give. -/
structure Sound (block : BlockCodec) : Prop where
  made : ∃ bg z, (bg = 1 ∨ bg = 2) ∧ z ∈ allLiftingSizes ∧ NrLdpcCode.new bg z = .ok block.code
  info : block.infoBits = block.payloadBytes * 8 + crc24a.width
  recovers : Recovers block.code block.infoBits block.codedBits
  permutation : block.permutation = strided block.codedBits (coprimeStride block.codedBits)
  word : block.codedBits ≤ 2 ^ 63

theorem new_sound {payloadBytes infoBits codedBits bg z : Nat} (does : recovers bg z infoBits codedBits = true)
    (info : infoBits = payloadBytes * 8 + crc24a.width) (word : codedBits ≤ 2 ^ 63) :
    ∃ block, new payloadBytes infoBits codedBits bg z = .ok block ∧ block.payloadBytes = payloadBytes ∧
      block.infoBits = infoBits ∧ block.codedBits = codedBits ∧ block.Sound := by
  obtain ⟨known, member⟩ := recovers_sized does
  obtain ⟨g, iLs, s, code, made, -⟩ := new_built known member
  have recovers := recovers_code made does
  refine ⟨⟨payloadBytes, infoBits, codedBits, code, strided codedBits (coprimeStride codedBits)⟩, ?_, rfl, rfl, rfl, ?_⟩
  · rw [new, made]
    exact if_neg (Nat.not_lt.mpr recovers.high)
  · exact ⟨⟨bg, z, known, member, made⟩, info, recovers, rfl, word⟩

variable {block : BlockCodec} {payload : Bytes}

theorem Sound.layout (sound : block.Sound) : RateMatcher.Layout block.code := by
  obtain ⟨bg, z, -, -, made⟩ := sound.made
  exact (RateMatcher.layout_new made).2

/-- The codeword of a payload: the payload and its check, fillers and parity. -/
structure Encodes (block : BlockCodec) (payload cw : Bytes) : Prop where
  run : block.code.encode (resize block.code.k (crc24a.attach (unpack payload))) = .ok cw
  length : cw.length = block.code.nFull
  info : cw.take block.infoBits = crc24a.attach (unpack payload)
  fillers : ∀ i, block.infoBits ≤ i → i < block.code.k → cw.getD i 0 = 0
  bits : ∀ b ∈ cw, b = 0 ∨ b = 1
  codeword : block.code.syndromeOk cw = .ok true

theorem Sound.encodes (sound : block.Sound) (length : payload.length = block.payloadBytes) : ∃ cw, block.Encodes payload cw := by
  obtain ⟨bg, z, known, member, made⟩ := sound.made
  obtain ⟨g, iLs, s, code, made', built, sound', shift_, paired⟩ := new_built known member
  obtain rfl := Except.ok.inj (made.symm.trans made')
  have checked : (crc24a.attach (unpack payload)).length = block.infoBits := by
    rw [Crc.attach, List.length_append, Crc.length_remainder, length_unpack, length, sound.info]
  have room := sound.recovers.high
  have whole : resize block.code.k (crc24a.attach (unpack payload)) =
      crc24a.attach (unpack payload) ++ List.replicate (block.code.k - block.infoBits) 0 := by
    rw [resize, List.take_of_length_le (by rw [checked]; exact room), checked]
  have size : (resize block.code.k (crc24a.attach (unpack payload))).length = block.code.k := by
    rw [whole, List.length_append, checked, List.length_replicate]
    omega
  obtain ⟨cw, run, length', taken, codeword, bits⟩ := built.encode_holds sound' shift_ paired size
  have listed : crc24a ∈ crcs := by decide
  refine ⟨cw, run, length', ?_, fun i beyond short => ?_, bits fun b among => ?_, codeword⟩
  · calc cw.take block.infoBits = (cw.take block.code.k).take block.infoBits := by
          rw [List.take_take, Nat.min_eq_left room]
      _ = crc24a.attach (unpack payload) := by rw [taken, whole, List.take_left' checked]
  · have at_ : cw.getD i 0 = (cw.take block.code.k).getD i 0 := by
      rw [List.getD_eq_getElem?_getD, List.getD_eq_getElem?_getD, List.getElem?_take_of_lt short]
    rw [at_, taken, whole, List.getD_append_right _ _ _ _ (checked ▸ beyond), checked, List.getD_eq_getElem?_getD,
      List.getElem?_replicate]
    split <;> rfl
  · rw [whole, Crc.attach] at among
    rcases List.mem_append.mp among with front | filler
    · rcases List.mem_append.mp front with bit | parity
      · exact unpack_bits payload b bit
      · exact ((Crc.crcs_sound crc24a listed).remainder _).1 b parity
    · exact .inl (List.eq_of_mem_replicate filler)

/-- What is sent of a block at a redundancy version, and what soft bits of its signs say of its codeword. -/
theorem Encodes.encodeBits (sound : block.Sound) {cw : Bytes} (encodes : block.Encodes payload cw)
    (length : payload.length = block.payloadBytes) {rv : Nat} (known : rv ≤ 3) :
    ∃ matcher bits, selection block.code block.infoBits block.codedBits rv = .ok matcher ∧
      RateMatcher.new (block.codedBits + 1) block.code block.infoBits block.codedBits rv = some (.ok matcher) ∧
      block.encodeBits payload rv = .ok bits ∧ bits.length = block.codedBits ∧ (∀ b ∈ bits, b = 0 ∨ b = 1) ∧
      ∀ llr, Signed bits llr → RateMatcher.Agrees cw (matcher, block.permutation.map fun p => llr.getD p 0) := by
  have layout := sound.layout
  obtain ⟨matcher, built, fits⟩ := RateMatcher.new_fits layout sound.recovers.low sound.recovers.high block.codedBits known
  have built := built (block.codedBits + 1) (Nat.lt_succ_self _)
  have selected : selection block.code block.infoBits block.codedBits rv = .ok matcher := by
    rw [selection, built, Option.getD_some]
  have matched := fits.matchBits encodes.length
  obtain ⟨chosen, is⟩ : ∃ chosen, (matcher.positions.map (2 * block.code.z + ·)).map (fun i => cw.getD i 0) = chosen := ⟨_, rfl⟩
  rw [is] at matched
  have count : chosen.length = block.codedBits := by rw [← is, List.length_map, List.length_map, fits.length]
  have coprime := coprimeStride_coprime sound.word
  have inside : ∀ p ∈ block.permutation, p < (List.replicate block.codedBits (0 : UInt8)).length := by
    intro p member
    rw [sound.permutation] at member
    rw [List.length_replicate]
    exact strided_lt member
  have places : block.permutation.length = block.codedBits := by rw [sound.permutation, length_strided]
  have apart : block.permutation.Nodup := sound.permutation ▸ strided_nodup coprime
  refine ⟨matcher, place (List.replicate block.codedBits 0) block.permutation chosen, selected, built, ?_, ?_, ?_, ?_⟩
  · rw [BlockCodec.encodeBits, if_neg (not_not.mpr length)]
    dsimp only
    rw [encodes.run, selected]
    dsimp only [bind, Except.bind]
    rw [matched]
  · rw [length_place, List.length_replicate]
  · have within : ∀ b ∈ chosen, b = 0 ∨ b = 1 := by
      intro b member
      rw [← is] at member
      obtain ⟨i, -, rfl⟩ := List.mem_map.mp member
      by_cases short : i < cw.length
      · rw [List.getD_eq_getElem _ _ short]
        exact encodes.bits _ (List.getElem_mem short)
      · exact .inl (List.getD_eq_default _ _ (Nat.le_of_not_lt short))
    refine List.foldlRecOn (motive := fun out : Bytes => ∀ b ∈ out, b = 0 ∨ b = 1) _ _ ?_ fun out still v among => ?_
    · exact fun b member => .inl (List.eq_of_mem_replicate member)
    · intro b member
      rcases List.mem_or_eq_of_mem_set member with old | rfl
      · exact still b old
      · exact within _ (List.of_mem_zip among).1
  · intro llr signed bits same pair zipped
    obtain rfl := Except.ok.inj (matched.symm.trans same)
    obtain ⟨k, short, rfl⟩ := List.mem_iff_getElem.mp zipped
    rw [List.length_zip, List.length_map, count, places, Nat.min_self] at short
    have here : k < block.permutation.length := places.symm ▸ short
    have sent := getD_place apart inside (count.trans places.symm) here 0
    have member : block.permutation.getD k 0 ∈ block.permutation := List.getD_eq_getElem _ _ here ▸ List.getElem_mem here
    have signs := signed.2 (block.permutation.getD k 0) (by rw [length_place]; exact inside _ member)
    rw [sent, List.getD_eq_getElem _ _ (count.symm ▸ short), List.getD_eq_getElem _ _ here] at signs
    rw [List.getElem_zip, List.getElem_map]
    exact signs

/-! ### What is delivered -/

theorem payloadOf_sent {infoBits : Nat} {cw : Bytes} (info : cw.take infoBits = crc24a.attach (unpack payload))
    (some_ : ∃ b ∈ payload, b ≠ 0) : payloadOf infoBits cw = some payload := by
  have split : (crc24a.attach (unpack payload)).length - crc24a.width = (unpack payload).length := by
    rw [Crc.attach, List.length_append, Crc.length_remainder, Nat.add_sub_cancel]
  have other : (crc24a.attach (unpack payload)).all (· = 0) = false := by
    by_contra zeros
    rw [Bool.not_eq_false, List.all_eq_true] at zeros
    obtain ⟨byte, member, nonzero⟩ := some_
    have bits : ∀ b ∈ bitsOfByte byte, b = 0 := fun b among =>
      of_decide_eq_true (zeros b (List.mem_append_left _ (List.mem_flatMap.mpr ⟨byte, member, among⟩)))
    have none_ : bitsOfByte byte = List.replicate 8 0 := List.eq_replicate_iff.mpr ⟨length_bitsOfByte byte, bits⟩
    refine nonzero ?_
    rw [← byteOfBits_bitsOfByte byte, none_]
    rfl
  have taken : (crc24a.attach (unpack payload)).take (unpack payload).length = unpack payload := List.take_left' rfl
  rw [payloadOf, info, Crc.check_attach, other, split, taken, pack_unpack]
  rfl

theorem remainder_zeros (n : Nat) : crc24a.remainder (List.replicate n 0) = List.replicate crc24a.width 0 := by
  have listed : crc24a ∈ crcs := by decide
  obtain ⟨bits, is⟩ := (Crc.crcs_sound crc24a listed).remainder (List.replicate n 0)
  have zeros (m : Nat) : ofBytes (List.replicate m 0) = 0 := ofBytes_zeros fun b member => List.eq_of_mem_replicate member
  refine bits.injective (fun b member => .inl (List.eq_of_mem_replicate member)) ?_ ?_
  · rw [Crc.length_remainder, List.length_replicate]
  · rw [is, zeros, zeros, zero_mul, Polynomial.zero_modByMonic]

/-- A payload delivered is a whole one, not all zeros, whose check is the one decoded. -/
theorem payloadOf_some {infoBits n : Nat} {bits payload : Bytes} (all : ∀ b ∈ bits, b = 0 ∨ b = 1)
    (info : infoBits = n * 8 + crc24a.width) (room : infoBits ≤ bits.length) (is : payloadOf infoBits bits = some payload) :
    payload.length = n ∧ (∃ b ∈ payload, b ≠ 0) ∧ bits.take infoBits = crc24a.attach (unpack payload) := by
  have length : (bits.take infoBits).length = infoBits := by rw [List.length_take, Nat.min_eq_left room]
  have within : ∀ b ∈ bits.take infoBits, b = 0 ∨ b = 1 := fun b member => all b (List.mem_of_mem_take member)
  unfold payloadOf at is
  dsimp only at is
  generalize bits.take infoBits = word at is length within
  split at is
  · cases is
  rename_i passes
  rw [Bool.or_eq_true, not_or, Bool.not_eq_true', Bool.not_eq_false, List.all_eq_true] at passes
  obtain ⟨checks, other⟩ := passes
  obtain rfl := Option.some.inj is
  have split : word.length - crc24a.width = n * 8 := by rw [length, info, Nat.add_sub_cancel]
  rw [split]
  have front : (word.take (n * 8)).length = n * 8 := by
    rw [List.length_take, length, info]
    omega
  obtain ⟨back, count⟩ := unpack_pack (fun b member => within b (List.mem_of_mem_take member)) front
  have whole : word = crc24a.attach (unpack (pack (word.take (n * 8)))) := by
    rw [back]
    unfold Crc.check at checks
    rw [split] at checks
    split at checks
    · cases checks
    · rw [Crc.attach, of_decide_eq_true checks, List.take_append_drop]
  refine ⟨count, ?_, whole⟩
  by_contra zeros
  refine other fun b member => decide_eq_true ?_
  -- a payload of zeros checks as zeros
  have none_ : pack (word.take (n * 8)) = List.replicate n 0 :=
    List.eq_replicate_iff.mpr ⟨count, fun b member => by_contra fun some_ => zeros ⟨b, member, some_⟩⟩
  have clear : unpack (List.replicate n 0) = List.replicate (n * 8) 0 := by
    refine List.eq_replicate_iff.mpr ⟨by rw [length_unpack, List.length_replicate], fun b member => ?_⟩
    obtain ⟨byte, among, inside⟩ := List.mem_flatMap.mp member
    rw [List.eq_of_mem_replicate among] at inside
    have eight : ∀ b ∈ bitsOfByte 0, b = 0 := by decide +kernel
    exact eight b inside
  rw [whole, none_, clear, Crc.attach] at member
  rcases List.mem_append.mp member with bit | check
  · exact List.eq_of_mem_replicate bit
  · rw [remainder_zeros] at check
    exact List.eq_of_mem_replicate check

/-- What is decoded with what came before it, whatever the soft bits are. -/
theorem Sound.decodeBits (sound : block.Sound) (maxIter : Nat) {rv : Nat} (known : rv ≤ 3) (llr : List ℚ) {buffer : Option (List ℚ)}
    (size : ∀ previous ∈ buffer, previous.length = block.code.nFull) :
    ∃ matcher full d, selection block.code block.infoBits block.codedBits rv = .ok matcher ∧
      matcher.recover (block.permutation.map fun p => llr.getD p 0) buffer = .ok full ∧
      full.length = block.code.nFull ∧ block.code.decode full maxIter (4 / 5) = .ok d ∧
      d.bits.length = block.code.nFull ∧ (∀ b ∈ d.bits, b = 0 ∨ b = 1) ∧
      block.decodeBits maxIter llr rv buffer = .ok (payloadOf block.infoBits d.bits, full) := by
  have layout := sound.layout
  obtain ⟨matcher, built, fits⟩ := RateMatcher.new_fits layout sound.recovers.low sound.recovers.high block.codedBits known
  have selected : selection block.code block.infoBits block.codedBits rv = .ok matcher := by
    rw [selection, built (block.codedBits + 1) (Nat.lt_succ_self _), Option.getD_some]
  have places : (block.permutation.map fun p => llr.getD p 0).length = matcher.e := by
    rw [List.length_map, sound.permutation, length_strided, fits.e_eq]
  have room := layout.buffer
  have whole (previous : List ℚ) (length : previous.length = block.code.nFull) (accumulator : List ℚ) :
      (previous.take matcher.twoZ ++ (previous.drop matcher.twoZ).mapIdx fun i slot => slot + accumulator.getD i 0).length =
        block.code.nFull := by
    rw [List.length_append, List.length_take, List.length_mapIdx, List.length_drop, length, fits.twoZ_eq]
    omega
  obtain ⟨full, recovered, length⟩ : ∃ full, matcher.recover (block.permutation.map fun p => llr.getD p 0) buffer = .ok full ∧
      full.length = block.code.nFull := by
    unfold RateMatcher.recover
    rw [if_neg (not_not.mpr places)]
    cases buffer with
    | none => exact ⟨_, rfl, whole _ fits.fresh.1 _⟩
    | some previous =>
      have length := size previous rfl
      dsimp only
      rw [if_neg (by rw [length, fits.nFull_eq]; simp)]
      exact ⟨_, rfl, whole _ length _⟩
  obtain ⟨d, decoded, same, bits⟩ := decode_ends length maxIter (4 / 5)
  refine ⟨matcher, full, d, selected, recovered, length, decoded, same, bits, ?_⟩
  rw [BlockCodec.decodeBits]
  dsimp only [bind, Except.bind]
  rw [selected]
  dsimp only
  rw [recovered]
  dsimp only
  rw [decoded]

/-- A transmission of a payload received with the signs it was sent with. -/
def Arrives (block : BlockCodec) (payload : Bytes) (t : Nat × List ℚ) : Prop :=
  t.1 ≤ 3 ∧ ∃ bits, block.encodeBits payload t.1 = .ok bits ∧ Signed bits t.2

/-- What decoding the transmissions so far has come to: the soft bits of all of them, and the payload once one at
redundancy version 0 is among them. -/
structure Ran (block : BlockCodec) (payload cw : Bytes) (ts : List (Nat × List ℚ)) (s : Option Bytes × Option (List ℚ))
    (matched : List (RateMatcher × List ℚ)) : Prop where
  sent : ∀ m ∈ matched, RateMatcher.Sent block.code block.infoBits m ∧ RateMatcher.Agrees cw m
  first : (∃ t ∈ ts, t.1 = 0) → ∃ m ∈ matched, RateMatcher.Fits block.code block.infoBits block.codedBits 0 m.1
  holds : s.2 = none ∧ matched = [] ∨
    ∃ full, s.2 = some full ∧ RateMatcher.Holds block.code block.infoBits (RateMatcher.received block.code matched) full
  delivered : (∃ t ∈ ts, t.1 = 0) → s.1 = some payload

theorem Sound.decodeAll (sound : block.Sound) (length : payload.length = block.payloadBytes) (some_ : ∃ b ∈ payload, b ≠ 0)
    {cw : Bytes} (encodes : block.Encodes payload cw) (left : Nat) {ts : List (Nat × List ℚ)}
    (arrive : ∀ t ∈ ts, block.Arrives payload t) :
    ∃ s matched, block.decodeAll (left + 1) ts = .ok s ∧ block.Ran payload cw ts s matched := by
  induction ts using List.reverseRecOn with
  | nil => exact ⟨_, [], rfl, nofun, fun ⟨t, member, _⟩ => (List.not_mem_nil member).elim, .inl ⟨rfl, rfl⟩,
      fun ⟨t, member, _⟩ => (List.not_mem_nil member).elim⟩
  | append_singleton front t ih =>
    obtain ⟨s, matched, run, ran⟩ := ih fun t member => arrive t (List.mem_append_left _ member)
    obtain ⟨known, bits, sentBits, signed⟩ := arrive t (List.mem_append_right _ (List.mem_singleton.mpr rfl))
    obtain ⟨matcher, bits', selected, built, sentBits', count, -, agrees⟩ := encodes.encodeBits sound length known
    obtain rfl := Except.ok.inj (sentBits.symm.trans sentBits')
    have layout := sound.layout
    have fits := RateMatcher.fits_of_new layout built
    have places : (block.permutation.map fun p => t.2.getD p 0).length = block.codedBits := by
      rw [List.length_map, sound.permutation, length_strided]
    have size : ∀ previous ∈ s.2, previous.length = block.code.nFull := by
      intro previous member
      rcases ran.holds with ⟨none_, -⟩ | ⟨full, is, holds⟩
      · rw [none_] at member
        cases member
      · rw [is] at member
        exact Option.some.inj member ▸ holds.1
    obtain ⟨matcher', full, d, selected', recovered, -, decoded, -, -, step⟩ := sound.decodeBits (left + 1)
      known t.2 size
    obtain rfl := Except.ok.inj (selected.symm.trans selected')
    -- the soft bits of this one are added to those of the ones before
    have holds : RateMatcher.Holds block.code block.infoBits (RateMatcher.received block.code
        (matched ++ [(matcher, block.permutation.map fun p => t.2.getD p 0)])) full := by
      have joined : RateMatcher.received block.code (matched ++ [(matcher, block.permutation.map fun p => t.2.getD p 0)]) =
          RateMatcher.received block.code matched ++
            RateMatcher.received block.code [(matcher, block.permutation.map fun p => t.2.getD p 0)] := by
        rw [RateMatcher.received, List.flatMap_append]
        rfl
      rw [joined]
      rcases ran.holds with ⟨none_, rfl⟩ | ⟨previous, is, before⟩
      · obtain ⟨full', recovered', holds⟩ := fits.recover layout places fits.fresh (.inr ⟨none_, rfl⟩)
        exact Except.ok.inj (recovered.symm.trans recovered') ▸ holds
      · obtain ⟨full', recovered', holds⟩ := fits.recover layout places before (.inl is)
        exact Except.ok.inj (recovered.symm.trans recovered') ▸ holds
    have sent : ∀ m ∈ matched ++ [(matcher, block.permutation.map fun p => t.2.getD p 0)],
        RateMatcher.Sent block.code block.infoBits m ∧ RateMatcher.Agrees cw m := by
      intro m member
      rcases List.mem_append.mp member with before | here
      · exact ran.sent m before
      · obtain rfl := List.mem_singleton.mp here
        exact ⟨⟨_, _, _, built, places⟩, agrees t.2 signed⟩
    have first : (∃ u ∈ front ++ [t], u.1 = 0) → ∃ m ∈ matched ++ [(matcher, block.permutation.map fun p => t.2.getD p 0)],
        RateMatcher.Fits block.code block.infoBits block.codedBits 0 m.1 := by
      rintro ⟨u, member, zero⟩
      rcases List.mem_append.mp member with before | here
      · obtain ⟨m, among, fits⟩ := ran.first ⟨u, before, zero⟩
        exact ⟨m, List.mem_append_left _ among, fits⟩
      · obtain rfl := List.mem_singleton.mp here
        exact ⟨_, List.mem_append_right _ (List.mem_singleton.mpr rfl), zero ▸ fits⟩
    refine ⟨(payloadOf block.infoBits d.bits, some full), _, ?_, sent, first, .inr ⟨full, rfl, holds⟩, fun zero => ?_⟩
    · rw [BlockCodec.decodeAll] at run ⊢
      rw [List.foldlM_append, run]
      simp only [bind, Except.bind, List.foldlM_cons, List.foldlM_nil, pure, Except.pure, step]
    · obtain ⟨m, among, fits⟩ := first zero
      obtain ⟨bg, z, -, -, made⟩ := sound.made
      have whole := holds.decode made sound.recovers (fun m member => (sent m member).1) encodes.bits encodes.codeword
        encodes.fillers (fun m member => (sent m member).2) among fits (by norm_num : (0 : ℚ) < 4 / 5) left
      obtain rfl := Except.ok.inj (decoded.symm.trans whole)
      exact payloadOf_sent encodes.info some_

end BlockCodec

end AetherHF.Phy.Coding

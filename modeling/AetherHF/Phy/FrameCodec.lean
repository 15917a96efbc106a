import AetherHF.Phy.Codec

/-! The two families' codecs. A payload sent on any mode or tone kind of the tables comes back, once a transmission
at redundancy version 0 has come near enough; and nothing comes back that was not checked. -/
namespace AetherHF.Phy.Coding

open Fec

/-! ### What any codec delivers -/

namespace BlockCodec

variable {block : BlockCodec}

/-- Whatever the soft bits, a payload delivered is a whole one, not all zeros. -/
theorem Sound.delivers (sound : block.Sound) {maxIter rv : Nat} {llr full : List ℚ} {buffer : Option (List ℚ)} {payload : Bytes}
    (run : block.decodeBits maxIter llr rv buffer = .ok (some payload, full)) :
    payload.length = block.payloadBytes ∧ (∃ b ∈ payload, b ≠ 0) ∧ ∃ d, block.code.decode full maxIter (4 / 5) = .ok d ∧
      d.bits.take block.infoBits = crc24a.attach (unpack payload) := by
  unfold BlockCodec.decodeBits at run
  cases selected : selection block.code block.infoBits block.codedBits rv with
  | error e =>
    rw [selected] at run
    cases run
  | ok matcher =>
    rw [selected] at run
    dsimp only [bind, Except.bind] at run
    cases recovered : matcher.recover (block.permutation.map fun p => llr.getD p 0) buffer with
    | error e =>
      rw [recovered] at run
      cases run
    | ok full' =>
      rw [recovered] at run
      dsimp only at run
      cases decoded : block.code.decode full' maxIter (4 / 5) with
      | error e =>
        rw [decoded] at run
        cases run
      | ok d =>
        rw [decoded] at run
        obtain ⟨is, rfl⟩ := Prod.mk.inj (Except.ok.inj run)
        have length : full'.length = block.code.nFull := by
          by_contra other
          rw [NrLdpcCode.decode, if_pos other] at decoded
          cases decoded
        obtain ⟨d', decoded', size, bits⟩ := decode_ends length maxIter (4 / 5)
        obtain rfl := Except.ok.inj (decoded.symm.trans decoded')
        have layout := sound.layout
        have room := sound.recovers.high
        have parity := layout.parity
        obtain ⟨whole, some_, same⟩ := payloadOf_some bits sound.info (by omega) is
        exact ⟨whole, some_, d, decoded, same⟩

end BlockCodec

/-! ### Ordinary frames -/

structure FrameCodec where
  mode : Mode
  layout : FrameLayout
  block : BlockCodec
  constellation : Constellation

/-- A frame as it is received. -/
structure Transmission where
  rv : Nat
  symbols : List Complex
  noise : NoiseVar

namespace FrameCodec

def new (f : Floats) (mode : Mode) (layout : FrameLayout) : Except FecError FrameCodec := do
  let block ← BlockCodec.new (mode.payloadBytes layout) (mode.infoBits layout) (mode.codedBits layout)
    (mode.baseGraph layout) (mode.liftingSize layout)
  return ⟨mode, layout, block, .new f mode.modulation⟩

variable (codec : FrameCodec)

def encode (payload : Bytes) (rv : Nat) : Except FecError (List Complex) := do
  return codec.constellation.map (← codec.block.encodeBits payload rv)

def decode (symbols : List Complex) (noise : NoiseVar) (rv : Nat) (buffer : Option (List ℚ)) :
    Except FecError (Option Bytes × List ℚ) :=
  if symbols.length ≠ codec.layout.qamSymbols then .error (.badLength codec.layout.qamSymbols symbols.length)
  else codec.block.decodeBits 25 (codec.constellation.llr symbols noise) rv buffer

/-- Transmissions decoded one after another, each with what those before it left. -/
def decodeAll (ts : List Transmission) : Except FecError (Option Bytes × Option (List ℚ)) :=
  ts.foldlM (fun s t => do
    let (payload, full) ← codec.decode t.symbols t.noise t.rv s.2
    return (payload, some full)) (none, none)

/-- A transmission of a payload that comes with each symbol nearest its own point. -/
structure Arrives (payload : Bytes) (t : Transmission) : Prop where
  known : t.rv ≤ 3
  noisy : Constellation.Noisy t.noise t.symbols
  received : ∃ bits, codec.block.encodeBits payload t.rv = .ok bits ∧ codec.constellation.Received bits t.symbols

end FrameCodec

theorem frames_whole : ∀ f ∈ frames, f.1.infoBits f.2 = f.1.payloadBytes f.2 * 8 + crc24a.width ∧
    f.1.codedBits f.2 ≤ 2 ^ 63 := by
  intro f member
  have small : ∀ s ∈ sizes, s.2.2.2 ≤ 2 ^ 63 := by decide
  refine ⟨?_, small _ (frames_sizes ▸ List.mem_map_of_mem (f := fun f : Mode × FrameLayout =>
    (f.1.baseGraph f.2, f.1.liftingSize f.2, f.1.infoBits f.2, f.1.codedBits f.2)) member)⟩
  rw [Mode.payloadBytes, Mode.infoBits, Nat.add_sub_cancel, Nat.mul_div_cancel _ (by decide)]

/-- Every mode's codec is built, on the layout its frames have. Any payload sent with it, in any transmissions that
come with each symbol nearest its own point, comes back as soon as one of them is at redundancy version 0; and
whatever comes, a payload that is delivered is a whole one, not all zeros. -/
theorem FrameCodec.frames_arrive (f : Floats) (mode : Mode) (layout : FrameLayout) (listed : (mode, layout) ∈ frames) :
    ∃ codec, FrameCodec.new f mode layout = .ok codec ∧
      (∀ payload, payload.length = mode.payloadBytes layout → ∀ rv ≤ 3,
        ∃ symbols, codec.encode payload rv = .ok symbols ∧ symbols.length = layout.qamSymbols) ∧
      (∀ payload, payload.length = mode.payloadBytes layout → (∃ b ∈ payload, b ≠ 0) →
        ∀ ts, (∀ t ∈ ts, codec.Arrives payload t) → (∃ t ∈ ts, t.rv = 0) →
          ∃ full, codec.decodeAll ts = .ok (some payload, full)) ∧
      ∀ symbols noise rv buffer payload full, codec.decode symbols noise rv buffer = .ok (some payload, full) →
        payload.length = mode.payloadBytes layout ∧ ∃ b ∈ payload, b ≠ 0 := by
  obtain ⟨info, word⟩ := frames_whole _ listed
  obtain ⟨block, made, bytes, infoBits, coded, sound⟩ := BlockCodec.new_sound (frames_recover _ listed) info word
  have per : 0 < mode.modulation.bitsPerSymbol := by cases mode.modulation <;> decide
  refine ⟨⟨mode, layout, block, .new f mode.modulation⟩, ?_, fun payload length rv known => ?_,
    fun payload length some_ ts arrive first => ?_, fun symbols noise rv buffer payload full run => ?_⟩
  · rw [FrameCodec.new, made]
    rfl
  · obtain ⟨cw, encodes⟩ := sound.encodes (length.trans bytes.symm)
    obtain ⟨matcher, bits, -, -, sent, count, -, -⟩ := encodes.encodeBits sound (length.trans bytes.symm) known
    refine ⟨(Constellation.new f mode.modulation).map bits, ?_, ?_⟩
    · rw [FrameCodec.encode, sent]
      rfl
    · rw [Constellation.map, List.length_map, length_chunksExact, count, coded]
      exact Nat.mul_div_cancel _ per
  · have length' := length.trans bytes.symm
    obtain ⟨cw, encodes⟩ := sound.encodes length'
    have signed : ∀ t ∈ ts, t.symbols.length = layout.qamSymbols ∧
        block.Arrives payload (t.rv, (Constellation.new f mode.modulation).llr t.symbols t.noise) := by
      intro t member
      obtain ⟨known, noisy, bits, sent, received⟩ := arrive t member
      obtain ⟨matcher, bits', -, -, sent', count, within, -⟩ := encodes.encodeBits sound length' known
      obtain rfl := Except.ok.inj (sent.symm.trans sent')
      have total : bits.length = layout.qamSymbols * mode.modulation.bitsPerSymbol := count.trans coded
      have symbols : (chunksExact mode.modulation.bitsPerSymbol bits).length = t.symbols.length := received.length_eq
      rw [length_chunksExact, total, Nat.mul_div_cancel _ per] at symbols
      have whole : mode.modulation.bitsPerSymbol ∣ bits.length := total ▸ Nat.dvd_mul_left ..
      obtain ⟨-, size, signs⟩ := Constellation.Received.decided received within whole noisy
      exact ⟨symbols.symm, known, bits, sent, size, signs⟩
    have same : FrameCodec.decodeAll ⟨mode, layout, block, .new f mode.modulation⟩ ts =
        block.decodeAll 25 (ts.map fun t => (t.rv, (Constellation.new f mode.modulation).llr t.symbols t.noise)) := by
      rw [FrameCodec.decodeAll, BlockCodec.decodeAll, List.foldlM_map]
      refine foldlM_congr_mem (fun t member s => ?_) (none, none)
      rw [FrameCodec.decode, if_neg (not_not.mpr (signed t member).1)]
    have heard : ∀ u ∈ ts.map fun t => (t.rv, (Constellation.new f mode.modulation).llr t.symbols t.noise),
        block.Arrives payload u := by
      intro u member
      obtain ⟨t, among, rfl⟩ := List.mem_map.mp member
      exact (signed t among).2
    obtain ⟨s, matched, run, ran⟩ := sound.decodeAll length' some_ encodes 24 heard
    obtain ⟨t, member, zero⟩ := first
    have delivered := ran.delivered ⟨_, List.mem_map_of_mem member, zero⟩
    exact ⟨s.2, by rw [same, run, ← delivered]⟩
  · unfold FrameCodec.decode at run
    split at run
    · cases run
    · obtain ⟨whole, some_, -⟩ := sound.delivers run
      exact ⟨whole.trans bytes, some_⟩

/-- A control frame of the wide air, its symbols as they were sent. -/
theorem FrameCodec.frames_arrive_control : ∃ f codec symbols full, FrameCodec.new f controlMode short = .ok codec ∧
    codec.encode [1, 2, 3, 4, 5, 6, 7] 0 = .ok symbols ∧
    codec.decodeAll [⟨0, symbols, .uniform 1⟩] = .ok (some [1, 2, 3, 4, 5, 6, 7], full) := by
  let f : Floats := ⟨7 / 5, 3, 13 / 2, fun k => (k, 0)⟩
  obtain ⟨codec, made, sends, arrive, -⟩ := FrameCodec.frames_arrive f controlMode short (by decide)
  have bytes : ([1, 2, 3, 4, 5, 6, 7] : Bytes).length = controlMode.payloadBytes short := by decide +kernel
  obtain ⟨symbols, sent, -⟩ := sends _ bytes 0 (by decide)
  have points : codec.constellation = .new f .bpsk := by
    unfold FrameCodec.new at made
    cases built : BlockCodec.new (controlMode.payloadBytes short) (controlMode.infoBits short) (controlMode.codedBits short)
        (controlMode.baseGraph short) (controlMode.liftingSize short) with
    | error e =>
      rw [built] at made
      cases made
    | ok block =>
      rw [built] at made
      obtain rfl := Except.ok.inj made
      rfl
  have arrives : codec.Arrives [1, 2, 3, 4, 5, 6, 7] ⟨0, symbols, .uniform 1⟩ := by
    refine ⟨Nat.zero_le _, fun _ _ => one_pos, ?_⟩
    unfold FrameCodec.encode at sent
    cases coded : codec.block.encodeBits [1, 2, 3, 4, 5, 6, 7] 0 with
    | error e =>
      rw [coded] at sent
      cases sent
    | ok bits =>
      rw [coded] at sent
      obtain rfl := Except.ok.inj sent
      refine ⟨bits, rfl, ?_⟩
      rw [points]
      exact Constellation.received_map f (by decide +kernel) bits
  obtain ⟨full, delivered⟩ := arrive _ bytes ⟨1, by decide, by decide⟩ [⟨0, symbols, .uniform 1⟩]
    (fun t member => List.mem_singleton.mp member ▸ arrives) ⟨_, List.mem_singleton.mpr rfl, rfl⟩
  exact ⟨f, codec, symbols, full, made, sent, delivered⟩

/-! ### The tone floor -/

/-- A tone's label: neighbouring tones differ in one bit. -/
def gray (tone : Nat) : Nat := tone ^^^ (tone >>> 1)

structure ToneCodec where
  kind : ToneKind
  block : BlockCodec
  /-- The tone of each label. -/
  toneOfLabel : List Nat

namespace ToneCodec

def new (kind : ToneKind) : Except FecError ToneCodec := do
  let z ← selectLiftingSize kind.baseGraph kind.infoBits
  let block ← BlockCodec.new kind.payloadBytes kind.infoBits kind.codedBits kind.baseGraph z
  return ⟨kind, block, (List.range kind.dataTones).foldl (fun out t => out.set (gray t) t) (List.replicate kind.dataTones 0)⟩

variable (codec : ToneCodec)

/-- The data symbols' tones. -/
def encode (payload : Bytes) (rv : Nat) : Except FecError (List Nat) := do
  let interleaved ← codec.block.encodeBits payload rv
  return (chunksExact codec.kind.dataBits interleaved).map fun group => codec.toneOfLabel.getD (indexOf group) 0

def decode (llr : List ℚ) (rv : Nat) (buffer : Option (List ℚ)) : Except FecError (Option Bytes × List ℚ) :=
  if llr.length ≠ codec.kind.codedBits then .error (.badLength codec.kind.codedBits llr.length)
  else codec.block.decodeBits 30 llr rv buffer

def decodeAll (ts : List (Nat × List ℚ)) : Except FecError (Option Bytes × Option (List ℚ)) :=
  ts.foldlM (fun s t => do
    let (payload, full) ← codec.decode t.2 t.1 s.2
    return (payload, some full)) (none, none)

/-- A transmission of a payload whose soft bits are on the sides of the labels of the tones sent. -/
structure Arrives (payload : Bytes) (t : Nat × List ℚ) : Prop where
  known : t.1 ≤ 3
  size : t.2.length = codec.kind.codedBits
  labelled : ∃ tones, codec.encode payload t.1 = .ok tones ∧
    ∀ i tone, tones[i]? = some tone → ∀ position < codec.kind.dataBits,
      let bit := (gray tone >>> (codec.kind.dataBits - 1 - position)) &&& 1
      let l := t.2.getD (i * codec.kind.dataBits + position) 0
      (bit = 1 → l < 0) ∧ (bit = 0 → 0 < l)

end ToneCodec

end AetherHF.Phy.Coding

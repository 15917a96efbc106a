import AetherHF.Link.Container

/-! The control frame's seven bytes, read back: a frame within its fields' bounds comes
back as itself, seven bytes with the spare bit clear are a frame's own, and a field out
of its bounds is cut to them where it stands. -/
namespace AetherHF.Link

/-! ### Bytes one by one -/

/-- Every byte is one of 256. -/
theorem byte_cases {P : UInt8 → Prop} (each : ∀ i : Fin 256, P (UInt8.ofNat i)) (b : UInt8) : P b := by
  have here := each ⟨b.toNat, UInt8.toNat_lt b⟩
  rwa [UInt8.ofNat_toNat] at here

theorem byte_lt_cases {P : UInt8 → Prop} {m : Nat} (each : ∀ i : Fin m, P (UInt8.ofNat i)) :
    ∀ b : UInt8, b.toNat < m → P b := by
  intro b small
  have here := each ⟨b.toNat, small⟩
  rwa [UInt8.ofNat_toNat] at here

theorem toNat_min_lt (b : UInt8) : (min b 7).toNat < 8 := by
  change (if b ≤ 7 then b else 7).toNat < 8
  split
  · rename_i few
    exact Nat.lt_succ_of_le (UInt8.le_iff_toNat_le.mp few)
  · decide

theorem toNat_and_lt (b mask : UInt8) {m : Nat} (fits : mask.toNat < m) : (b &&& mask).toNat < m := by
  rw [UInt8.toNat_and]
  exact Nat.lt_of_le_of_lt Nat.and_le_right fits

/-! ### The fields of each byte -/

theorem kindByte (kind : GrantKind) (dataFloor : Bool) (count : UInt8) (few : count.toNat < 8)
    (level : UInt8) (step : level.toNat < 4) :
    let b := (kind.toBits <<< 6) ||| (count <<< 3) ||| (bit dataFloor <<< 2) ||| level
    GrantKind.fromBits (b >>> 6) = kind ∧ (b >>> 3) &&& 0x07 = count ∧
      decide (b &&& 0x04 ≠ 0) = dataFloor ∧ b &&& 0x03 = level := by
  revert step level few count
  refine byte_lt_cases fun count => ?_
  refine byte_lt_cases fun level => ?_
  revert count level
  cases kind <;> cases dataFloor <;> decide

theorem sessionByte (session : UInt8) (fam : Bool) :
    let b := ((session &&& 0x7F) <<< 1) ||| bit fam
    b >>> 1 = session &&& 0x7F ∧ decide (b &&& 0x01 ≠ 0) = fam := by
  have each : ∀ b : UInt8, b.toNat < 128 → ((b <<< 1) ||| bit fam) >>> 1 = b ∧
      decide (((b <<< 1) ||| bit fam) &&& 0x01 ≠ 0) = fam := by
    refine byte_lt_cases ?_
    cases fam <;> decide
  exact each _ (toNat_and_lt session 0x7F (by decide))

theorem readingByte (flag marked : Bool) (snr : UInt8) (six : snr.toNat < 64) :
    let b := (bit flag <<< 7) ||| (bit marked <<< 6) ||| snr
    decide (b &&& 0x80 ≠ 0) = flag ∧ decide (b &&& 0x40 ≠ 0) = marked ∧ b &&& 0x3F = snr := by
  revert six snr
  refine byte_lt_cases ?_
  cases flag <;> cases marked <;> decide

theorem slotByte (slotFloor : Bool) (missed : UInt8) (few : missed.toNat < 8) (n : UInt8)
    (small : n.toNat < 8) :
    let b := (bit slotFloor <<< 7) ||| (missed <<< 4) ||| (n &&& 0x07)
    decide (b &&& 0x80 ≠ 0) = slotFloor ∧ (b >>> 4) &&& 0x07 = missed ∧ b &&& 0x07 = n := by
  revert small n few missed
  refine byte_lt_cases fun missed => ?_
  refine byte_lt_cases fun n => ?_
  revert missed n
  cases slotFloor <;> decide

/-! ### The reading -/

theorem clampInt_bounds {low high : ℤ} (ordered : low ≤ high) (x : ℤ) :
    low ≤ clampInt low high x ∧ clampInt low high x ≤ high := by
  unfold clampInt
  omega

theorem snrBits_small (snr : Option ℚ) : (GrantFrame.snrBits snr).toNat < 64 := by
  cases snr with
  | none => decide
  | some value => exact toNat_and_lt _ _ (by decide)

/-- Six bits hold every reading from -31 to 31, and none. -/
theorem snrOfBits_signed (k : ℤ) (low : -31 ≤ k) (high : k ≤ 31) :
    GrantFrame.snrOfBits (signedByte k &&& 0x3F) = some (k : ℚ) := by
  have each : ∀ i : Fin 63, GrantFrame.snrOfBits (signedByte ((i.val : ℤ) - 31) &&& 0x3F) =
      some ((((i.val : ℤ) - 31 : ℤ)) : ℚ) := by decide +kernel
  have here := each ⟨(k + 31).toNat, by omega⟩
  have same : (((k + 31).toNat : ℕ) : ℤ) - 31 = k := by omega
  simpa only [same] using here

theorem snrOfBits_snrBits (snr : Option ℚ) : GrantFrame.snrOfBits (GrantFrame.snrBits snr) =
    snr.map fun value => ((clampInt (-31) 31 (roundTiesEven value) : ℤ) : ℚ) := by
  cases snr with
  | none => rfl
  | some value =>
    have bounds := clampInt_bounds (by decide : (-31 : ℤ) ≤ 31) (roundTiesEven value)
    exact snrOfBits_signed _ bounds.1 bounds.2

theorem snrBits_snrOfBits (raw : UInt8) (six : raw.toNat < 64) :
    GrantFrame.snrBits (GrantFrame.snrOfBits raw) = raw := by
  revert six raw
  refine byte_lt_cases ?_
  decide +kernel

namespace GrantFrame

/-! ### Read back -/

/-- The end of a session, or its acknowledgement. -/
def closing (f : GrantFrame) : Bool := f.kind = .disc ∨ f.kind = .discAck

/-- The fields within their bounds. -/
structure InRange (f : GrantFrame) : Prop where
  session : f.session < 128
  count : f.count ≤ 7
  level : f.level ≤ 3
  missed : f.missed ≤ 7
  n : f.n ≤ 7
  snrDb : ∀ value ∈ f.snrDb, ∃ k : ℤ, value = k ∧ -31 ≤ k ∧ k ≤ 31
  ident : f.ident = true → f.closing = true
  measure : f.measure = true → f.closing = false

/-- Each field cut to its bounds. `ident` and `measure` are one bit, read by the kind. -/
def cut (f : GrantFrame) : GrantFrame :=
  { f with
    session := f.session &&& 0x7F
    count := min f.count 7
    level := f.level &&& 0x03
    missed := min f.missed missedUnknown
    n := min f.n 7
    snrDb := f.snrDb.map fun value => ((clampInt (-31) 31 (roundTiesEven value) : ℤ) : ℚ)
    ident := (f.ident || f.measure) && f.closing
    measure := (f.ident || f.measure) && !f.closing }

/-- A frame comes back with each field cut to its bounds, and nothing else changed. -/
theorem decode_encode_cut (f : GrantFrame) : decode f.encode = .ok f.cut := by
  obtain ⟨kind, count, dataFloor, level⟩ := kindByte f.kind f.dataFloor (min f.count 7)
    (toNat_min_lt _) (f.level &&& 0x03) (toNat_and_lt _ _ (by decide))
  obtain ⟨session, fam⟩ := sessionByte f.session f.fam
  obtain ⟨flag, marked, snr⟩ := readingByte f.flag (f.ident || f.measure) (snrBits f.snrDb) (snrBits_small _)
  obtain ⟨slotFloor, missed, n⟩ := slotByte f.slotFloor (min f.missed missedUnknown)
    (toNat_min_lt _) (min f.n 7) (toNat_min_lt _)
  have shared (p q : Prop) [Decidable p] [Decidable q] (b : Bool) (is : decide p = b) :
      decide (p ∧ q) = (b && decide q) := by rw [← is]; exact Bool.decide_and p q
  unfold encode decode cut closing
  dsimp only at *
  simp only [kind, count, dataFloor, level, session, fam, flag, snr, slotFloor, missed, n, snrOfBits_snrBits,
    bitmap_halves, shared _ _ _ marked, decide_not]

/-- Within its bounds a frame is cut nowhere. -/
theorem InRange.cut {f : GrantFrame} (within : f.InRange) : f.cut = f := by
  have low (b : UInt8) (few : b ≤ 7) : min b 7 = b := if_pos few
  have seven : f.session &&& 0x7F = f.session := by
    have each : ∀ b : UInt8, b.toNat < 128 → b &&& 0x7F = b := byte_lt_cases (by decide)
    exact each _ (UInt8.lt_iff_toNat_lt.mp within.session)
  have two : f.level &&& 0x03 = f.level := by
    have each : ∀ b : UInt8, b.toNat < 4 → b &&& 0x03 = b := byte_lt_cases (by decide)
    exact each _ (Nat.lt_succ_of_le (UInt8.le_iff_toNat_le.mp within.level))
  have reading : (f.snrDb.map fun value => ((clampInt (-31) 31 (roundTiesEven value) : ℤ) : ℚ)) = f.snrDb := by
    cases snr : f.snrDb with
    | none => rfl
    | some value =>
      obtain ⟨k, rfl, above, below⟩ := within.snrDb value snr
      have still : clampInt (-31) 31 k = k := by
        unfold clampInt
        omega
      rw [Option.map_some, roundTiesEven_intCast, still]
  have ident : ((f.ident || f.measure) && f.closing) = f.ident := by
    have closes := within.ident
    have opens := within.measure
    revert closes opens
    generalize f.closing = closing, f.ident = ident, f.measure = measure
    cases closing <;> cases ident <;> cases measure <;> simp
  have measure : ((f.ident || f.measure) && !f.closing) = f.measure := by
    have closes := within.ident
    have opens := within.measure
    revert closes opens
    generalize f.closing = closing, f.ident = ident, f.measure = measure
    cases closing <;> cases ident <;> cases measure <;> simp
  unfold GrantFrame.cut
  rw [seven, two, low _ within.count, reading, ident, measure, missedUnknown, low _ within.missed,
    low _ within.n]

theorem InRange.decode_encode {f : GrantFrame} (within : f.InRange) : decode f.encode = .ok f := by
  rw [decode_encode_cut, within.cut]

/-! ### Written back -/

/-- Each byte is its fields, put back together; the last keeps one bit spare. -/
theorem bytes_back : ∀ b : UInt8,
    ((GrantKind.fromBits (b >>> 6)).toBits <<< 6) ||| (min ((b >>> 3) &&& 0x07) 7 <<< 3) |||
        (bit (decide (b &&& 0x04 ≠ 0)) <<< 2) ||| ((b &&& 0x03) &&& 0x03) = b ∧
      ((b >>> 1 &&& 0x7F) <<< 1) ||| bit (decide (b &&& 0x01 ≠ 0)) = b ∧
      (bit (decide (b &&& 0x80 ≠ 0)) <<< 7) ||| (bit (decide (b &&& 0x40 ≠ 0)) <<< 6) ||| (b &&& 0x3F) = b ∧
      (b &&& 0x08 = 0 →
        (bit (decide (b &&& 0x80 ≠ 0)) <<< 7) ||| (min (b >>> 4 &&& 0x07) missedUnknown <<< 4) |||
          (min (b &&& 0x07) 7 &&& 0x07) = b) :=
  byte_cases (by decide +kernel)

theorem kindByte_back (b : UInt8) : ((GrantKind.fromBits (b >>> 6)).toBits <<< 6) |||
    (min ((b >>> 3) &&& 0x07) 7 <<< 3) ||| (bit (decide (b &&& 0x04 ≠ 0)) <<< 2) ||| ((b &&& 0x03) &&& 0x03) = b :=
  (bytes_back b).1

theorem sessionByte_back (b : UInt8) :
    ((b >>> 1 &&& 0x7F) <<< 1) ||| bit (decide (b &&& 0x01 ≠ 0)) = b :=
  (bytes_back b).2.1

theorem readingByte_back (b : UInt8) :
    (bit (decide (b &&& 0x80 ≠ 0)) <<< 7) ||| (bit (decide (b &&& 0x40 ≠ 0)) <<< 6) ||| (b &&& 0x3F) = b :=
  (bytes_back b).2.2.1

theorem slotByte_back (b : UInt8) (spare : b &&& 0x08 = 0) :
    (bit (decide (b &&& 0x80 ≠ 0)) <<< 7) ||| (min (b >>> 4 &&& 0x07) missedUnknown <<< 4) |||
      (min (b &&& 0x07) 7 &&& 0x07) = b :=
  (bytes_back b).2.2.2 spare

theorem bitmap_back (high low : UInt8) :
    (((high.toUInt16 <<< 8 ||| low.toUInt16) >>> 8) &&& 0xFF).toUInt8 = high ∧
      ((high.toUInt16 <<< 8 ||| low.toUInt16) &&& 0xFF).toUInt8 = low := by
  have word := fromBe_toNat high low
  have small := low.toNat_lt
  have big := high.toNat_lt
  unfold fromBe at word
  constructor <;> apply UInt8.toNat_inj.mp
  · simp only [UInt16.toNat_toUInt8, UInt16.toNat_and, show (0xFF : UInt16).toNat = 2 ^ 8 - 1 from rfl,
      Nat.and_two_pow_sub_one_eq_mod, UInt16.toNat_shiftRight, Nat.shiftRight_eq_div_pow, word,
      show ((8 : UInt16).toNat % 16) = 8 from rfl]
    omega
  · simp only [UInt16.toNat_toUInt8, UInt16.toNat_and, show (0xFF : UInt16).toNat = 2 ^ 8 - 1 from rfl,
      Nat.and_two_pow_sub_one_eq_mod, word]
    omega

/-- Seven bytes with the spare bit clear are what their frame encodes to. -/
theorem encode_decode {b0 b1 b2 b3 b4 b5 b6 : UInt8} (spare : b6 &&& 0x08 = 0) :
    ∃ f, decode [b0, b1, b2, b3, b4, b5, b6] = .ok f ∧ f.encode = [b0, b1, b2, b3, b4, b5, b6] := by
  refine ⟨_, rfl, ?_⟩
  have either (p q : Prop) [Decidable p] [Decidable q] : (decide (p ∧ q) || decide (p ∧ ¬q)) = decide p := by
    by_cases first : p <;> by_cases second : q <;> simp [first, second]
  have six : (b2 &&& 0x3F).toNat < 64 := toNat_and_lt _ _ (by decide)
  unfold encode
  dsimp only
  rw [kindByte_back, sessionByte_back, either, snrBits_snrOfBits _ six, readingByte_back, slotByte_back b6 spare,
    (bitmap_back b4 b5).1, (bitmap_back b4 b5).2]

/-- The control frame's encoder and decoder undo each other, and no field out of its
bounds touches another's bits. -/
theorem roundTrips :
    (∀ f : GrantFrame, f.InRange → decode f.encode = .ok f) ∧
    (∀ p : Bytes, p.length = controlBytes → p.getD 6 0 &&& 0x08 = 0 → ∃ f, decode p = .ok f ∧ f.encode = p) ∧
    (∀ p q : Bytes, p.length = controlBytes → p.getD 6 0 &&& 0x08 = 0 → q.length = controlBytes →
      q.getD 6 0 &&& 0x08 = 0 → decode p = decode q → p = q) ∧
    ∀ f : GrantFrame, decode f.encode = .ok f.cut := by
  have back (p : Bytes) (seven : p.length = controlBytes) (spare : p.getD 6 0 &&& 0x08 = 0) :
      ∃ f, decode p = .ok f ∧ f.encode = p := by
    match p, seven with
    | [_, _, _, _, _, _, _], _ => exact encode_decode spare
  refine ⟨fun f within => within.decode_encode, back, fun p q seven spare seven' spare' same => ?_,
    decode_encode_cut⟩
  obtain ⟨f, read, written⟩ := back p seven spare
  obtain ⟨g, read', written'⟩ := back q seven' spare'
  have frames : f = g := Except.ok.inj (read.symm.trans (same.trans read'))
  rw [← written, ← written', frames]

/-- A DISC with a reading, there and back; and seven bytes, and the frames of two. -/
theorem roundTrips_disc :
    decode ({ kind := .disc, session := 5, ident := true, base := 200, snrDb := some (-31) } : GrantFrame).encode =
      .ok { kind := .disc, session := 5, ident := true, base := 200, snrDb := some (-31) } ∧
    (∃ f, decode [0x5A, 0xFF, 0x20, 1, 2, 3, 0xF7] = .ok f ∧ f.encode = [0x5A, 0xFF, 0x20, 1, 2, 3, 0xF7]) ∧
    decode [0x5A, 0xFF, 0x20, 1, 2, 3, 0xF7] ≠ decode [0x5A, 0xFF, 0x21, 1, 2, 3, 0xF7] := by
  refine ⟨roundTrips.1 _ ⟨by decide, by decide, by decide, by decide, by decide, ?_, fun _ => rfl, nofun⟩,
    roundTrips.2.1 _ rfl (by decide), fun same => ?_⟩
  · rintro value ⟨⟩
    exact ⟨-31, by norm_num, le_rfl, by decide⟩
  · exact absurd (roundTrips.2.2.1 _ _ rfl (by decide) rfl (by decide) same) (by decide)

/-- A header marked as closing with an identifier is read as one of a measurement. -/
theorem strayIdent_read :
    ∃ f g : GrantFrame, f.kind = .header ∧ f.ident = true ∧ f.measure = false ∧
      decode f.encode = .ok g ∧ g.ident = false ∧ g.measure = true :=
  ⟨{ kind := .header, session := 0, ident := true }, _, rfl, rfl, rfl, decode_encode_cut _, rfl, rfl⟩

end GrantFrame

end AetherHF.Link

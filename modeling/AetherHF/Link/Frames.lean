import AetherHF.Base.Exact
import AetherHF.Base.Text

/-! The bytes inside a PHY DATA or CONTROL payload. A DATA container carries a
block of a session's stream, a piece of one, or one of the frames sent outside a
session; a CONTROL container is one seven-byte frame. Everything is big-endian. -/
namespace AetherHF.Link

/-- Selective-repeat window: the ACK bitmap's width. -/
def window : Nat := 16
def seqMod : Nat := 256
/-- Most frames one burst may carry. -/
def maxBurst : Nat := 16
def callMaxChars : Nat := 9
def callBytes : Nat := 7
def dataHeaderBytes : Nat := 3
def controlBytes : Nat := 7
/-- SNR byte meaning "not measured". -/
def snrUnknown : UInt8 := 0x7F
/-- Index 0 is the padding character. -/
def callAlphabet : Bytes :=
  0 :: Text.asBytes "ABCDEFGHIJKLMNOPQRSTUVWXYZ0123456789-/".toList

inductive DataKind where
  | data | connectReq | connectAck | beacon | probe | probeAck | datagram | measure
  deriving DecidableEq, Repr

namespace DataKind

/-- Sent outside any session, whatever the session byte holds. -/
def outsideSessions : DataKind → Bool
  | .beacon | .probe | .probeAck | .datagram => true
  | .data | .connectReq | .connectAck | .measure => false

def toBits : DataKind → UInt8
  | .data => 0 | .connectReq => 1 | .connectAck => 2 | .beacon => 3
  | .probe => 4 | .probeAck => 5 | .datagram => 6 | .measure => 7

def fromBits (value : UInt8) : Option DataKind :=
  if value = 0 then some .data
  else if value = 1 then some .connectReq
  else if value = 2 then some .connectAck
  else if value = 3 then some .beacon
  else if value = 4 then some .probe
  else if value = 5 then some .probeAck
  else if value = 6 then some .datagram
  else if value = 7 then some .measure
  else none

end DataKind

/-- An explicit data length follows the header. -/
def flagPartial : UInt8 := 0x01
/-- The frame carries a piece of the body of the frame with its sequence number. -/
def flagFragment : UInt8 := 0x02
def fragmentHeaderBytes : Nat := 2
def fragmentMaxOffset : UInt16 := 0x0FFF

inductive FrameError where
  | tooShort
  | unknownKind (bits : UInt8)
  | badLength
  | badCallsign
  | outOfRange
  deriving DecidableEq, Repr

/-! ### Callsigns -/

/-- One step of the packer: six bits more. `value` is a `u64`. -/
def packStep (value : UInt64) (character : UInt8) : Except FrameError UInt64 :=
  match callAlphabet.idxOf? character with
  | some position => .ok ((value <<< 6) ||| UInt64.ofNat position)
  | none => .error .badCallsign

/-- The low seven bytes of a `u64`, most significant first. -/
def lowBytes (value : UInt64) : Bytes :=
  (List.range callBytes).map fun i => (value >>> UInt64.ofNat (8 * (callBytes - 1 - i))).toUInt8

def packCallsign (call : Text) : Except FrameError Bytes := do
  let upper := Text.asBytes (Text.clean call)
  if upper.isEmpty || upper.length > callMaxChars then throw .badCallsign
  let characters := (List.range callMaxChars).map fun index => upper.getD index 0
  let value ← characters.foldlM packStep 0
  -- two more bits pad to a whole number of bytes
  return lowBytes (value <<< 2)

def unpackCallsign (raw : Bytes) : Except FrameError Text := do
  if raw.length < callBytes then throw .tooShort
  let packed : UInt64 := (raw.take callBytes).foldl (fun value byte => (value <<< 8) ||| byte.toUInt64) 0
  let value := packed >>> 2
  let codes := (List.range callMaxChars).map fun index =>
    ((value >>> UInt64.ofNat (6 * (callMaxChars - 1 - index))) &&& 0x3F).toNat
  let characters ← codes.mapM fun code =>
    match callAlphabet[code]? with
    | some character => Except.ok character
    | none => .error .badCallsign
  return (characters.filter (· ≠ 0)).map fun character => Char.ofNat character.toNat

/-! ### The DATA container -/

/-- A piece's place in the body of the frame with its sequence number. -/
structure Piece where
  offset : UInt16
  last : Bool
  deriving DecidableEq, Repr

structure DataHeader where
  kind : DataKind
  seq : UInt8
  session : UInt8
  /-- `none` for a frame sent whole. -/
  piece : Option Piece
  deriving DecidableEq, Repr

/-- `u16::to_be_bytes`. -/
def beBytes (word : UInt16) : Bytes := [(word >>> 8).toUInt8, word.toUInt8]

/-- `u16::from_be_bytes`. -/
def fromBe (high low : UInt8) : UInt16 := (high.toUInt16 <<< 8) ||| low.toUInt16

def pieceWord (piece : Piece) : UInt16 :=
  (piece.offset <<< 4) ||| ((if piece.last then (1 : UInt16) else 0) <<< 3)

/-- The header bytes a piece adds. -/
def pieceBytes : Option Piece → Except FrameError Bytes
  | none => .ok []
  | some piece =>
    if piece.offset > fragmentMaxOffset then .error .outOfRange else .ok (beBytes (pieceWord piece))

/-- The explicit length of a frame that is not full; a `u16`. -/
def lengthBytes (bodyLength room : Nat) : Except FrameError Bytes :=
  if bodyLength < room then
    if bodyLength > room - 2 then .error .badLength
    else if bodyLength < 65536 then .ok (beBytes (UInt16.ofNat bodyLength)) else .error .badLength
  else .ok []

def headerExtra (piece : Option Piece) : Nat :=
  if piece.isSome then fragmentHeaderBytes else 0

/-- Encode a DATA container, padded to the PHY payload size. -/
def encodeData (header : DataHeader) (body : Bytes) (capacity : Nat) : Except FrameError Bytes := do
  let room := capacity - (dataHeaderBytes + headerExtra header.piece)
  let flags := (if body.length < room then flagPartial else 0) |||
    (if header.piece.isSome then flagFragment else 0)
  let head := [(header.kind.toBits <<< 5) ||| (flags &&& 0x1F), header.seq, header.session]
  let place ← pieceBytes header.piece
  let length ← lengthBytes body.length room
  let out := head ++ place ++ length ++ body
  if out.length > capacity then throw .badLength
  return out ++ List.replicate (capacity - out.length) 0

/-- The kind a DATA container's first byte names, read without the rest of it. -/
def dataKind (payload : Bytes) : Option DataKind :=
  payload.head?.bind fun b => DataKind.fromBits (b >>> 5)

/-- The piece the two bytes from `at` on place, and where the body starts. -/
def decodePiece (flags : UInt8) (rest : Bytes) : Except FrameError (Option Piece × Bytes) :=
  if flags &&& flagFragment ≠ 0 then
    match rest with
    | high :: low :: rest =>
      let word := fromBe high low
      .ok (some ⟨word >>> 4, word &&& 0x08 ≠ 0⟩, rest)
    | _ => .error .tooShort
  else .ok (none, rest)

/-- The body of a container whose header is read. -/
def decodeBody (flags : UInt8) (rest : Bytes) : Except FrameError Bytes :=
  if flags &&& flagPartial ≠ 0 then
    match rest with
    | high :: low :: rest =>
      let length := (fromBe high low).toNat
      if length > rest.length then .error .badLength else .ok (rest.take length)
    | _ => .error .tooShort
  else .ok rest

/-- Decode a DATA container into its header and body. -/
def decodeData (payload : Bytes) : Except FrameError (DataHeader × Bytes) :=
  match payload with
  | first :: seq :: session :: rest => do
    let kind ← match DataKind.fromBits (first >>> 5) with
      | some kind => Except.ok kind
      | none => .error (.unknownKind (first >>> 5))
    let flags := first &&& 0x1F
    let (piece, rest) ← decodePiece flags rest
    let body ← decodeBody flags rest
    return (⟨kind, seq, session, piece⟩, body)
  | _ => .error .tooShort

/-- User bytes per full DATA frame for a PHY payload of the given size. -/
def dataCapacity (phyPayloadBytes : Nat) : Nat := phyPayloadBytes - dataHeaderBytes

/-- The bytes the next piece of a body takes: a full frame's worth, but never one
byte short of full, the one length the container cannot carry. -/
def pieceTake (room rest : Nat) : Nat :=
  let take := min room rest
  if take = room - 1 ∧ take = rest then take - 1 else take

/-- The loop of `pieces` with `fuel` turns left: `none` when they run out. -/
def piecesFrom (room : Nat) : Nat → Nat → Bytes → Option (Except FrameError (List (Piece × Bytes)))
  | 0, _, _ => none
  | fuel + 1, start, rest =>
    let take := pieceTake room rest.length
    if start > fragmentMaxOffset.toNat then some (.error .outOfRange)
    else
      let piece : Piece × Bytes := (⟨UInt16.ofNat start, take = rest.length⟩, rest.take take)
      if rest.length ≤ take then some (.ok [piece])
      else (piecesFrom room fuel (start + take) (rest.drop take)).map fun r => r.map (piece :: ·)

/-- `body` in pieces for frames of `phyPayloadBytes`, a full frame's worth at a
time; a last piece one byte short of full goes as two. -/
def pieces (body : Bytes) (phyPayloadBytes : Nat) : Except FrameError (List (Piece × Bytes)) :=
  let room := phyPayloadBytes - (dataHeaderBytes + fragmentHeaderBytes)
  if room < 3 then .error .badLength
  else (piecesFrom room (body.length + 1) 0 body).getD (.error .badLength)

/-! ### Connect and probe bodies -/

structure ConnectBody where
  src : Text
  dst : Text
  caps : UInt8
  version : UInt8
  /-- In an acceptance, the SNR the request arrived at. -/
  snrDb : Option ℚ
  /-- How long the sender's radio takes to hear again after it stops sending. -/
  turnaroundS : ℚ
  /-- How long the sender's Morse identifier lasts, 0 for none. -/
  identifierS : ℚ
  deriving DecidableEq

def capBandwidthShift : UInt8 := 1
def capBandwidthMask : UInt8 := 0x03 <<< capBandwidthShift
def capLevelShift : UInt8 := 3
def capLevelMask : UInt8 := 0x03 <<< capLevelShift

/-- 0 = 2 300 Hz, 1 = 500 Hz, 2 = 2 750 Hz. -/
def bandwidthCode (caps : UInt8) : UInt8 := (caps &&& capBandwidthMask) >>> capBandwidthShift

def bandwidthHzOf (caps : UInt8) : Option Nat :=
  if bandwidthCode caps = 0 then some 2300
  else if bandwidthCode caps = 1 then some 500
  else if bandwidthCode caps = 2 then some 2750
  else none

def bandwidthCodeOf (hz : Nat) : Option UInt8 :=
  if hz = 2300 then some 0 else if hz = 500 then some 1 else if hz = 2750 then some 2 else none

/-- A capability byte with the bandwidth its sender runs; the source panics without a code. -/
def withBandwidth (caps : UInt8) (hz : Nat) : UInt8 :=
  (caps &&& ~~~capBandwidthMask) ||| ((bandwidthCodeOf hz).getD 0 <<< capBandwidthShift)

/-- The largest count of frames to follow a data frame carries: three or more. -/
def maxFollows : Nat := 3
def connectBodyBytes : Nat := 2 * callBytes + 3
/-- With the turnaround and the identifier's length after the SNR. -/
def connectBody8Bytes : Nat := connectBodyBytes + 2
def grantedVersion : UInt8 := 8
def protocolVersion : UInt8 := 12
/-- `missed` of a sender that read no count for the transmission it answers. -/
def missedUnknown : UInt8 := 7

/-- A capability byte with the answer slot's gap level set. -/
def withLevel (caps level : UInt8) : UInt8 :=
  (caps &&& ~~~capLevelMask) ||| ((level &&& 0x03) <<< capLevelShift)

def levelOf (caps : UInt8) : UInt8 := (caps &&& capLevelMask) >>> capLevelShift

/-- `i8` as `u8`. -/
def signedByte (value : ℤ) : UInt8 := UInt8.ofNat (value % 256).toNat

/-- Signed whole decibels, clamped to ±40, ties to even. -/
def snrByte : Option ℚ → UInt8
  | none => snrUnknown
  | some value => signedByte (clampInt (-40) 40 (roundTiesEven value))

def snrFromByte (byte : UInt8) : Option ℚ :=
  if byte = snrUnknown then none
  else some (if byte < 128 then (byte.toNat : ℚ) else (byte.toNat : ℚ) - 256)

structure ProbeBody where
  src : Text
  dst : Text
  snrDb : Option ℚ
  caps : UInt8
  deriving DecidableEq

def probeBodyBytes : Nat := 2 * callBytes + 2

def ProbeBody.encode (body : ProbeBody) : Except FrameError Bytes := do
  let src ← packCallsign body.src
  let dst ← packCallsign body.dst
  return src ++ dst ++ [snrByte body.snrDb, body.caps]

def ProbeBody.decode (body : Bytes) : Except FrameError ProbeBody := do
  if body.length < probeBodyBytes then throw .tooShort
  let src ← unpackCallsign (body.take callBytes)
  let dst ← unpackCallsign ((body.drop callBytes).take callBytes)
  return ⟨src, dst, snrFromByte (body.getD (2 * callBytes) 0), body.getD (2 * callBytes + 1) 0⟩

/-- Whole steps up, less a hair: 0.25 s says 0.3, 0.2 says 0.2. -/
def stepsUp (x : ℚ) (most : ℤ) : UInt8 :=
  UInt8.ofNat (clampInt 0 most ⌈x - nano⌉).toNat

def ConnectBody.encode (body : ConnectBody) : Except FrameError Bytes := do
  let src ← packCallsign body.src
  let dst ← packCallsign body.dst
  let timing := if body.version ≥ grantedVersion
    then [stepsUp (body.turnaroundS * 10) 15, stepsUp (body.identifierS * 2) 255] else []
  return src ++ dst ++ [body.caps, body.version, snrByte body.snrDb] ++ timing

def ConnectBody.decode (body : Bytes) : Except FrameError ConnectBody := do
  if body.length < 2 * callBytes + 2 then throw .tooShort
  let version := body.getD (2 * callBytes + 1) 0
  let timed := version ≥ grantedVersion ∧ body.length ≥ connectBody8Bytes
  let src ← unpackCallsign (body.take callBytes)
  let dst ← unpackCallsign ((body.drop callBytes).take callBytes)
  return {
    src, dst, version
    caps := body.getD (2 * callBytes) 0
    snrDb := body[2 * callBytes + 2]?.bind snrFromByte
    turnaroundS := if timed then ((body.getD (2 * callBytes + 3) 0 &&& 0x0F).toNat : ℚ) / 10 else 0
    identifierS := if timed then ((body.getD (2 * callBytes + 4) 0).toNat : ℚ) / 2 else 0 }

/-! ### The CONTROL container -/

inductive GrantKind where
  /-- The master's: what it carries and acknowledges, and the slot it grants. -/
  | header
  /-- The slave's, in its slot. -/
  | answer
  /-- Either's: the session ends. -/
  | disc
  | discAck
  deriving DecidableEq, Repr

def GrantKind.toBits : GrantKind → UInt8
  | .header => 0 | .answer => 1 | .disc => 2 | .discAck => 3

def GrantKind.fromBits (bits : UInt8) : GrantKind :=
  if bits &&& 0x03 = 0 then .header
  else if bits &&& 0x03 = 1 then .answer
  else if bits &&& 0x03 = 2 then .disc
  else .discAck

def grantSnrUnknown : UInt8 := 0x20

/-- Bitmap bit 0: the bitmap reports the other station's last measurement. -/
def report : UInt16 := 0x0001

structure GrantFrame where
  kind : GrantKind
  session : UInt8
  /-- Data frames after it in its transmission. -/
  count : UInt8 := 0
  dataFloor : Bool := false
  /-- A header's slot's gap level; an answer's sender's need. -/
  level : UInt8 := 0
  fam : Bool := false
  /-- A header: the slot is an open window; an answer: its sender asks to leave. -/
  flag : Bool := false
  ident : Bool := false
  measure : Bool := false
  /-- Next sequence number the sender needs. -/
  base : UInt8 := 0
  bitmap : UInt16 := 0
  snrDb : Option ℚ := none
  slotFloor : Bool := false
  missed : UInt8 := 0
  /-- Frames granted (or an open window's size step), or frames queued. -/
  n : UInt8 := 0
  deriving DecidableEq

def bit (b : Bool) : UInt8 := if b then 1 else 0

namespace GrantFrame

def snrBits : Option ℚ → UInt8
  | none => grantSnrUnknown
  | some value => signedByte (clampInt (-31) 31 (roundTiesEven value)) &&& 0x3F

def encode (f : GrantFrame) : Bytes :=
  [(f.kind.toBits <<< 6) ||| (min f.count 7 <<< 3) ||| (bit f.dataFloor <<< 2) ||| (f.level &&& 0x03),
    ((f.session &&& 0x7F) <<< 1) ||| bit f.fam,
    (bit f.flag <<< 7) ||| (bit (f.ident || f.measure) <<< 6) ||| snrBits f.snrDb,
    f.base,
    ((f.bitmap >>> 8) &&& 0xFF).toUInt8,
    (f.bitmap &&& 0xFF).toUInt8,
    (bit f.slotFloor <<< 7) ||| (min f.missed missedUnknown <<< 4) ||| (min f.n 7 &&& 0x07)]

def snrOfBits (raw : UInt8) : Option ℚ :=
  if raw = grantSnrUnknown then none
  else some (if raw ≥ 32 then (raw.toNat : ℚ) - 64 else (raw.toNat : ℚ))

def decode (payload : Bytes) : Except FrameError GrantFrame :=
  match payload with
  | b0 :: b1 :: b2 :: b3 :: b4 :: b5 :: b6 :: _ =>
    let kind := GrantKind.fromBits (b0 >>> 6)
    let marked := b2 &&& 0x40 ≠ 0
    let closing := kind = .disc ∨ kind = .discAck
    .ok {
      kind
      count := (b0 >>> 3) &&& 0x07
      dataFloor := b0 &&& 0x04 ≠ 0
      level := b0 &&& 0x03
      session := b1 >>> 1
      fam := b1 &&& 0x01 ≠ 0
      flag := b2 &&& 0x80 ≠ 0
      ident := marked ∧ closing
      measure := marked ∧ ¬closing
      snrDb := snrOfBits (b2 &&& 0x3F)
      base := b3
      bitmap := (b4.toUInt16 <<< 8) ||| b5.toUInt16
      slotFloor := b6 &&& 0x80 ≠ 0
      missed := (b6 >>> 4) &&& 0x07
      n := b6 &&& 0x07 }
  | _ => .error .tooShort

end GrantFrame

/-- The sequence number `n` places after `seq`. -/
def seqAfter (seq n : UInt8) : UInt8 := seq + n

/-- Forward distance from `base` to `seq`, 0 … 255. -/
def seqDistance (seq base : UInt8) : Nat := (seq - base).toNat

def inWindow (seq base : UInt8) (width : Nat) : Bool := seqDistance seq base < width

namespace GrantFrame

/-- Whether the bitmap reports the other station's last measurement. -/
def reports (f : GrantFrame) : Bool := f.bitmap &&& report ≠ 0

/-- Has `seq` been received: below the base, or set in the bitmap? A report
acknowledges only what is below the base. -/
def received (f : GrantFrame) (seq : UInt8) : Bool :=
  let distance := seqDistance seq f.base
  if distance ≥ window then distance ≥ seqMod / 2
  else !f.reports && f.bitmap.toNat.testBit distance

/-- In a report: whether the measurement's frame `index` arrived. -/
def measured (f : GrantFrame) (index : Nat) : Bool :=
  f.reports && index < window - 1 && f.bitmap.toNat.testBit (index + 1)

end GrantFrame

end AetherHF.Link

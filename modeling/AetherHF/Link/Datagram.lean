import AetherHF.Link.Frames

/-! Datagrams: another program's frame, carried outside any session. One is split into
DATA frames of kind `datagram`, whose `seq` holds the fragment's index and the last one,
and whose `session` holds the datagram's number; a receiver joins the fragments by
number and last index. -/
namespace AetherHF.Link

namespace Datagram

/-- The index and the last index share one byte, four bits each. -/
def maxFragments : Nat := 16

/-- The explicit length a partial DATA frame carries after its header. -/
def partialLength : Nat := 2

/-- An AX.25 frame, one with eight-byte address fields, unformatted data. -/
def frameTypes : List UInt8 := [0, 1, 2]

/-- The sender's callsign and the type. -/
def headerBytes : Nat := callBytes + 1

inductive DatagramError where
  | empty
  | badNumber
  | noRoom
  | tooLong (max : Nat)
  | badType (frameType : UInt8)
  | badCallsign
  | frame (error : FrameError)
  deriving DecidableEq, Repr

/-- The longest datagram a rung whose frames carry `capacity` bytes can send. -/
def maxPayload (capacity : Nat) : Nat := maxFragments * (capacity - dataHeaderBytes)

/-- The last piece: two when it is exactly one byte too long to carry its length. -/
def splitLast (full : Nat) (rest : Bytes) : List Bytes :=
  if rest.length = full - 1 then [rest.take (full - partialLength), rest.drop (full - partialLength)] else [rest]

/-- The loop of `split` with `turns` left: `none` when they run out. -/
def splitFrom (full : Nat) : Nat → Bytes → Option (List Bytes)
  | 0, _ => none
  | turns + 1, rest =>
    if rest.length > full then (splitFrom full turns (rest.drop full)).map (rest.take full :: ·)
    else some (splitLast full rest)

/-- The pieces a payload goes as: full frames, then a last one short enough to carry
its length. -/
def split (payload : Bytes) (capacity : Nat) : Except DatagramError (List Bytes) :=
  let full := capacity - dataHeaderBytes
  if full ≤ partialLength then .error .noRoom
  else match splitFrom full (payload.length + 1) payload with
    | some pieces => .ok pieces
    | none => .error .noRoom

/-- A fragment's frame. -/
def fragmentFrame (number last : UInt8) (capacity : Nat) (piece : Bytes × Nat) : Except DatagramError Bytes :=
  match encodeData ⟨.datagram, (UInt8.ofNat piece.2 <<< 4) ||| last, number, none⟩ piece.1 capacity with
  | .ok frame => .ok frame
  | .error error => .error (.frame error)

/-- The DATA frames that carry `payload` as datagram `number`. -/
def fragments (payload : Bytes) (number : UInt8) (capacity : Nat) : Except DatagramError (List Bytes) := do
  if number = 0 then throw .badNumber
  if payload.isEmpty then throw .empty
  let pieces ← split payload capacity
  if pieces.length > maxFragments then throw (.tooLong (maxPayload capacity))
  pieces.zipIdx.mapM (fragmentFrame number (UInt8.ofNat (pieces.length - 1)) capacity)

/-- One decoded piece. -/
structure Fragment where
  number : UInt8
  index : UInt8
  last : UInt8
  body : Bytes
  deriving DecidableEq, Repr

/-- The fragment a decoded DATA frame carries, or `none` when it is not a datagram's. -/
def readFragment (payload : Bytes) : Option Fragment :=
  match decodeData payload with
  | .error _ => none
  | .ok (header, body) =>
    if header.kind ≠ .datagram ∨ header.session = 0 then none
    else if header.seq >>> 4 > header.seq &&& 0x0F then none
    else some ⟨header.session, header.seq >>> 4, header.seq &&& 0x0F, body⟩

/-- What a datagram carries: the sender's callsign, the frame's type, and the frame. -/
def body (source : Text) (frameType : UInt8) (frame : Bytes) : Except DatagramError Bytes :=
  if frameType ∉ frameTypes then .error (.badType frameType)
  else match packCallsign source with
    | .ok call => .ok (call ++ [frameType] ++ frame)
    | .error _ => .error .badCallsign

/-- The sender, the type and the frame a joined datagram carries. -/
def parseBody (payload : Bytes) : Option (Text × UInt8 × Bytes) :=
  if payload.length ≤ headerBytes ∨ payload.getD callBytes 0 ∉ frameTypes then none
  else match unpackCallsign (payload.take callBytes) with
    | .error _ => none
    | .ok source => if source.isEmpty then none else some (source, payload.getD callBytes 0, payload.drop headerBytes)

/-! ### Joining -/

/-- A datagram with pieces still to come. -/
structure Partial where
  last : UInt8
  pieces : List (Option Bytes)
  /-- When its first piece came. -/
  firstS : ℚ
  deriving DecidableEq

abbrev Key := UInt8 × UInt8

def Fragment.key (f : Fragment) : Key := (f.number, f.last)

structure Reassembler where
  timeoutS : ℚ
  keep : Nat
  waiting : List (Key × Partial) := []
  /-- Datagrams given up on. -/
  dropped : Nat := 0
  deriving DecidableEq

namespace Reassembler

/-- One that waits `timeoutS` for a datagram's pieces and holds at most `keep`. -/
def new (timeoutS : ℚ) (keep : Nat) : Reassembler := { timeoutS, keep := max keep 1 }

variable (r : Reassembler)

/-- Drop what has waited too long. -/
def expire (nowS : ℚ) : Reassembler :=
  let waiting := r.waiting.filter fun w => nowS - w.2.firstS ≤ r.timeoutS
  { r with waiting, dropped := r.dropped + (r.waiting.length - waiting.length) }

/-- The place of the one whose first piece came first; of several, the first. -/
def oldest : Nat := r.waiting.findIdx fun w => r.waiting.all fun v => w.2.firstS ≤ v.2.firstS

/-- The oldest goes when there is no room. -/
def makeRoom : Reassembler :=
  if r.waiting.length ≥ r.keep then
    { r with waiting := r.waiting.eraseIdx r.oldest, dropped := r.dropped + 1 }
  else r

/-- A datagram's first piece: a place for it and the others. -/
def begin (key : Key) (last : UInt8) (nowS : ℚ) : Reassembler :=
  { r.makeRoom with
    waiting := r.makeRoom.waiting ++ [(key, ⟨last, List.replicate (last.toNat + 1) none, nowS⟩)] }

/-- The place of a fragment's datagram, made if there is none. -/
def position (fragment : Fragment) (nowS : ℚ) : Nat × Reassembler :=
  match r.waiting.findIdx? fun w => w.1 = fragment.key with
  | some at_ => (at_, r)
  | none =>
    let r := r.begin fragment.key fragment.last nowS
    (r.waiting.length - 1, r)

/-- A piece seen twice counts once. -/
def place (index : UInt8) (body : Bytes) (p : Partial) : Partial :=
  { p with pieces := p.pieces.modify index.toNat fun slot => some (slot.getD body) }

def Partial.joined (p : Partial) : Option Bytes :=
  if p.pieces.any Option.isNone then none else some (p.pieces.filterMap id).flatten

/-- Take a piece; the whole datagram when this piece completes it. -/
def add (fragment : Fragment) (nowS : ℚ) : Option Bytes × Reassembler :=
  let (at_, r) := (r.expire nowS).position fragment nowS
  let waiting := r.waiting.modify at_ fun w => (w.1, place fragment.index fragment.body w.2)
  match (waiting[at_]?).bind fun w => Partial.joined w.2 with
  | none => (none, { r with waiting })
  | some whole => (some whole, { r with waiting := waiting.eraseIdx at_ })

end Reassembler

end Datagram

end AetherHF.Link

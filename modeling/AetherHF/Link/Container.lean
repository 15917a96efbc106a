import Mathlib.Data.Nat.Bitwise
import AetherHF.Link.Frames

/-! The DATA container carries a body there and back at every size it accepts, and
`pieces` cuts a body into frames that fit, follow each other and join to it. -/
namespace AetherHF.Link

/-! ### Words and the header byte -/

theorem fromBe_toNat (high low : UInt8) :
    (fromBe high low).toNat = high.toNat * 256 + low.toNat := by
  have highBound := high.toNat_lt
  have split := Nat.shiftLeft_add_eq_or_of_lt (i := 8) low.toNat_lt high.toNat
  have small : high.toNat <<< 8 % 2 ^ 16 = high.toNat <<< 8 := by
    rw [Nat.shiftLeft_eq]
    omega
  simp only [fromBe, UInt16.toNat_or, UInt16.toNat_shiftLeft, UInt8.toNat_toUInt16]
  rw [show ((8 : UInt16).toNat % 16) = 8 from rfl, small, ← split, Nat.shiftLeft_eq]

theorem fromBe_halves (word : UInt16) : fromBe (word >>> 8).toUInt8 word.toUInt8 = word := by
  have bound := word.toNat_lt
  apply UInt16.toNat_inj.mp
  rw [fromBe_toNat]
  simp only [UInt16.toNat_toUInt8, UInt16.toNat_shiftRight, Nat.shiftRight_eq_div_pow]
  rw [show ((8 : UInt16).toNat % 16) = 8 from rfl]
  omega

theorem pieceWord_toNat {piece : Piece} (placed : piece.offset ≤ fragmentMaxOffset) :
    (pieceWord piece).toNat = piece.offset.toNat * 16 + if piece.last then 8 else 0 := by
  have bound : piece.offset.toNat ≤ 4095 := placed
  have split := Nat.shiftLeft_add_eq_or_of_lt (i := 4) (b := if piece.last then 8 else 0)
    (by split <;> decide) piece.offset.toNat
  have small : piece.offset.toNat <<< 4 % 2 ^ 16 = piece.offset.toNat <<< 4 := by
    rw [Nat.shiftLeft_eq]
    omega
  have mark : (((if piece.last then 1 else 0) : UInt16) <<< 3).toNat =
      if piece.last then 8 else 0 := by
    cases piece.last <;> rfl
  rw [pieceWord, UInt16.toNat_or, mark, UInt16.toNat_shiftLeft,
    show ((4 : UInt16).toNat % 16) = 4 from rfl, small, ← split, Nat.shiftLeft_eq]

theorem pieceWord_offset {piece : Piece} (placed : piece.offset ≤ fragmentMaxOffset) :
    pieceWord piece >>> 4 = piece.offset := by
  apply UInt16.toNat_inj.mp
  rw [UInt16.toNat_shiftRight, pieceWord_toNat placed, show ((4 : UInt16).toNat % 16) = 4 from rfl,
    Nat.shiftRight_eq_div_pow]
  split <;> omega

theorem pieceWord_last {piece : Piece} (placed : piece.offset ≤ fragmentMaxOffset) :
    decide (pieceWord piece &&& 0x08 ≠ 0) = piece.last := by
  have word := pieceWord_toNat placed
  have power : (8 : UInt16).toNat = 2 ^ 3 := rfl
  simp only [ne_eq, ← UInt16.toNat_inj, UInt16.toNat_and, word, power, Nat.and_two_pow]
  cases piece.last <;> simp [Nat.testBit_eq_decide_div_mod_eq] <;> omega

/-- A container's first byte. -/
def headByte (kind : DataKind) (short fragment : Bool) : UInt8 :=
  (kind.toBits <<< 5) |||
    (((if short then flagPartial else 0) ||| (if fragment then flagFragment else 0)) &&& 0x1F)

theorem headByte_kind (kind : DataKind) (short fragment : Bool) :
    DataKind.fromBits (headByte kind short fragment >>> 5) = some kind := by
  cases kind <;> cases short <;> cases fragment <;> rfl

theorem headByte_short (kind : DataKind) (short fragment : Bool) :
    (headByte kind short fragment &&& 0x1F) &&& flagPartial ≠ 0 ↔ short = true := by
  cases kind <;> cases short <;> cases fragment <;> decide

theorem headByte_fragment (kind : DataKind) (short fragment : Bool) :
    (headByte kind short fragment &&& 0x1F) &&& flagFragment ≠ 0 ↔ fragment = true := by
  cases kind <;> cases short <;> cases fragment <;> decide

/-! ### What the encoder writes -/

/-- The body bytes of a container of `capacity` bytes. -/
def roomOf (header : DataHeader) (capacity : Nat) : Nat :=
  capacity - (dataHeaderBytes + headerExtra header.piece)

/-- The lengths a room carries: all but the one a byte short of full. -/
def Carries (room length : Nat) : Prop := length = room ∨ length + 2 ≤ room

/-- A piece the container can place. -/
def Placeable (piece : Option Piece) : Prop := ∀ p ∈ piece, p.offset ≤ fragmentMaxOffset

theorem pieceBytes_placeable {piece : Option Piece} (placed : Placeable piece) :
    pieceBytes piece = .ok ((piece.map fun p => beBytes (pieceWord p)).getD []) := by
  cases piece with
  | none => rfl
  | some p => exact if_neg (UInt16.not_lt.mpr (placed p rfl))

theorem lengthBytes_ok {length room : Nat} {bytes : Bytes} :
    lengthBytes length room = .ok bytes ↔
      (length < room ∧ length ≤ room - 2 ∧ length < 65536 ∧ bytes = beBytes (UInt16.ofNat length)) ∨
        (room ≤ length ∧ bytes = []) := by
  unfold lengthBytes
  split
  · split
    · simp only [reduceCtorEq, false_iff]
      omega
    · split
      · simp only [Except.ok.injEq]
        constructor
        · intro same
          exact .inl ⟨by omega, by omega, by omega, same.symm⟩
        · rintro (⟨_, _, _, same⟩ | ⟨_, _⟩)
          · exact same.symm
          · omega
      · simp only [reduceCtorEq, false_iff]
        omega
  · simp only [Except.ok.injEq]
    constructor
    · intro same
      exact .inr ⟨by omega, same.symm⟩
    · rintro (⟨_, _, _, _⟩ | ⟨_, same⟩)
      · omega
      · exact same.symm

theorem beBytes_length (word : UInt16) : (beBytes word).length = 2 := rfl

/-- The bytes before the body of a container whose length bytes are `length`. -/
def preamble (header : DataHeader) (short : Bool) (length : Bytes) : Bytes :=
  headByte header.kind short header.piece.isSome :: header.seq :: header.session ::
    ((header.piece.map fun p => beBytes (pieceWord p)).getD [] ++ length)

theorem preamble_length (header : DataHeader) (short : Bool) (length : Bytes) :
    (preamble header short length).length =
      dataHeaderBytes + headerExtra header.piece + length.length := by
  cases piece : header.piece with
  | none => simp [preamble, headerExtra, dataHeaderBytes, piece]; omega
  | some p => simp [preamble, headerExtra, dataHeaderBytes, fragmentHeaderBytes, beBytes, piece]; omega

/-- The encoder's output: a preamble, the body, and padding to the container's size. -/
theorem encodeData_ok {header : DataHeader} {body out : Bytes} {capacity : Nat}
    (placed : Placeable header.piece) :
    encodeData header body capacity = .ok out ↔
      ∃ length, lengthBytes body.length (roomOf header capacity) = .ok length ∧
        (preamble header (body.length < roomOf header capacity) length ++ body).length ≤ capacity ∧
        out = preamble header (body.length < roomOf header capacity) length ++ body ++
          List.replicate (capacity -
            (preamble header (body.length < roomOf header capacity) length ++ body).length) 0 := by
  simp only [encodeData, pieceBytes_placeable placed, bind, Except.bind, ← roomOf.eq_1]
  cases lengthBytes body.length (roomOf header capacity) with
  | error error => simp
  | ok length =>
    simp only [Except.ok.injEq, exists_eq_left', pure, Except.pure, throw, throwThe, MonadExceptOf.throw]
    have layout : [(header.kind.toBits <<< 5) ||| (((if body.length < roomOf header capacity
        then flagPartial else 0) ||| (if header.piece.isSome then flagFragment else 0)) &&& 0x1F),
        header.seq, header.session] ++ (header.piece.map fun p => beBytes (pieceWord p)).getD [] ++
        length ++ body = preamble header (body.length < roomOf header capacity) length ++ body := by
      simp [preamble, headByte]
    rw [layout]
    split
    · simp only [reduceCtorEq, false_iff]
      omega
    · simp only [Except.ok.injEq]
      constructor
      · intro same
        exact ⟨by omega, same.symm⟩
      · rintro ⟨_, same⟩
        exact same.symm

/-- A body the room carries encodes, to a container of its size and no less. -/
theorem encodeData_complete {header : DataHeader} {body : Bytes} {capacity : Nat}
    (placed : Placeable header.piece) (enough : dataHeaderBytes + headerExtra header.piece ≤ capacity)
    (short : body.length < 65536 ∨ body.length = roomOf header capacity)
    (carries : Carries (roomOf header capacity) body.length) :
    ∃ out, encodeData header body capacity = .ok out := by
  have room : roomOf header capacity + (dataHeaderBytes + headerExtra header.piece) = capacity :=
    Nat.sub_add_cancel enough
  simp only [encodeData_ok placed]
  rcases carries with full | shorter
  · refine ⟨_, [], lengthBytes_ok.mpr (.inr ⟨by omega, rfl⟩), ?_, rfl⟩
    simp only [List.length_append, preamble_length, List.length_nil]
    omega
  · refine ⟨_, _, lengthBytes_ok.mpr (.inl ⟨by omega, by omega, by omega, rfl⟩), ?_, rfl⟩
    simp only [List.length_append, preamble_length, beBytes_length]
    omega

/-- What encodes is a body the room carries. -/
theorem encodeData_carries {header : DataHeader} {body out : Bytes} {capacity : Nat}
    (placed : Placeable header.piece) (enough : dataHeaderBytes + headerExtra header.piece ≤ capacity)
    (encoded : encodeData header body capacity = .ok out) :
    Carries (roomOf header capacity) body.length ∧ out.length = capacity := by
  have room : roomOf header capacity + (dataHeaderBytes + headerExtra header.piece) = capacity :=
    Nat.sub_add_cancel enough
  obtain ⟨length, lengths, fits, rfl⟩ := (encodeData_ok placed).mp encoded
  constructor
  · rw [List.length_append, preamble_length] at fits
    rcases lengthBytes_ok.mp lengths with ⟨short, _, _, rfl⟩ | ⟨full, rfl⟩
    · rw [beBytes_length] at fits
      exact .inr (by omega)
    · rw [List.length_nil] at fits
      exact .inl (by omega)
  · rw [List.length_append, List.length_replicate]
    omega

/-! ### What the decoder reads -/

theorem decodePiece_preamble {header : DataHeader} (short : Bool) (rest : Bytes)
    (placed : Placeable header.piece) :
    decodePiece (headByte header.kind short header.piece.isSome &&& 0x1F)
      ((header.piece.map fun p => beBytes (pieceWord p)).getD [] ++ rest) = .ok (header.piece, rest) := by
  unfold decodePiece
  cases piece : header.piece with
  | none =>
    have whole := (headByte_fragment header.kind short false).not.mpr (by simp)
    simp only [Option.isSome_none]
    rw [if_neg whole]
    rfl
  | some p =>
    have fragment := (headByte_fragment header.kind short true).mpr rfl
    have inPlace := placed p piece
    simp only [Option.isSome_some, Option.map_some, Option.getD_some, beBytes]
    rw [if_pos fragment]
    simp only [List.cons_append, List.nil_append, fromBe_halves, pieceWord_offset inPlace,
      pieceWord_last inPlace]

theorem decodeBody_short {kind : DataKind} {fragment : Bool} {body : Bytes} (padding : Bytes)
    (small : body.length < 65536) :
    decodeBody (headByte kind true fragment &&& 0x1F)
      (beBytes (UInt16.ofNat body.length) ++ (body ++ padding)) = .ok body := by
  have short := (headByte_short kind true fragment).mpr rfl
  have length : (UInt16.ofNat body.length).toNat = body.length := UInt16.toNat_ofNat_of_lt' small
  unfold decodeBody
  rw [if_pos short]
  simp only [beBytes, List.cons_append, List.nil_append, fromBe_halves, length, List.length_append]
  rw [if_neg (by omega), List.take_left]

theorem decodeBody_full {kind : DataKind} {fragment : Bool} (body : Bytes) :
    decodeBody (headByte kind false fragment &&& 0x1F) body = .ok body := by
  unfold decodeBody
  exact if_neg ((headByte_short kind false fragment).not.mpr (by simp))

theorem decodeData_preamble {header : DataHeader} (short : Bool) (length body : Bytes)
    (placed : Placeable header.piece) :
    decodeData (preamble header short length ++ body) =
      (decodeBody (headByte header.kind short header.piece.isSome &&& 0x1F) (length ++ body)).map
        fun read => (header, read) := by
  simp only [preamble, List.cons_append, List.append_assoc, decodeData, headByte_kind,
    decodePiece_preamble short _ placed, bind, Except.bind, pure, Except.pure]
  cases decodeBody (headByte header.kind short header.piece.isSome &&& 0x1F) (length ++ body) with
  | error error => rfl
  | ok read => rfl

/-- The header and the body come back. -/
theorem decodeData_encodeData {header : DataHeader} {body out : Bytes} {capacity : Nat}
    (placed : Placeable header.piece) (enough : dataHeaderBytes + headerExtra header.piece ≤ capacity)
    (encoded : encodeData header body capacity = .ok out) : decodeData out = .ok (header, body) := by
  have room : roomOf header capacity + (dataHeaderBytes + headerExtra header.piece) = capacity :=
    Nat.sub_add_cancel enough
  obtain ⟨length, lengths, fits, rfl⟩ := (encodeData_ok placed).mp encoded
  rw [List.append_assoc, decodeData_preamble _ _ _ placed]
  rcases lengthBytes_ok.mp lengths with ⟨short, _, small, rfl⟩ | ⟨full, rfl⟩
  · simp only [short, decide_true, decodeBody_short _ small, Except.map]
  · have padding : capacity - (preamble header (body.length < roomOf header capacity) [] ++ body).length = 0 := by
      rw [List.length_append, preamble_length, List.length_nil] at fits ⊢
      omega
    have long : ¬body.length < roomOf header capacity := by omega
    rw [padding]
    simp only [long, decide_false, List.replicate_zero, List.append_nil, List.nil_append,
      decodeBody_full, Except.map]

theorem encodeData_placeable {header : DataHeader} {body out : Bytes} {capacity : Nat}
    (encoded : encodeData header body capacity = .ok out) : Placeable header.piece := by
  intro p here
  by_contra far
  have refused : pieceBytes header.piece = .error .outOfRange := by
    rw [here]
    exact if_pos (UInt16.not_le.mp far)
  simp only [encodeData, refused, bind, Except.bind] at encoded
  cases encoded

/-- Whatever the encoder gives, the decoder takes back. -/
theorem decodeData_of_encodeData {header : DataHeader} {body out : Bytes} {capacity : Nat}
    (encoded : encodeData header body capacity = .ok out) : decodeData out = .ok (header, body) := by
  have placed := encodeData_placeable encoded
  obtain ⟨length, _, fits, _⟩ := (encodeData_ok placed).mp encoded
  rw [List.length_append, preamble_length] at fits
  exact decodeData_encodeData placed (by omega) encoded

theorem decodePiece_suffix {flags : UInt8} {bytes rest : Bytes} {piece : Option Piece}
    (read : decodePiece flags bytes = .ok (piece, rest)) : rest <:+ bytes := by
  unfold decodePiece at read
  split at read
  · split at read
    · simp only [Except.ok.injEq, Prod.mk.injEq] at read
      rw [← read.2]
      exact ⟨[_, _], rfl⟩
    · cases read
  · cases read
    exact List.suffix_refl _

theorem decodeBody_inside {flags : UInt8} {bytes body : Bytes}
    (read : decodeBody flags bytes = .ok body) : body <:+: bytes := by
  unfold decodeBody at read
  split at read
  · split at read
    · rename_i high low rest
      simp only at read
      split at read
      · cases read
      · cases read
        have part := List.take_prefix (fromBe high low).toNat rest
        exact part.isInfix.trans ⟨[high, low], [], by simp⟩
    · cases read
  · cases read
    exact List.infix_refl _

/-- A body read lies inside the container it was read from. -/
theorem decodeData_inside {payload body : Bytes} {header : DataHeader}
    (read : decodeData payload = .ok (header, body)) : body <:+: payload := by
  unfold decodeData at read
  split at read
  · rename_i first seq session rest
    cases kind : DataKind.fromBits (first >>> 5) with
    | none => simp [kind, bind, Except.bind] at read
    | some kind =>
      simp only [kind, bind, Except.bind, pure, Except.pure] at read
      split at read
      · cases read
      · rename_i place placed
        split at read
        · cases read
        · rename_i found bodyRead
          simp only [Except.ok.injEq, Prod.mk.injEq] at read
          rw [← read.2]
          have inside := (decodeBody_inside bodyRead).trans (decodePiece_suffix placed).isInfix
          exact inside.trans ⟨[first, seq, session], [], by simp⟩
  · cases read

/-! ### A body in pieces -/

/-- Pieces one after another from `start` on, the last of them marked. -/
def Follow : Nat → List (Piece × Bytes) → Prop
  | _, [] => True
  | start, p :: rest =>
    p.1.offset.toNat = start ∧ (p.1.last = true ↔ rest = []) ∧ Follow (start + p.2.length) rest

/-- What `pieces` makes of a body: pieces that follow each other from its start, fit
a frame's room, and join to it. -/
structure SplitOf (room start : Nat) (body : Bytes) (parts : List (Piece × Bytes)) : Prop where
  follow : Follow start parts
  joined : (parts.map Prod.snd).flatten = body
  placeable : ∀ p ∈ parts, p.1.offset ≤ fragmentMaxOffset
  carried : ∀ p ∈ parts, Carries room p.2.length
  full : body ≠ [] → ∀ p ∈ parts, p.2 ≠ []
  single : body = [] → ∃ p, parts = [p]

/-- Where the last piece of a body starts: a last piece one byte short of full goes as
two, the second of one byte. -/
def lastPieceStart (room length : Nat) : Nat :=
  if length % room = room - 1 then length - 1 else length - 1 - (length - 1) % room

theorem pieceTake_eq (room rest : Nat) : pieceTake room rest =
    if min room rest = room - 1 ∧ min room rest = rest then min room rest - 1 else min room rest := rfl

theorem pieceTake_le (room rest : Nat) : pieceTake room rest ≤ rest := by
  rw [pieceTake_eq]
  split <;> omega

theorem pieceTake_pos {room rest : Nat} (least : 3 ≤ room) (some_ : 0 < rest) :
    0 < pieceTake room rest := by
  rw [pieceTake_eq]
  split <;> omega

theorem pieceTake_carries {room rest : Nat} (least : 3 ≤ room) : Carries room (pieceTake room rest) := by
  unfold Carries
  rw [pieceTake_eq]
  split <;> omega

/-- The last piece of what is left starts where the last piece of the whole does. -/
theorem lastPieceStart_step {room rest : Nat} (least : 3 ≤ room) (more : pieceTake room rest < rest) :
    lastPieceStart room rest =
      pieceTake room rest + lastPieceStart room (rest - pieceTake room rest) := by
  by_cases long : room < rest
  · have take : pieceTake room rest = room := by
      rw [pieceTake_eq]
      rw [if_neg (by omega)]
      omega
    obtain ⟨further, rfl⟩ := Nat.exists_eq_add_of_lt long
    have shift : room + further + 1 - room = further + 1 := by omega
    have remainder : (room + further + 1) % room = (further + 1) % room := by
      rw [add_assoc, Nat.add_mod_left]
    have remainder' : (room + further) % room = further % room := Nat.add_mod_left _ _
    have bound := Nat.mod_le further room
    simp only [take, lastPieceStart, shift, remainder, Nat.add_sub_cancel, remainder']
    split <;> omega
  · have short : rest = room - 1 := by
      rw [pieceTake_eq] at more
      split at more <;> omega
    have take : pieceTake room rest = room - 2 := by
      rw [pieceTake_eq]
      rw [if_pos (by omega)]
      omega
    have one : rest - (room - 2) = 1 := by omega
    have small : rest % room = rest := Nat.mod_eq_of_lt (by omega)
    have small' : 1 % room = 1 := Nat.mod_eq_of_lt (by omega)
    simp only [lastPieceStart, take, one, small, small']
    rw [if_pos short, if_neg (by omega)]
    simp only [Nat.sub_self, Nat.zero_mod]
    omega

theorem lastPieceStart_whole {room rest : Nat} (least : 3 ≤ room) (all : rest ≤ pieceTake room rest) :
    lastPieceStart room rest = 0 := by
  have bounds : rest ≤ room ∧ rest ≠ room - 1 := by
    rw [pieceTake_eq] at all
    split at all <;> omega
  unfold lastPieceStart
  rcases eq_or_lt_of_le bounds.1 with rfl | less
  · rw [if_neg (by rw [Nat.mod_self]; omega), Nat.mod_eq_of_lt (by omega)]
    omega
  · rw [if_neg (by rw [Nat.mod_eq_of_lt less]; exact bounds.2), Nat.mod_eq_of_lt (by omega)]
    omega

/-- The splitter's loop, at any point of it: enough turns are left, and it errs exactly
when a piece still to come starts too far. -/
theorem piecesFrom_spec {room : Nat} (least : 3 ≤ room) (fuel start : Nat) (rest : Bytes)
    (turns : rest.length < fuel) :
    (start + lastPieceStart room rest.length > 4095 ∧
        piecesFrom room fuel start rest = some (.error .outOfRange)) ∨
      (start + lastPieceStart room rest.length ≤ 4095 ∧
        ∃ parts, piecesFrom room fuel start rest = some (.ok parts) ∧
          SplitOf room start rest parts) := by
  induction fuel generalizing start rest with
  | zero => omega
  | succ fuel ih =>
    have limit : fragmentMaxOffset.toNat = 4095 := rfl
    have most := pieceTake_le room rest.length
    have carries : Carries room (rest.take (pieceTake room rest.length)).length := by
      rw [List.length_take, Nat.min_eq_left most]
      exact pieceTake_carries least
    simp only [piecesFrom, limit]
    by_cases far : start > 4095
    · exact .inl ⟨by omega, if_pos far⟩
    have offset : (UInt16.ofNat start).toNat = start := UInt16.toNat_ofNat_of_lt' (show start < 65536 by omega)
    have placeable : UInt16.ofNat start ≤ fragmentMaxOffset := by
      change (UInt16.ofNat start).toNat ≤ 4095
      omega
    rw [if_neg far]
    by_cases last : rest.length ≤ pieceTake room rest.length
    · have whole : pieceTake room rest.length = rest.length := by omega
      rw [if_pos last, lastPieceStart_whole least last]
      refine .inr ⟨by omega, _, rfl, ⟨?_, ?_, ?_, ?_, ?_, fun _ => ⟨_, rfl⟩⟩⟩
      · exact ⟨offset, by simp [whole], trivial⟩
      · simp [whole]
      · simpa using placeable
      · simpa using carries
      · intro some_
        simpa [whole] using some_
    · rw [if_neg last]
      have pos := pieceTake_pos least (show 0 < rest.length by omega)
      have dropped : (rest.drop (pieceTake room rest.length)).length =
          rest.length - pieceTake room rest.length := List.length_drop
      have step := lastPieceStart_step least (show pieceTake room rest.length < rest.length by omega)
      rcases ih (start + pieceTake room rest.length) (rest.drop (pieceTake room rest.length))
        (by omega) with ⟨further, failed⟩ | ⟨near, parts, done, split⟩
      · rw [dropped] at further
        exact .inl ⟨by omega, by rw [failed]; rfl⟩
      · rw [dropped] at near
        have more : parts ≠ [] := by
          rintro rfl
          have empty := split.joined
          rw [List.map_nil, List.flatten_nil] at empty
          rw [← empty, List.length_nil] at dropped
          omega
        refine .inr ⟨by omega, _, by rw [done]; rfl, ⟨?_, ?_, ?_, ?_, ?_, ?_⟩⟩
        · refine ⟨offset, ?_, ?_⟩
          · simp only [more, iff_false, decide_eq_true_eq]
            omega
          · rw [List.length_take, Nat.min_eq_left most]
            exact split.follow
        · rw [List.map_cons, List.flatten_cons, split.joined, List.take_append_drop]
        · exact List.forall_mem_cons.mpr ⟨placeable, split.placeable⟩
        · exact List.forall_mem_cons.mpr ⟨carries, split.carried⟩
        · intro some_
          refine List.forall_mem_cons.mpr ⟨?_, split.full ?_⟩
          · intro none_
            rw [← List.length_eq_zero_iff, List.length_take] at none_
            omega
          · intro none_
            rw [← List.length_eq_zero_iff] at none_
            omega
        · rintro rfl
          exact absurd pos (by simp [pieceTake_eq])

theorem pieces_eq {body : Bytes} {capacity : Nat} (least : 8 ≤ capacity) :
    pieces body capacity =
      (piecesFrom (capacity - 5) (body.length + 1) 0 body).getD (.error .badLength) :=
  if_neg (show ¬capacity - 5 < 3 by omega)

/-- A body is split, unless a piece of it would start past the largest offset. -/
theorem pieces_spec {body : Bytes} {capacity : Nat} (least : 8 ≤ capacity) :
    (lastPieceStart (capacity - 5) body.length > 4095 ∧ pieces body capacity = .error .outOfRange) ∨
      (lastPieceStart (capacity - 5) body.length ≤ 4095 ∧
        ∃ parts, pieces body capacity = .ok parts ∧ SplitOf (capacity - 5) 0 body parts) := by
  rw [pieces_eq least]
  rcases piecesFrom_spec (show 3 ≤ capacity - 5 by omega) (body.length + 1) 0 body (by omega) with
    ⟨far, failed⟩ | ⟨near, parts, done, split⟩
  · exact .inl ⟨by omega, by rw [failed]; rfl⟩
  · exact .inr ⟨by omega, parts, by rw [done]; rfl, split⟩

theorem pieces_least {body : Bytes} {capacity : Nat} {parts : List (Piece × Bytes)}
    (split : pieces body capacity = .ok parts) : 8 ≤ capacity := by
  by_contra small
  have short : capacity - (dataHeaderBytes + fragmentHeaderBytes) < 3 := by
    simp only [dataHeaderBytes, fragmentHeaderBytes]
    omega
  simp only [pieces, if_pos short] at split
  cases split

theorem pieces_splitOf {body : Bytes} {capacity : Nat} {parts : List (Piece × Bytes)}
    (split : pieces body capacity = .ok parts) : SplitOf (capacity - 5) 0 body parts := by
  rcases @pieces_spec body _ (pieces_least split) with ⟨_, failed⟩ | ⟨_, found, done, splits⟩
  · rw [failed] at split
    cases split
  · rw [done] at split
    cases split
    exact splits

/-! ### Control frames -/

theorem GrantKind.fromBits_toBits (kind : GrantKind) {low : UInt8} (small : low.toNat < 64) :
    fromBits (((kind.toBits <<< 6) ||| low) >>> 6) = kind := by
  have none_ : low >>> 6 = 0 := by
    apply UInt8.toNat_inj.mp
    rw [UInt8.toNat_shiftRight, show ((6 : UInt8).toNat % 8) = 6 from rfl, Nat.shiftRight_eq_div_pow]
    exact Nat.div_eq_of_lt small
  rw [UInt8.shiftRight_or, none_]
  cases kind <;> rfl

theorem GrantFrame.low_small (count level : UInt8) (dataFloor : Bool) :
    ((min count 7 <<< 3) ||| (bit dataFloor <<< 2) ||| (level &&& 0x03)).toNat < 64 := by
  have few : (min count 7).toNat ≤ 7 := by
    change (if count ≤ 7 then count else 7).toNat ≤ 7
    split
    · rename_i few
      exact UInt8.le_iff_toNat_le.mp few
    · exact le_rfl
  have flag : (bit dataFloor <<< 2).toNat < 64 := by cases dataFloor <;> decide
  have step : (level &&& 0x03).toNat < 64 := by
    rw [UInt8.toNat_and]
    exact Nat.lt_of_le_of_lt Nat.and_le_right (by decide)
  have counted : (min count 7 <<< 3).toNat < 64 := by
    rw [UInt8.toNat_shiftLeft, show ((3 : UInt8).toNat % 8) = 3 from rfl, Nat.shiftLeft_eq]
    omega
  rw [UInt8.toNat_or, UInt8.toNat_or]
  exact Nat.or_lt_two_pow (n := 6) (Nat.or_lt_two_pow (n := 6) counted flag) step

theorem bitmap_halves (bitmap : UInt16) :
    (((bitmap >>> 8) &&& 0xFF).toUInt8.toUInt16 <<< 8) ||| (bitmap &&& 0xFF).toUInt8.toUInt16 = bitmap := by
  have high : ((bitmap >>> 8) &&& 0xFF).toUInt8 = (bitmap >>> 8).toUInt8 := by
    apply UInt8.toNat_inj.mp
    simp only [UInt16.toNat_toUInt8, UInt16.toNat_and, show (0xFF : UInt16).toNat = 2 ^ 8 - 1 from rfl,
      Nat.and_two_pow_sub_one_eq_mod]
    omega
  have low : (bitmap &&& 0xFF).toUInt8 = bitmap.toUInt8 := by
    apply UInt8.toNat_inj.mp
    simp only [UInt16.toNat_toUInt8, UInt16.toNat_and, show (0xFF : UInt16).toNat = 2 ^ 8 - 1 from rfl,
      Nat.and_two_pow_sub_one_eq_mod]
    omega
  rw [high, low]
  exact fromBe_halves bitmap

/-- What a control frame says of the sender's reception survives the wire. -/
theorem GrantFrame.decode_encode (f : GrantFrame) :
    ∃ g, decode f.encode = .ok g ∧ g.kind = f.kind ∧ g.base = f.base ∧ g.bitmap = f.bitmap := by
  refine ⟨_, rfl, ?_, rfl, bitmap_halves f.bitmap⟩
  have small := low_small f.count f.level f.dataFloor
  have kind := GrantKind.fromBits_toBits f.kind small
  rwa [← UInt8.or_assoc, ← UInt8.or_assoc] at kind

end AetherHF.Link

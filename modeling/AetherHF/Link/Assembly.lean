import AetherHF.Link.Container
import AetherHF.Link.Granted.State

/-! A block put together from its pieces, in whatever order, however often and from
however many splits of it they come. -/
namespace AetherHF.Link

variable {α : Type*}

theorem getElem?_overwrite {dst xs : List α} {start : Nat} (room : start + xs.length ≤ dst.length)
    (i : Nat) :
    (overwrite dst start xs)[i]? =
      if start ≤ i ∧ i < start + xs.length then xs[i - start]? else dst[i]? := by
  have before : (dst.take start).length = start := by
    rw [List.length_take]
    omega
  unfold overwrite
  rw [List.append_assoc]
  by_cases early : i < start
  · rw [List.getElem?_append_left (by omega), if_neg (by omega), List.getElem?_take, if_pos early]
  · rw [List.getElem?_append_right (by omega), before]
    by_cases inside : i < start + xs.length
    · rw [List.getElem?_append_left (by omega), if_pos (by omega)]
    · rw [List.getElem?_append_right (by omega), if_neg (by omega), List.getElem?_drop]
      congr 1
      omega

theorem length_overwrite {dst xs : List α} {start : Nat} (room : start + xs.length ≤ dst.length) :
    (overwrite dst start xs).length = dst.length := by
  simp only [overwrite, List.length_append, List.length_take, List.length_drop]
  omega

theorem length_resize (xs : List α) (n : Nat) (fill : α) : (resize xs n fill).length = n := by
  simp only [resize, List.length_append, List.length_take, List.length_replicate]
  omega

/-- Growing a list keeps what it holds and fills the rest. -/
theorem getElem?_resize {xs : List α} {n : Nat} {fill : α} (grow : xs.length ≤ n) (i : Nat) :
    (resize xs n fill)[i]? = if i < xs.length then xs[i]? else if i < n then some fill else none := by
  unfold resize
  rw [List.take_of_length_le grow]
  by_cases held : i < xs.length
  · rw [List.getElem?_append_left held, if_pos held]
  · rw [List.getElem?_append_right (by omega), if_neg held, List.getElem?_replicate]
    by_cases inside : i < n
    · rw [if_pos (by omega), if_pos inside]
    · rw [if_neg (by omega), if_neg inside]

/-! ### Pieces of one body -/

/-- A piece of a body, from whatever split. -/
structure PieceOf (body : Bytes) (p : Piece × Bytes) : Prop where
  inside : p.1.offset.toNat + p.2.length ≤ body.length
  bytes : ∀ i, i < p.2.length → p.2[i]? = body[p.1.offset.toNat + i]?
  last : p.1.last = true ↔ p.1.offset.toNat + p.2.length = body.length

/-- Some piece heard carries the body's byte at `i`. -/
def Covered (heard : List (Piece × Bytes)) (i : Nat) : Prop :=
  ∃ p ∈ heard, p.1.offset.toNat ≤ i ∧ i < p.1.offset.toNat + p.2.length

/-- What is held of a body once the pieces `heard` of it are placed. -/
structure Assembled (body : Bytes) (heard : List (Piece × Bytes)) (p : Pieces) : Prop where
  length : p.have_.length = p.data.length
  inside : p.data.length ≤ body.length
  covered : ∀ i, p.have_[i]? = some true ↔ Covered heard i
  bytes : ∀ i, Covered heard i → p.data[i]? = body[i]?
  total : p.total = if heard.any fun x => x.1.last then some body.length else none

/-- Pieces that follow each other are pieces of what they join to. -/
theorem Follow.pieceOf (before : Bytes) {start : Nat} {parts : List (Piece × Bytes)}
    (follow : Follow start parts) (from_ : before.length = start)
    (full : ∀ p ∈ parts, p.2 ≠ [] ∨ parts = [p]) :
    ∀ p ∈ parts, PieceOf (before ++ (parts.map Prod.snd).flatten) p := by
  induction parts generalizing before start with
  | nil => simp
  | cons q rest ih =>
    obtain ⟨offset, last, follow⟩ := follow
    have full' : ∀ p ∈ rest, p.2 ≠ [] := by
      intro p member
      rcases full p (List.mem_cons_of_mem _ member) with some_ | only
      · exact some_
      · cases only
        cases member
    intro p member
    rcases List.mem_cons.mp member with rfl | later
    · constructor
      · simp only [List.map_cons, List.flatten_cons, List.length_append]
        omega
      · intro i low
        rw [List.getElem?_append_right (by omega), List.map_cons, List.flatten_cons,
          List.getElem?_append_left (by omega)]
        congr 1
        omega
      · rw [last]
        simp only [List.map_cons, List.flatten_cons, List.length_append]
        constructor
        · rintro rfl
          simp only [List.map_nil, List.flatten_nil, List.length_nil]
          omega
        · intro ends
          by_contra more
          obtain ⟨r, within⟩ := List.exists_mem_of_ne_nil rest more
          have nothing : ((rest.map Prod.snd).flatten).length = 0 := by omega
          rw [List.length_eq_zero_iff, List.flatten_eq_nil_iff] at nothing
          exact full' r within (nothing r.2 (List.mem_map_of_mem within))
    · have step := ih (before ++ q.2) follow (by rw [List.length_append]; omega)
        (fun r within => .inl (full' r within)) p later
      simpa using step

theorem SplitOf.pieceOf {room : Nat} {body : Bytes} {parts : List (Piece × Bytes)}
    (split : SplitOf room 0 body parts) : ∀ p ∈ parts, PieceOf body p := by
  have full : ∀ p ∈ parts, p.2 ≠ [] ∨ parts = [p] := by
    intro p member
    by_cases empty : body = []
    · obtain ⟨q, rfl⟩ := split.single empty
      rw [List.mem_singleton.mp member]
      exact .inr rfl
    · exact .inl (split.full empty p member)
  have all := split.follow.pieceOf [] rfl full
  rwa [split.joined] at all

theorem Assembled.empty (body : Bytes) : Assembled body [] {} where
  length := rfl
  inside := Nat.zero_le _
  covered i := by simp [Covered]
  bytes i hit := by simp [Covered] at hit
  total := rfl

theorem covered_snoc {heard : List (Piece × Bytes)} {p : Piece × Bytes} {i : Nat} :
    Covered (heard ++ [p]) i ↔
      (p.1.offset.toNat ≤ i ∧ i < p.1.offset.toNat + p.2.length) ∨ Covered heard i := by
  constructor
  · rintro ⟨q, member, inside⟩
    rcases List.mem_append.mp member with old | new
    · exact .inr ⟨q, old, inside⟩
    · rw [List.mem_singleton.mp new] at inside
      exact .inl inside
  · rintro (inside | ⟨q, member, inside⟩)
    · exact ⟨p, List.mem_append_right _ (List.mem_singleton_self _), inside⟩
    · exact ⟨q, List.mem_append_left _ member, inside⟩

/-- `Pieces::place` on a piece as `pieces` made it. -/
def Pieces.take (held : Pieces) (p : Piece × Bytes) : Pieces :=
  held.place p.1.offset.toNat p.2 p.1.last

/-- The buffer grown to hold a piece, nothing placed yet. -/
theorem Pieces.place_eq (held : Pieces) (offset : Nat) (piece : Bytes) (last : Bool)
    (same : held.have_.length = held.data.length) :
    ∃ (data : Bytes) (have_ : List Bool), held.place offset piece last =
        { data := overwrite data offset piece
          have_ := overwrite have_ offset (List.replicate piece.length true)
          total := if last then some (offset + piece.length) else held.total } ∧
      data.length = max held.data.length (offset + piece.length) ∧ have_.length = data.length ∧
      (∀ i : Nat, i < held.data.length → data[i]? = held.data[i]?) ∧
      (∀ i : Nat, have_[i]? = some true ↔ held.have_[i]? = some true) := by
  by_cases grow : held.data.length < offset + piece.length
  · refine ⟨resize held.data (offset + piece.length) 0, resize held.have_ (offset + piece.length) false,
      by simp [place, grow], ?_, ?_, ?_, ?_⟩
    · rw [length_resize]
      omega
    · rw [length_resize, length_resize]
    · intro i inside
      rw [getElem?_resize (by omega), if_pos inside]
    · intro i
      rw [getElem?_resize (by omega)]
      split
      · rfl
      · rename_i outside
        rw [List.getElem?_eq_none (by omega)]
        split <;> simp
  · refine ⟨held.data, held.have_, by simp [place, grow], ?_, same, fun _ _ => rfl, fun _ => Iff.rfl⟩
    omega

theorem Assembled.take {body : Bytes} {heard : List (Piece × Bytes)} {held : Pieces}
    {p : Piece × Bytes} (assembled : Assembled body heard held) (piece : PieceOf body p) :
    Assembled body (heard ++ [p]) (held.take p) := by
  obtain ⟨data, have_, placed, dataLength, haveLength, kept, marks⟩ :=
    held.place_eq p.1.offset.toNat p.2 p.1.last assembled.length
  have inside := piece.inside
  have heldInside := assembled.inside
  have roomData : p.1.offset.toNat + p.2.length ≤ data.length := by omega
  have roomHave : p.1.offset.toNat + (List.replicate p.2.length true).length ≤ have_.length := by
    rw [List.length_replicate]
    omega
  rw [Pieces.take, placed]
  constructor
  · rw [length_overwrite roomHave, length_overwrite roomData, haveLength]
  · rw [length_overwrite roomData]
    omega
  · intro i
    rw [getElem?_overwrite roomHave, covered_snoc, List.length_replicate]
    split
    · rename_i here
      have byte : i - p.1.offset.toNat < p.2.length := by omega
      simp [byte, here.1, here.2]
    · rename_i elsewhere
      rw [marks, assembled.covered]
      simp only [elsewhere, false_or]
  · intro i hit
    rw [getElem?_overwrite roomData]
    split
    · rename_i here
      rw [piece.bytes _ (by omega), Nat.add_sub_cancel' here.1]
    · rename_i elsewhere
      rw [covered_snoc] at hit
      have old := hit.resolve_left elsewhere
      have mark := (assembled.covered i).mpr old
      have held_ : i < held.data.length := by
        rw [← assembled.length]
        exact (List.getElem?_eq_some_iff.mp mark).1
      rw [kept i held_, assembled.bytes i old]
  · simp only [List.any_append, List.any_cons, List.any_nil, Bool.or_false, assembled.total]
    cases last : p.1.last with
    | true => simp [piece.last.mp last]
    | false => simp only [Bool.or_false, Bool.false_eq_true, if_false]

theorem Assembled.foldl {body : Bytes} {heard more : List (Piece × Bytes)} {held : Pieces}
    (assembled : Assembled body heard held) (pieces : ∀ p ∈ more, PieceOf body p) :
    Assembled body (heard ++ more) (more.foldl Pieces.take held) := by
  induction more generalizing heard held with
  | nil => simpa using assembled
  | cons p more ih =>
    have step := assembled.take (pieces p (List.mem_cons_self ..))
    have rest := ih step fun q member => pieces q (List.mem_cons_of_mem _ member)
    simpa using rest

/-- The body comes back once the pieces cover it, and never anything else. -/
theorem Assembled.body {body : Bytes} {heard : List (Piece × Bytes)} {held : Pieces}
    (assembled : Assembled body heard held) (pieces : ∀ p ∈ heard, PieceOf body p) :
    (heard ≠ [] ∧ (∀ i, i < body.length → Covered heard i) → held.body = some body) ∧
      (¬(heard ≠ [] ∧ ∀ i, i < body.length → Covered heard i) → held.body = none) := by
  have inside := assembled.inside
  have length := assembled.length
  constructor
  · rintro ⟨some_, all⟩
    have last : heard.any (fun x => x.1.last) = true := by
      by_cases empty : body.length = 0
      · obtain ⟨p, member⟩ := List.exists_mem_of_ne_nil heard some_
        refine List.any_eq_true.mpr ⟨p, member, (pieces p member).last.mpr ?_⟩
        have := (pieces p member).inside
        omega
      · obtain ⟨p, member, here⟩ := all (body.length - 1) (by omega)
        refine List.any_eq_true.mpr ⟨p, member, (pieces p member).last.mpr ?_⟩
        have := (pieces p member).inside
        omega
    have marked : ∀ i, i < body.length → held.have_[i]? = some true :=
      fun i low => (assembled.covered i).mpr (all i low)
    have full : held.data.length = body.length := by
      by_contra short
      have mark := marked held.data.length (by omega)
      rw [List.getElem?_eq_none (by omega)] at mark
      cases mark
    have same : held.data = body := by
      apply List.ext_getElem?
      intro i
      by_cases low : i < body.length
      · exact assembled.bytes i (all i low)
      · rw [List.getElem?_eq_none (by omega), List.getElem?_eq_none (by omega)]
    have every : held.have_.take body.length = List.replicate body.length true := by
      apply List.ext_getElem?
      intro i
      rw [List.getElem?_take, List.getElem?_replicate]
      split
      · rename_i low
        exact marked i low
      · rfl
    rw [Pieces.body, assembled.total, if_pos last]
    simp only [every, same, List.take_length]
    rw [if_pos ⟨by omega, by simp⟩]
  · intro missing
    rw [Pieces.body, assembled.total]
    split
    · rfl
    · rename_i total found
      split at found
      · rename_i last
        cases found
        rw [if_neg]
        rintro ⟨enough, every⟩
        apply missing
        constructor
        · rintro rfl
          simp at last
        · intro i low
          rw [← assembled.covered]
          have held_ : i < held.have_.length := by omega
          rw [List.getElem?_eq_getElem held_]
          have mark := List.all_eq_true.mp every held.have_[i]
            (List.mem_take_iff_getElem.mpr ⟨i, by omega, rfl⟩)
          simpa using mark
      · cases found

/-! ### The format there and back -/

theorem roomOf_piece (kind : DataKind) (seq session : UInt8) (piece : Piece) (capacity : Nat) :
    roomOf ⟨kind, seq, session, some piece⟩ capacity = capacity - 5 := rfl

theorem SplitOf.encodes {body : Bytes} {capacity : Nat} {parts : List (Piece × Bytes)}
    (split : SplitOf (capacity - 5) 0 body parts) (least : 8 ≤ capacity) (most : capacity ≤ 65542)
    (kind : DataKind) (seq session : UInt8) :
    ∀ p ∈ parts, ∃ out, encodeData ⟨kind, seq, session, some p.1⟩ p.2 capacity = .ok out := by
  intro p member
  have carries := split.carried p member
  have enough : dataHeaderBytes + headerExtra (some p.1) ≤ capacity := by
    simp only [headerExtra, dataHeaderBytes, fragmentHeaderBytes, Option.isSome_some, if_true]
    omega
  apply @encodeData_complete ⟨kind, seq, session, some p.1⟩
  · rintro q ⟨⟩
    exact split.placeable p member
  · exact enough
  · rw [roomOf_piece]
    unfold Carries at carries
    omega
  · rwa [roomOf_piece]

/-- A body two bytes short of a frame's room is one piece. -/
theorem pieces_one {body : Bytes} {capacity : Nat} (least : 8 ≤ capacity)
    (short : body.length + 7 ≤ capacity) : pieces body capacity = .ok [(⟨0, true⟩, body)] := by
  have whole : pieceTake (capacity - 5) body.length = body.length := by
    rw [pieceTake_eq, if_neg (by omega)]
    omega
  have near : ¬0 > fragmentMaxOffset.toNat := Nat.not_lt_zero _
  simp only [pieces_eq least, piecesFrom, whole, le_refl, near, if_true, if_false, decide_true,
    List.take_length]
  rfl

/-- Past a room of 65 537 bytes a piece may be too long for its length field. -/
theorem pieces_longUnencodable :
    pieces (List.replicate 65536 0) 70000 = .ok [(⟨0, true⟩, List.replicate 65536 0)] ∧
      ∀ out, encodeData ⟨.data, 0, 0, some ⟨0, true⟩⟩ (List.replicate 65536 0) 70000 ≠ .ok out := by
  constructor
  · exact pieces_one (by norm_num) (by rw [List.length_replicate]; norm_num)
  · intro out encoded
    have placed : Placeable (some ⟨0, true⟩) := by
      rintro p ⟨⟩
      decide
    obtain ⟨length, lengths, _⟩ := (encodeData_ok placed).mp encoded
    rw [roomOf_piece] at lengths
    have sizes := lengthBytes_ok.mp lengths
    rw [List.length_replicate] at sizes
    omega

/-- The DATA container and a block's pieces come back as they were sent. -/
theorem dataContainer_roundTrips :
    (∀ (header : DataHeader) (body : Bytes) (capacity : Nat), Placeable header.piece →
      dataHeaderBytes + headerExtra header.piece ≤ capacity → capacity ≤ 65535 →
      ((∃ out, encodeData header body capacity = .ok out) ↔
        Carries (roomOf header capacity) body.length) ∧
      ∀ out, encodeData header body capacity = .ok out →
        out.length = capacity ∧ decodeData out = .ok (header, body)) ∧
    (∀ payload header body, decodeData payload = .ok (header, body) → body <:+: payload) ∧
    (∀ (body : Bytes) (capacity : Nat), body ≠ [] → 8 ≤ capacity → capacity ≤ 65542 →
      piecesFrom (capacity - 5) (body.length + 1) 0 body ≠ none ∧
      ((∃ error, pieces body capacity = .error error) ↔
        lastPieceStart (capacity - 5) body.length > 4095) ∧
      ∀ parts, pieces body capacity = .ok parts →
        Follow 0 parts ∧ (parts.map Prod.snd).flatten = body ∧ (∀ p ∈ parts, p.2 ≠ []) ∧
        ∀ kind seq session, ∀ p ∈ parts,
          ∃ out, encodeData ⟨kind, seq, session, some p.1⟩ p.2 capacity = .ok out) ∧
    (∀ (body : Bytes) (capacity₁ capacity₂ : Nat) (parts₁ parts₂ heard : List (Piece × Bytes)),
      pieces body capacity₁ = .ok parts₁ → pieces body capacity₂ = .ok parts₂ →
      (∀ p ∈ heard, p ∈ parts₁ ∨ p ∈ parts₂) →
      (heard ≠ [] ∧ (∀ i, i < body.length → Covered heard i) →
        (heard.foldl Pieces.take {}).body = some body) ∧
      (¬(heard ≠ [] ∧ ∀ i, i < body.length → Covered heard i) →
        (heard.foldl Pieces.take {}).body = none)) := by
  refine ⟨?_, fun payload header body => decodeData_inside, ?_, ?_⟩
  · intro header body capacity placed enough most
    have room : roomOf header capacity + (dataHeaderBytes + headerExtra header.piece) = capacity :=
      Nat.sub_add_cancel enough
    refine ⟨⟨?_, ?_⟩, ?_⟩
    · rintro ⟨out, encoded⟩
      exact (encodeData_carries placed enough encoded).1
    · intro carries
      refine encodeData_complete placed enough ?_ carries
      unfold Carries at carries
      omega
    · intro out encoded
      exact ⟨(encodeData_carries placed enough encoded).2, decodeData_encodeData placed enough encoded⟩
  · intro body capacity some_ least most
    refine ⟨?_, ?_, ?_⟩
    · rcases piecesFrom_spec (show 3 ≤ capacity - 5 by omega) (body.length + 1) 0 body (by omega) with
        ⟨_, failed⟩ | ⟨_, parts, done, _⟩
      · rw [failed]
        exact Option.some_ne_none _
      · rw [done]
        exact Option.some_ne_none _
    · rcases @pieces_spec body _ least with ⟨far, failed⟩ | ⟨near, parts, done, _⟩
      · exact ⟨fun _ => far, fun _ => ⟨_, failed⟩⟩
      · refine ⟨?_, fun far => by omega⟩
        rintro ⟨error, failed⟩
        rw [done] at failed
        cases failed
    · intro parts done
      have split := pieces_splitOf done
      exact ⟨split.follow, split.joined, split.full some_, split.encodes least most⟩
  · intro body capacity₁ capacity₂ parts₁ parts₂ heard split₁ split₂ taken
    have pieces_ : ∀ p ∈ heard, PieceOf body p := by
      intro p member
      rcases taken p member with first | second
      · exact (pieces_splitOf split₁).pieceOf p first
      · exact (pieces_splitOf split₂).pieceOf p second
    have assembled := (Assembled.empty body).foldl pieces_
    rw [List.nil_append] at assembled
    exact assembled.body pieces_

/-- A nine-byte body in pieces of three, from frames of eight bytes. -/
theorem dataContainer_roundTrips_nineBytes :
    ([[1, 2, 3], [4, 5, 6], [7, 8, 9]] : List Bytes).flatten = [1, 2, 3, 4, 5, 6, 7, 8, 9] ∧
      (∃ out, encodeData ⟨.data, 7, 1, none⟩ [1, 2, 3] 10 = .ok out ∧ out.length = 10 ∧
        decodeData out = .ok (⟨.data, 7, 1, none⟩, [1, 2, 3])) := by
  obtain ⟨container, _, split, _⟩ := dataContainer_roundTrips
  have parts : pieces [1, 2, 3, 4, 5, 6, 7, 8, 9] 8 =
      .ok [(⟨0, false⟩, [1, 2, 3]), (⟨3, false⟩, [4, 5, 6]), (⟨6, true⟩, [7, 8, 9])] := by decide
  have sent := container ⟨.data, 7, 1, none⟩ [1, 2, 3] 10 (by rintro p ⟨⟩) (by decide) (by decide)
  obtain ⟨out, encoded⟩ := sent.1.mpr (by unfold Carries; decide)
  exact ⟨((split _ 8 (by decide) (by decide) (by decide)).2.2 _ parts).2.1, out, encoded, sent.2 out encoded⟩

end AetherHF.Link

import AetherHF.Link.Reassembly

/-! How long a payload a rung's frames carry: as long as sixteen of them are, but for the one
length whose last piece has to be parted, and last pieces longer than a length field tells. -/
namespace AetherHF.Link.Datagram

/-- The last piece of a payload, before it is parted. -/
def lastLength (full length : Nat) : Nat := (length - 1) % full + 1

/-- A body a frame takes: a full one, or one short enough to carry its length. -/
def Fits (full length : Nat) : Prop := length = full ∨ length + partialLength ≤ full ∧ length < 65536

/-- A payload goes in sixteen frames that each take their piece. -/
def Goes (capacity length : Nat) : Prop :=
  length + 1 ≠ maxPayload capacity ∧
    (lastLength (capacity - dataHeaderBytes) length = capacity - dataHeaderBytes ∨
      lastLength (capacity - dataHeaderBytes) length < 65536 ∨
      lastLength (capacity - dataHeaderBytes) length = 65536 ∧ capacity - dataHeaderBytes = 65537)

instance (capacity length : Nat) : Decidable (Goes capacity length) :=
  inferInstanceAs (Decidable (_ ∧ _))

/-- What is promised of a payload: it goes when it is not empty and not too long, and is refused
as too long only when it is. -/
structure Promised (payload : Bytes) (number : UInt8) (capacity : Nat) : Prop where
  goes : (∃ frames, fragments payload number capacity = .ok frames) ↔
    payload ≠ [] ∧ payload.length ≤ maxPayload capacity
  tooLong : ∀ max, fragments payload number capacity = .error (.tooLong max) → max < payload.length

/-! ### The pieces -/

theorem encodeData_fits {header : DataHeader} (whole : header.piece = none) {body : Bytes} {capacity : Nat}
    (room : dataHeaderBytes + partialLength ≤ capacity) :
    (∃ out, encodeData header body capacity = .ok out) ↔ Fits (capacity - dataHeaderBytes) body.length := by
  have placed : Placeable header.piece := by simp [Placeable, whole]
  have roomIs : roomOf header capacity = capacity - dataHeaderBytes := by simp [roomOf, whole, headerExtra]
  simp only [encodeData_ok placed, roomIs, lengthBytes_ok, List.length_append, preamble_length, whole, headerExtra, Fits,
    dataHeaderBytes, partialLength] at room ⊢
  constructor
  · rintro ⟨out, length, ⟨short, fits, small, rfl⟩ | ⟨full, rfl⟩, within, -⟩
    · exact .inr ⟨by omega, small⟩
    · simp only [Option.isSome_none, Bool.false_eq_true, if_false, List.length_nil] at within
      exact .inl (by omega)
  · rintro (full | ⟨short, small⟩)
    · refine ⟨_, [], .inr ⟨full.ge, rfl⟩, ?_, rfl⟩
      simp
      omega
    · refine ⟨_, beBytes (UInt16.ofNat body.length), .inl ⟨by omega, by omega, small, rfl⟩, ?_, rfl⟩
      simp [beBytes]
      omega

/-- The lengths of the pieces of `m + 1` bytes. -/
def lengths (full m : Nat) : List Nat :=
  List.replicate (m / full) full ++
    (if m % full + 1 = full - 1 then [full - partialLength, full - 1 - (full - partialLength)] else [m % full + 1])

/-- The lengths of the pieces: full ones, and the last, parted when it is one byte short. -/
theorem splitFrom_lengths {full : Nat} (some_ : 0 < full) (turns : Nat) (rest : Bytes) {m : Nat}
    (length : rest.length = m + 1) (enough : rest.length < turns) :
    ∃ pieces, splitFrom full turns rest = some pieces ∧ pieces.map List.length = lengths full m := by
  induction turns generalizing rest m with
  | zero => omega
  | succ turns ih =>
    unfold splitFrom
    by_cases more : rest.length > full
    · obtain ⟨k, rfl⟩ : ∃ k, m = k + full := ⟨m - full, by omega⟩
      obtain ⟨pieces, cut, cutLengths⟩ := ih (rest.drop full) (m := k) (by rw [List.length_drop]; omega)
        (by rw [List.length_drop]; omega)
      refine ⟨rest.take full :: pieces, ?_, ?_⟩
      · rw [if_pos more, cut]
        rfl
      · rw [List.map_cons, cutLengths, List.length_take, min_eq_left (by omega), lengths, lengths, Nat.add_div_right _ some_,
          Nat.add_mod_right, List.replicate_succ, List.cons_append]
    · refine ⟨splitLast full rest, if_neg more, ?_⟩
      have none_ : m / full = 0 := Nat.div_eq_of_lt (by omega)
      have last : m % full = m := Nat.mod_eq_of_lt (by omega)
      rw [lengths, none_, last, splitLast, length]
      split
      · rename_i short
        simp only [List.map_cons, List.map_nil, List.length_take, List.length_drop, length, short,
          List.replicate_zero, List.nil_append]
        rw [min_eq_left (by rw [partialLength]; omega)]
      · simp [length]

theorem split_lengths {payload : Bytes} {capacity m : Nat} (wide : 5 < capacity) (length : payload.length = m + 1) :
    ∃ pieces, split payload capacity = .ok pieces ∧ pieces.map List.length = lengths (capacity - dataHeaderBytes) m := by
  have roomy : 2 < capacity - dataHeaderBytes := by
    rw [dataHeaderBytes]
    omega
  obtain ⟨pieces, cut, is⟩ := splitFrom_lengths (by omega : 0 < capacity - dataHeaderBytes) (payload.length + 1) payload
    length (Nat.lt_succ_self _)
  refine ⟨pieces, ?_, is⟩
  simp only [split, cut]
  exact if_neg (by rw [partialLength]; omega)

/-! ### The frames -/

theorem mapM_exists {α β ε : Type*} {f : α → Except ε β} {xs : List α} :
    (∃ ys, xs.mapM f = .ok ys) ↔ ∀ x ∈ xs, ∃ y, f x = .ok y := by
  constructor
  · rintro ⟨ys, all⟩ x among
    obtain ⟨y, -, is⟩ := forall₂_mem (mapM_ok all) among
    exact ⟨y, is⟩
  · intro each
    induction xs with
    | nil => exact ⟨[], rfl⟩
    | cons x rest ih =>
      obtain ⟨⟨y, first⟩, later⟩ := List.forall_mem_cons.mp each
      obtain ⟨ys, all⟩ := ih later
      exact ⟨y :: ys, by rw [List.mapM_cons, first, all]; rfl⟩

theorem mapM_error {α β ε : Type*} {f : α → Except ε β} {xs : List α} {error : ε} (fails : xs.mapM f = .error error) :
    ∃ x ∈ xs, f x = .error error := by
  induction xs with
  | nil => cases fails
  | cons x rest ih =>
    rw [List.mapM_cons] at fails
    cases first : f x with
    | error other =>
      rw [first] at fails
      cases fails
      exact ⟨x, List.mem_cons_self, first⟩
    | ok y =>
      cases later : rest.mapM f with
      | error other =>
        rw [first, later] at fails
        cases fails
        obtain ⟨z, among, is⟩ := ih later
        exact ⟨z, List.mem_cons_of_mem x among, is⟩
      | ok more =>
        rw [first, later] at fails
        cases fails

theorem fragments_split {payload : Bytes} {number : UInt8} {capacity : Nat} {pieces : List Bytes} (numbered : number ≠ 0)
    (some_ : payload ≠ []) (cut : split payload capacity = .ok pieces) :
    fragments payload number capacity = if pieces.length > maxFragments then .error (.tooLong (maxPayload capacity))
      else pieces.zipIdx.mapM (fragmentFrame number (UInt8.ofNat (pieces.length - 1)) capacity) := by
  unfold fragments
  rw [if_neg numbered, if_neg (by simpa using some_), cut]
  simp only [bind, Except.bind]
  split <;> rfl

/-- A fragment's frame, and whatever else goes wrong with it, is none too long. -/
theorem fragmentFrame_fits {number last : UInt8} {capacity : Nat} (wide : 5 < capacity) (piece : Bytes × Nat) :
    ((∃ frame, fragmentFrame number last capacity piece = .ok frame) ↔
        Fits (capacity - dataHeaderBytes) piece.1.length) ∧
      ∀ max, fragmentFrame number last capacity piece ≠ .error (.tooLong max) := by
  have room : dataHeaderBytes + partialLength ≤ capacity := by
    rw [dataHeaderBytes, partialLength]
    omega
  have fits : (∃ out, encodeData ⟨.datagram, (UInt8.ofNat piece.2 <<< 4) ||| last, number, none⟩ piece.1 capacity = .ok out) ↔
      Fits (capacity - dataHeaderBytes) piece.1.length := encodeData_fits rfl room
  unfold fragmentFrame
  cases encoded : encodeData ⟨.datagram, (UInt8.ofNat piece.2 <<< 4) ||| last, number, none⟩ piece.1 capacity with
  | error error =>
    rw [encoded] at fits
    simpa using fits
  | ok frame =>
    rw [encoded] at fits
    simpa using fits

/-- A payload goes where its pieces are few enough and each fits its frame, and only too many
are too long. -/
theorem fragments_lengths {payload : Bytes} {number : UInt8} {capacity m : Nat} (wide : 5 < capacity)
    (numbered : number ≠ 0) (length : payload.length = m + 1) :
    ((∃ frames, fragments payload number capacity = .ok frames) ↔
        (lengths (capacity - dataHeaderBytes) m).length ≤ maxFragments ∧
          ∀ length ∈ lengths (capacity - dataHeaderBytes) m, Fits (capacity - dataHeaderBytes) length) ∧
      ∀ max, fragments payload number capacity = .error (.tooLong max) ↔
        maxFragments < (lengths (capacity - dataHeaderBytes) m).length ∧ max = maxPayload capacity := by
  have some_ : payload ≠ [] := List.ne_nil_of_length_eq_add_one length
  obtain ⟨pieces, cut, is⟩ := split_lengths wide length
  have count : pieces.length = (lengths (capacity - dataHeaderBytes) m).length := by rw [← is, List.length_map]
  rw [fragments_split numbered some_ cut, ← count]
  by_cases many : pieces.length > maxFragments
  · rw [if_pos many]
    refine ⟨iff_of_false (fun ⟨frames, ok⟩ => by cases ok) fun few => by omega, fun max => ?_⟩
    simp [many, eq_comm]
  · rw [if_neg many]
    refine ⟨?_, fun max => iff_of_false (fun fails => ?_) fun too => many too.1⟩
    · rw [mapM_exists, ← is]
      constructor
      · refine fun each => ⟨Nat.le_of_not_lt many, fun length among => ?_⟩
        obtain ⟨piece, member, rfl⟩ := List.mem_map.mp among
        obtain ⟨i, inside, rfl⟩ := List.getElem_of_mem member
        exact (fragmentFrame_fits wide (pieces[i], i)).1.mp (each _ (List.mem_zipIdx_iff_getElem?.mpr (by simp)))
      · rintro ⟨-, each⟩ piece among
        exact (fragmentFrame_fits wide piece).1.mpr (each _ (List.mem_map_of_mem (List.fst_mem_of_mem_zipIdx among)))
    · obtain ⟨piece, -, fails⟩ := mapM_error fails
      exact (fragmentFrame_fits wide piece).2 max fails

/-- How many pieces there are, and whether each fits, from the length alone. -/
theorem lengths_go {full m : Nat} (roomy : 2 < full) :
    ((lengths full m).length ≤ maxFragments ↔ m < maxFragments * full ∧ m + 2 ≠ maxFragments * full) ∧
      ((∀ length ∈ lengths full m, Fits full length) ↔
        lastLength full (m + 1) = full ∨ lastLength full (m + 1) < 65536 ∨
          lastLength full (m + 1) = 65536 ∧ full = 65537) := by
  have parts := Nat.div_add_mod m full
  have least : m % full < full := Nat.mod_lt _ (by omega)
  have last : lastLength full (m + 1) = m % full + 1 := rfl
  rw [last, lengths, maxFragments]
  generalize m / full = n at *
  have below : m < 16 * full ↔ n < 16 := by
    constructor
    · intro short
      by_contra many
      have := Nat.mul_le_mul_left full (Nat.le_of_not_lt many)
      omega
    · intro few
      have := Nat.mul_le_mul_left full (Nat.le_of_lt_succ few)
      omega
  rw [below]
  split
  · rename_i short
    have fifteen : m + 2 = 16 * full ↔ n = 15 := by
      have even : m + 2 = full * (n + 1) := by
        rw [Nat.mul_add]
        omega
      rw [even, Nat.mul_comm 16, Nat.mul_left_cancel_iff (by omega)]
      omega
    refine ⟨?_, ?_⟩
    · rw [Ne, fifteen]
      simp
      omega
    · simp only [List.mem_append, List.mem_replicate, List.mem_cons, List.not_mem_nil, or_false, Fits, partialLength]
      constructor
      · intro each
        rcases each (full - 2) (by simp) with whole | ⟨-, small⟩ <;> omega
      · rintro fits length (⟨-, rfl⟩ | rfl | rfl) <;> omega
  · rename_i whole
    have other : n < 16 → m + 2 ≠ 16 * full := by
      intro few same
      obtain ⟨k, sixteen⟩ : ∃ k, 16 = n + (k + 1) := ⟨15 - n, by omega⟩
      rw [sixteen, Nat.mul_comm, Nat.mul_add] at same
      rcases k with - | k
      · omega
      · have := Nat.mul_le_mul_left full (show 2 ≤ k + 1 + 1 by omega)
        omega
    have count : (List.replicate n full ++ [m % full + 1]).length = n + 1 := by simp
    rw [count]
    refine ⟨⟨fun few => ⟨by omega, other (by omega)⟩, fun both => by omega⟩, ?_⟩
    · simp only [List.mem_append, List.mem_replicate, List.mem_singleton, Fits, partialLength]
      constructor
      · intro each
        rcases each (m % full + 1) (.inr rfl) with whole | ⟨-, small⟩ <;> omega
      · rintro fits length (⟨-, rfl⟩ | rfl) <;> omega

/-- What the length limit promises holds of every payload but one a byte short of the limit, and
one whose last piece is too long for a length field. -/
theorem promised_iff {capacity : Nat} (wide : 5 < capacity) {number : UInt8} (numbered : number ≠ 0) (payload : Bytes) :
    Promised payload number capacity ↔
      payload = [] ∨ maxPayload capacity < payload.length ∨ Goes capacity payload.length := by
  cases is : payload with
  | nil =>
    refine iff_of_true ⟨iff_of_false ?_ fun both => both.1 rfl, fun max fails => ?_⟩ (.inl rfl)
    · rintro ⟨frames, ok⟩
      simp [fragments, numbered] at ok
      cases ok
    · simp [fragments, numbered] at fails
      cases fails
  | cons byte rest =>
    rw [← is]
    have some_ : payload ≠ [] := is ▸ List.cons_ne_nil byte rest
    have length : payload.length = rest.length + 1 := is ▸ List.length_cons
    generalize rest.length = m at length
    have roomy : 2 < capacity - dataHeaderBytes := by
      rw [dataHeaderBytes]
      omega
    obtain ⟨goes, tooLong⟩ := fragments_lengths wide numbered length
    obtain ⟨few, fit⟩ := lengths_go (m := m) roomy
    have limit : maxPayload capacity = maxFragments * (capacity - dataHeaderBytes) := rfl
    rw [few, fit] at goes
    rw [Goes, length, limit]
    generalize maxFragments * (capacity - dataHeaderBytes) = most at *
    constructor
    · rintro ⟨promised, long⟩
      refine .inr (or_iff_not_imp_left.mpr fun short => ?_)
      rw [promised, length] at goes
      obtain ⟨⟨-, other⟩, fits⟩ := goes.mp ⟨some_, by omega⟩
      exact ⟨by omega, fits⟩
    · rintro (none_ | long | ⟨other, fits⟩)
      · exact absurd none_ some_
      · refine ⟨iff_of_false (fun ok => ?_) fun both => by omega, fun max fails => ?_⟩
        · have := (goes.mp ok).1.1
          omega
        · rw [((tooLong max).mp fails).2, limit, length]
          exact long
      · refine ⟨goes.trans ⟨fun both => ⟨some_, by omega⟩, fun both => ⟨⟨by omega, by omega⟩, fits⟩⟩, fun max fails => ?_⟩
        obtain ⟨many, is⟩ := (tooLong max).mp fails
        have over_ := (not_congr few).mp (Nat.not_le_of_lt many)
        rw [is, limit, length]
        omega

theorem promised_long : Promised (List.replicate 336 0) 1 24 :=
  (promised_iff (by decide) (by decide) _).mpr (.inr (.inr (by rw [List.length_replicate]; decide)))

/-- A byte short of the limit: sixteen pieces and one more, too long for 336 bytes at 335. -/
theorem promised_short : (List.replicate 335 (0 : UInt8)).length ≤ maxPayload 24 ∧
    fragments (List.replicate 335 0) 1 24 = .error (.tooLong 336) ∧ ¬Promised (List.replicate 335 0) 1 24 := by
  have refused : fragments (List.replicate 335 0) 1 24 = .error (.tooLong 336) := by decide +kernel
  refine ⟨by rw [List.length_replicate]; decide, refused, fun promised => ?_⟩
  have longer := promised.tooLong 336 refused
  rw [List.length_replicate] at longer
  omega

end AetherHF.Link.Datagram

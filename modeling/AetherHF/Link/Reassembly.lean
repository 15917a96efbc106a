import Mathlib.Data.Finset.Card
import Mathlib.Data.List.MinMax
import AetherHF.Base.Lists
import AetherHF.Link.Container
import AetherHF.Link.Control
import AetherHF.Link.Datagram

/-! A datagram's way through a reassembler: what its frames read back as, what one call
does to the waiting set, and what a run of calls leaves of a datagram's own place. -/
namespace AetherHF.Link.Datagram

/-! ### The pieces -/

theorem flatten_splitLast (full : Nat) (rest : Bytes) : (splitLast full rest).flatten = rest := by
  unfold splitLast
  split <;> simp

theorem splitLast_ne_nil (full : Nat) (rest : Bytes) : splitLast full rest ≠ [] := by
  unfold splitLast
  split <;> simp

/-- The loop ends within as many turns as the payload has bytes, and its pieces are the payload. -/
theorem splitFrom_some {full : Nat} (turns : Nat) (rest : Bytes) (room : 0 < full) (enough : rest.length < turns) :
    ∃ pieces, splitFrom full turns rest = some pieces ∧ pieces ≠ [] ∧ pieces.flatten = rest := by
  induction turns generalizing rest with
  | zero => omega
  | succ turns ih =>
    unfold splitFrom
    by_cases more : rest.length > full
    · obtain ⟨pieces, cut, _, whole⟩ := ih (rest.drop full) (by rw [List.length_drop]; omega)
      refine ⟨rest.take full :: pieces, ?_, by simp, ?_⟩
      · rw [if_pos more, cut]
        rfl
      · rw [List.flatten_cons, whole, List.take_append_drop]
    · exact ⟨splitLast full rest, if_neg more, splitLast_ne_nil full rest, flatten_splitLast full rest⟩

theorem split_ok {payload : Bytes} {capacity : Nat} {pieces : List Bytes}
    (cut : split payload capacity = .ok pieces) : pieces ≠ [] ∧ pieces.flatten = payload := by
  unfold split at cut
  simp only at cut
  split at cut
  · cases cut
  · rename_i room
    obtain ⟨parts, run, some_, whole⟩ := splitFrom_some (payload.length + 1) payload (Nat.lt_of_not_le fun none_ => room
      (none_.trans (Nat.zero_le _))) (Nat.lt_succ_self _)
    rw [run] at cut
    obtain rfl : parts = pieces := Except.ok.inj cut
    exact ⟨some_, whole⟩

/-- A fragment's place in its datagram. -/
def fragmentsOf (number : UInt8) (pieces : List Bytes) : List Fragment :=
  pieces.zipIdx.map fun p => ⟨number, UInt8.ofNat p.2, UInt8.ofNat (pieces.length - 1), p.1⟩

theorem seqByte (index : UInt8) (small : index.toNat < 16) (last : UInt8) (small' : last.toNat < 16) :
    ((index <<< 4) ||| last) >>> 4 = index ∧ ((index <<< 4) ||| last) &&& 0x0F = last := by
  revert small' last small index
  refine byte_lt_cases fun index => ?_
  refine byte_lt_cases fun last => ?_
  revert index last
  decide

theorem encodeData_length {header : DataHeader} {body out : Bytes} {capacity : Nat}
    (encoded : encodeData header body capacity = .ok out) : out.length = capacity := by
  obtain ⟨length, _, fits, rfl⟩ := (encodeData_ok (encodeData_placeable encoded)).mp encoded
  rw [List.length_append, List.length_replicate]
  omega

/-- A fragment's frame is full, and reads back as the fragment. -/
theorem readFragment_fragmentFrame {number last : UInt8} {capacity index : Nat} {piece frame : Bytes}
    (numbered : number ≠ 0) (within : index ≤ last.toNat) (few : last.toNat < 16)
    (made : fragmentFrame number last capacity (piece, index) = .ok frame) :
    frame.length = capacity ∧ readFragment frame = some ⟨number, UInt8.ofNat index, last, piece⟩ := by
  unfold fragmentFrame at made
  split at made
  · rename_i out encoded
    obtain rfl : out = frame := Except.ok.inj made
    have index_ : (UInt8.ofNat index).toNat = index := by
      rw [UInt8.toNat_ofNat']
      omega
    obtain ⟨high, low⟩ := seqByte (UInt8.ofNat index) (by omega) last few
    refine ⟨encodeData_length encoded, ?_⟩
    have order : ¬UInt8.ofNat index > last := by
      rw [gt_iff_lt, UInt8.lt_iff_toNat_lt]
      omega
    unfold readFragment
    rw [decodeData_of_encodeData encoded]
    simp only [high, low]
    rw [if_neg (by simpa using numbered), if_neg order]
  · cases made

theorem mapM_ok {α β ε : Type*} {f : α → Except ε β} {xs : List α} {ys : List β}
    (all : xs.mapM f = .ok ys) : List.Forall₂ (fun x y => f x = .ok y) xs ys := by
  induction xs generalizing ys with
  | nil =>
    cases all
    exact .nil
  | cons x rest ih =>
    rw [List.mapM_cons] at all
    cases first : f x with
    | error error =>
      rw [first] at all
      cases all
    | ok y =>
      cases later : rest.mapM f with
      | error error =>
        rw [first, later] at all
        cases all
      | ok more =>
        rw [first, later] at all
        cases all
        exact .cons first (ih later)

/-- The frames of a payload read back as its fragments, each full. -/
theorem fragments_ok {payload : Bytes} {number : UInt8} {capacity : Nat} {frames : List Bytes}
    (made : fragments payload number capacity = .ok frames) :
    ∃ pieces, split payload capacity = .ok pieces ∧ pieces.flatten = payload ∧ pieces ≠ [] ∧
      pieces.length ≤ maxFragments ∧ (∀ frame ∈ frames, frame.length = capacity) ∧
      frames.map readFragment = (fragmentsOf number pieces).map some := by
  unfold fragments at made
  by_cases numbered : number = 0
  · rw [if_pos numbered] at made
    cases made
  by_cases empty : payload.isEmpty
  · rw [if_neg numbered, if_pos empty] at made
    cases made
  rw [if_neg numbered, if_neg empty] at made
  cases cut : split payload capacity with
  | error error =>
    rw [cut] at made
    cases made
  | ok pieces =>
    rw [cut] at made
    simp only [bind, Except.bind] at made
    by_cases many : pieces.length > maxFragments
    · rw [if_pos many] at made
      cases made
    · rw [if_neg many] at made
      have few : pieces.length ≤ 16 := Nat.le_of_not_lt many
      obtain ⟨some_, whole⟩ := split_ok cut
      have nonempty := List.length_pos_of_ne_nil some_
      have last : (UInt8.ofNat (pieces.length - 1)).toNat = pieces.length - 1 := by
        rw [UInt8.toNat_ofNat']
        omega
      have each := mapM_ok made
      have read : List.Forall₂ (fun (p : Bytes × Nat) frame => frame.length = capacity ∧
          readFragment frame = some ⟨number, UInt8.ofNat p.2, UInt8.ofNat (pieces.length - 1), p.1⟩)
          pieces.zipIdx frames := by
        refine (List.forall₂_iff_get.mpr ⟨each.length_eq, fun i inside inside' => ?_⟩)
        have here := (List.forall₂_iff_get.mp each).2 i inside inside'
        refine readFragment_fragmentFrame numbered ?_ (by omega) here
        simp only [List.get_eq_getElem, List.getElem_zipIdx, List.length_zipIdx] at inside ⊢
        omega
      refine ⟨pieces, rfl, whole, some_, few, fun frame member => ?_, ?_⟩
      · obtain ⟨p, _, full, _⟩ := forall₂_mem read.flip member
        exact full
      · unfold fragmentsOf
        rw [List.map_map, ← List.forall₂_eq_eq_eq, List.forall₂_map_left_iff, List.forall₂_map_right_iff]
        exact List.Forall₂.imp (fun _ _ both => both.2) read.flip

/-! ### The pieces gathered -/

/-- The slots of a datagram some of whose pieces came. -/
def gathered (pieces : List Bytes) (came : Nat → Bool) : List (Option Bytes) :=
  pieces.mapIdx fun i piece => if came i then some piece else none

theorem getElem?_gathered (pieces : List Bytes) (came : Nat → Bool) (i : Nat) :
    (gathered pieces came)[i]? = pieces[i]?.map fun piece => if came i then some piece else none :=
  List.getElem?_mapIdx

theorem gathered_none (pieces : List Bytes) :
    gathered pieces (fun _ => false) = List.replicate pieces.length none := by
  refine List.ext_getElem? fun i => ?_
  rw [getElem?_gathered, List.getElem?_replicate]
  by_cases inside : i < pieces.length
  · rw [List.getElem?_eq_getElem inside, if_pos inside]
    rfl
  · rw [List.getElem?_eq_none (Nat.le_of_not_lt inside), if_neg inside]
    rfl

/-- One piece more, or one had already. -/
theorem modify_gathered {pieces : List Bytes} {i : Nat} {piece : Bytes} (here : pieces[i]? = some piece)
    (came : Nat → Bool) :
    (gathered pieces came).modify i (fun slot => some (slot.getD piece)) =
      gathered pieces fun j => came j || j = i := by
  refine List.ext_getElem? fun j => ?_
  rw [List.getElem?_modify, getElem?_gathered, getElem?_gathered]
  by_cases same : i = j
  · subst same
    rw [here]
    cases came i <;> simp
  · have other : (decide (j = i)) = false := by simpa using Ne.symm same
    simp [same, other]

theorem joined_gathered {p : Partial} {pieces : List Bytes} {came : Nat → Bool}
    (slots : p.pieces = gathered pieces came) :
    Reassembler.Partial.joined p =
      if ∀ i < pieces.length, came i = true then some pieces.flatten else none := by
  unfold Reassembler.Partial.joined
  rw [slots]
  by_cases all : ∀ i < pieces.length, came i = true
  · have full : gathered pieces came = pieces.map some := by
      refine List.ext_getElem? fun i => ?_
      rw [getElem?_gathered, List.getElem?_map]
      by_cases inside : i < pieces.length
      · rw [all i inside]
        rfl
      · rw [List.getElem?_eq_none (Nat.le_of_not_lt inside)]
        rfl
    have none_ : (pieces.map some).any Option.isNone = false := by simp
    rw [if_pos all, full, none_]
    simp
  · have missing : (gathered pieces came).any Option.isNone = true := by
      push Not at all
      obtain ⟨i, inside, away⟩ := all
      have slot : (gathered pieces came)[i]? = some none := by
        rw [getElem?_gathered, List.getElem?_eq_getElem inside]
        simp [away]
      exact List.any_eq_true.mpr ⟨none, List.mem_of_getElem? slot, rfl⟩
    rw [if_neg all, missing, if_pos rfl]

namespace Reassembler

/-! ### One call -/

variable {r : Reassembler} {f : Fragment} {t : ℚ}

/-- A place filled, kept until it is whole. -/
def settled (key : Key) (p : Partial) : List (Key × Partial) :=
  if (Partial.joined p).isSome then [] else [(key, p)]

theorem joined_some {p : Partial} {whole : Bytes} (done : Partial.joined p = some whole) (key : Key) :
    settled key p = [] := by
  unfold settled
  rw [done]
  rfl

theorem joined_none {p : Partial} (more : Partial.joined p = none) (key : Key) : settled key p = [(key, p)] := by
  unfold settled
  rw [more]
  rfl

theorem mem_settled {key : Key} {p : Partial} {w : Key × Partial} (member : w ∈ settled key p) :
    w = (key, p) := by
  unfold settled at member
  split at member
  · cases member
  · exact List.mem_singleton.mp member

/-- The piece goes to its place in the waiting set, and the place with it when whole. -/
theorem add_settled {q : Reassembler} {front back : List (Key × Partial)} {k : Key} {p : Partial}
    (found : (r.expire t).position f t = (front.length, q)) (waiting : q.waiting = front ++ (k, p) :: back) :
    (r.add f t).1 = Partial.joined (place f.index f.body p) ∧
      (r.add f t).2 = { q with waiting := front ++ settled k (place f.index f.body p) ++ back } := by
  have filled : q.waiting.modify front.length (fun w => (w.1, place f.index f.body w.2)) =
      front ++ (k, place f.index f.body p) :: back := by
    rw [waiting, List.modify_eq_take_drop, List.take_left, List.drop_left]
    rfl
  have here : (front ++ (k, place f.index f.body p) :: back)[front.length]? =
      some (k, place f.index f.body p) := by simp
  unfold add
  simp only [found, filled, here, Option.bind_some]
  cases done : Partial.joined (place f.index f.body p) with
  | none =>
    simp only [joined_none done, List.append_assoc, List.singleton_append, and_self]
  | some whole =>
    simp only [joined_some done, List.append_nil, true_and]
    rw [List.eraseIdx_append_of_length_le (Nat.le_refl _), Nat.sub_self]
    rfl

/-- A piece of a datagram that waits. -/
theorem add_found {front back : List (Key × Partial)} {p : Partial}
    (waiting : (r.expire t).waiting = front ++ (f.key, p) :: back) (first : ∀ w ∈ front, w.1 ≠ f.key) :
    (r.add f t).1 = Partial.joined (place f.index f.body p) ∧
      (r.add f t).2 =
        { r.expire t with waiting := front ++ settled f.key (place f.index f.body p) ++ back } := by
  refine add_settled ?_ waiting
  have at_ : (r.expire t).waiting.findIdx? (fun w => w.1 = f.key) = some front.length := by
    rw [waiting, List.findIdx?_append]
    have none_ : front.findIdx? (fun w => decide (w.1 = f.key)) = none := by
      simpa [List.findIdx?_eq_none_iff] using first
    rw [none_, List.findIdx?_cons]
    simp
  unfold position
  rw [at_]

/-- The place a datagram begins with. -/
def fresh (last : UInt8) (t : ℚ) : Partial := ⟨last, List.replicate (last.toNat + 1) none, t⟩

/-- The first piece of one that does not. -/
theorem add_begun (none_ : ∀ w ∈ (r.expire t).waiting, w.1 ≠ f.key) :
    (r.add f t).1 = Partial.joined (place f.index f.body (fresh f.last t)) ∧
      (r.add f t).2 =
        { (r.expire t).makeRoom with
          waiting := (r.expire t).makeRoom.waiting ++
            settled f.key (place f.index f.body (fresh f.last t)) } := by
  have at_ : (r.expire t).waiting.findIdx? (fun w => w.1 = f.key) = none := by
    simpa [List.findIdx?_eq_none_iff] using none_
  have found : (r.expire t).position f t =
      ((r.expire t).makeRoom.waiting.length, (r.expire t).begin f.key f.last t) := by
    unfold position
    rw [at_]
    simp [begin]
  have result := @add_settled r f t _ _ [] f.key (fresh f.last t) found rfl
  rw [List.append_nil] at result
  exact result

/-- A datagram waits, first in one place, or it does not. -/
theorem waits_or_not (waiting : List (Key × Partial)) (key : Key) :
    (∃ front p back, waiting = front ++ (key, p) :: back ∧ ∀ w ∈ front, w.1 ≠ key) ∨
      ∀ w ∈ waiting, w.1 ≠ key := by
  induction waiting with
  | nil => exact .inr nofun
  | cons w rest ih =>
    by_cases same : w.1 = key
    · exact .inl ⟨[], w.2, rest, by rw [← same]; rfl, nofun⟩
    · rcases ih with ⟨front, p, back, split, first⟩ | none_
      · exact .inl ⟨w :: front, p, back, by rw [split]; rfl, List.forall_mem_cons.mpr ⟨same, first⟩⟩
      · exact .inr (List.forall_mem_cons.mpr ⟨same, none_⟩)

theorem makeRoom_sublist (r : Reassembler) : r.makeRoom.waiting.Sublist r.waiting := by
  unfold makeRoom
  split
  · exact List.eraseIdx_sublist ..
  · exact List.Sublist.refl _

theorem add_bounds (r : Reassembler) (f : Fragment) (t : ℚ) :
    (r.add f t).2.keep = r.keep ∧ (r.add f t).2.timeoutS = r.timeoutS := by
  have room (q : Reassembler) : q.makeRoom.keep = q.keep ∧ q.makeRoom.timeoutS = q.timeoutS := by
    unfold makeRoom
    split <;> exact ⟨rfl, rfl⟩
  rcases waits_or_not (r.expire t).waiting f.key with ⟨front, p, back, waiting, first⟩ | none_
  · rw [(add_found waiting first).2]
    exact ⟨rfl, rfl⟩
  · rw [(add_begun none_).2]
    exact room (r.expire t)

/-! ### The other datagrams -/

/-- What waits under other keys. -/
def others (key : Key) (waiting : List (Key × Partial)) : List (Key × Partial) := waiting.filter (·.1 ≠ key)

theorem others_settled (key : Key) (p : Partial) : others key (settled key p) = [] := by
  unfold others settled
  split <;> simp

/-- A call leaves the other datagrams as they were, but for those it gives up on. -/
theorem others_add (r : Reassembler) (f : Fragment) (t : ℚ) :
    others f.key (r.add f t).2.waiting = others f.key
      (if f.key ∈ (r.expire t).waiting.map Prod.fst then r.expire t else (r.expire t).makeRoom).waiting := by
  rcases waits_or_not (r.expire t).waiting f.key with ⟨front, p, back, waiting, first⟩ | none_
  · have member : f.key ∈ (r.expire t).waiting.map Prod.fst := by
      rw [waiting]
      simp
    have gone := others_settled f.key (place f.index f.body p)
    unfold others at gone ⊢
    rw [if_pos member, (add_found waiting first).2, waiting]
    simp only [List.filter_append, gone, List.append_nil]
    simp
  · have away : f.key ∉ (r.expire t).waiting.map Prod.fst := by
      rw [List.mem_map]
      rintro ⟨w, member, same⟩
      exact none_ w member same
    have gone := others_settled f.key (place f.index f.body (fresh f.last t))
    unfold others at gone ⊢
    rw [if_neg away, (add_begun none_).2, List.filter_append, gone, List.append_nil]

/-! ### A datagram's own place -/

/-- A datagram waits between those begun no later and those begun after it, and these
have different keys. -/
def Held (r : Reassembler) (key : Key) (p : Partial) (names : Finset Key) : Prop :=
  ∃ older newer, r.waiting = older ++ (key, p) :: newer ∧
    (∀ w ∈ older, w.1 ≠ key ∧ w.2.firstS ≤ p.firstS) ∧
    (∀ w ∈ newer, w.1 ∈ names ∧ p.firstS ≤ w.2.firstS) ∧ (newer.map Prod.fst).Nodup

variable {key : Key} {p : Partial} {names : Finset Key}

theorem Held.expire (held : Held r key p names) (within : t - p.firstS ≤ r.timeoutS) :
    Held (r.expire t) key p names := by
  obtain ⟨older, newer, waiting, before, after, distinct⟩ := held
  refine ⟨older.filter fun w => t - w.2.firstS ≤ r.timeoutS, newer.filter fun w => t - w.2.firstS ≤ r.timeoutS,
    ?_, fun w member => before w (List.mem_of_mem_filter member),
    fun w member => after w (List.mem_of_mem_filter member),
    distinct.sublist (List.filter_sublist.map _)⟩
  change r.waiting.filter _ = _
  rw [waiting, List.filter_append, List.filter_cons_of_pos (by simpa using within)]

/-- The oldest of several is among the first, where all are at least as old as the rest. -/
theorem oldest_lt {older rest : List (Key × Partial)} (waiting : r.waiting = older ++ rest) (some_ : older ≠ [])
    (order : ∀ w ∈ older, ∀ v ∈ rest, w.2.firstS ≤ v.2.firstS) : r.oldest < older.length := by
  obtain ⟨least, found⟩ : ∃ least, older.argmin (fun w => w.2.firstS) = some least :=
    Option.ne_none_iff_exists'.mp fun none_ => some_ (List.argmin_eq_none.mp none_)
  have among := List.argmin_mem found
  have smallest : ∀ v ∈ r.waiting, least.2.firstS ≤ v.2.firstS := fun v member => by
    rw [waiting] at member
    rcases List.mem_append.mp member with old | new
    · exact List.le_of_mem_argmin (f := fun w : Key × Partial => w.2.firstS) old found
    · exact order least among v new
  have here : older.findIdx (fun w => r.waiting.all fun v => w.2.firstS ≤ v.2.firstS) < older.length :=
    List.findIdx_lt_length_of_exists ⟨least, among, by simpa using fun a b p => smallest ((a, b), p)⟩
  unfold oldest
  rw [waiting] at here ⊢
  rw [List.findIdx_append, if_pos here]
  exact here

theorem Held.makeRoom (held : Held r key p names) (few : names.card < r.keep) {k : Key} (named : k ∈ names)
    (new : ∀ w ∈ r.waiting, w.1 ≠ k) : Held r.makeRoom key p names := by
  obtain ⟨older, newer, waiting, before, after, distinct⟩ := held
  unfold Reassembler.makeRoom
  split
  · rename_i full
    -- the newer ones and the new one have names enough: an older one goes
    have length : newer.length < names.card := by
      have inside : (newer.map Prod.fst).toFinset ⊆ names.erase k := fun name member => by
        obtain ⟨w, among, rfl⟩ := List.mem_map.mp (List.mem_toFinset.mp member)
        have other := new w (by rw [waiting]; simp [among])
        exact Finset.mem_erase.mpr ⟨other, (after w among).1⟩
      have count := Finset.card_le_card inside
      rw [List.toFinset_card_of_nodup distinct, List.length_map, Finset.card_erase_of_mem named] at count
      have some_ : 0 < names.card := Finset.card_pos.mpr ⟨k, named⟩
      omega
    have some_ : older ≠ [] := by
      rintro rfl
      rw [waiting] at full
      simp only [List.nil_append, List.length_cons] at full
      omega
    have first := oldest_lt waiting some_ fun w member v later => by
      rcases List.mem_cons.mp later with rfl | later
      · exact (before w member).2
      · exact (before w member).2.trans (after v later).2
    refine ⟨older.eraseIdx r.oldest, newer, ?_, fun w member => before w (List.mem_of_mem_eraseIdx member),
      after, distinct⟩
    change r.waiting.eraseIdx r.oldest = _
    conv_lhs => rw [waiting]
    exact List.eraseIdx_append_of_lt_length first _
  · exact ⟨older, newer, waiting, before, after, distinct⟩

/-- Two places of one list, of different keys. -/
theorem split_other {front back older newer : List (Key × Partial)} {x y : Key × Partial} (other : x.1 ≠ y.1)
    (same : front ++ x :: back = older ++ y :: newer) :
    (∃ mid, older = front ++ x :: mid ∧ back = mid ++ y :: newer) ∨
      ∃ mid, front = older ++ y :: mid ∧ newer = mid ++ x :: back := by
  rcases List.append_eq_append_iff.mp same with ⟨mid, first, second⟩ | ⟨mid, first, second⟩
  · cases mid with
    | nil =>
      obtain ⟨rfl, _⟩ := List.cons.inj second
      exact absurd rfl other
    | cons z mid =>
      obtain ⟨rfl, rest⟩ := List.cons.inj second
      exact .inl ⟨mid, first, rest⟩
  · cases mid with
    | nil =>
      obtain ⟨rfl, _⟩ := List.cons.inj second
      exact absurd rfl other
    | cons z mid =>
      obtain ⟨rfl, rest⟩ := List.cons.inj second
      exact .inr ⟨mid, first, rest⟩

/-- Another datagram's piece leaves the place. -/
theorem Held.other (held : Held r key p names) (away : f.key ≠ key) (named : f.key ∈ names)
    (few : names.card < r.keep) (later : p.firstS ≤ t) (within : t - p.firstS ≤ r.timeoutS) :
    Held (r.add f t).2 key p names := by
  have kept := held.expire within
  rcases waits_or_not (r.expire t).waiting f.key with ⟨front, q, back, waiting, first⟩ | none_
  · rw [(add_found waiting first).2]
    obtain ⟨older, newer, order, before, after, distinct⟩ := kept
    rcases split_other away (waiting.symm.trans order) with ⟨mid, rfl, rfl⟩ | ⟨mid, rfl, rfl⟩
    · refine ⟨front ++ settled f.key (place f.index f.body q) ++ mid, newer, by simp, fun w member => ?_, after,
        distinct⟩
      rcases List.mem_append.mp member with member | member
      · rcases List.mem_append.mp member with member | member
        · exact before w (List.mem_append_left _ member)
        · rw [mem_settled member]
          exact before (f.key, q) (by simp)
      · exact before w (by simp [member])
    · refine ⟨older, mid ++ settled f.key (place f.index f.body q) ++ back, by simp, before, fun w member => ?_, ?_⟩
      · rcases List.mem_append.mp member with member | member
        · rcases List.mem_append.mp member with member | member
          · exact after w (List.mem_append_left _ member)
          · rw [mem_settled member]
            exact after (f.key, q) (by simp)
        · exact after w (by simp [member])
      · have part : (settled f.key (place f.index f.body q)).map Prod.fst |>.Sublist [f.key] := by
          unfold settled
          split <;> simp
        refine distinct.sublist ?_
        simp only [List.map_append, List.map_cons, List.append_assoc]
        exact (List.Sublist.refl _).append (part.append (List.Sublist.refl _))
  · have room := kept.makeRoom few named none_
    rw [(add_begun none_).2]
    obtain ⟨older, newer, order, before, after, distinct⟩ := room
    refine ⟨older, newer ++ settled f.key (place f.index f.body (fresh f.last t)), by simp [order], before,
      fun w member => ?_, ?_⟩
    · rcases List.mem_append.mp member with member | member
      · exact after w member
      · rw [mem_settled member]
        exact ⟨named, later⟩
    · have unmet : f.key ∉ newer.map Prod.fst := fun member => by
        obtain ⟨w, among, same⟩ := List.mem_map.mp member
        refine none_ w ((makeRoom_sublist (r.expire t)).subset ?_) same
        rw [order]
        simp [among]
      have part : (settled f.key (place f.index f.body (fresh f.last t))).map Prod.fst |>.Sublist [f.key] := by
        unfold settled
        split <;> simp
      rw [List.map_append]
      refine (List.nodup_append.mpr ⟨distinct, List.nodup_singleton _, ?_⟩).sublist
        ((List.Sublist.refl _).append part)
      rintro a member b single rfl
      exact unmet (List.mem_singleton.mp single ▸ member)

/-- A piece of its own fills the place. -/
theorem Held.own (held : Held r key p names) (same : f.key = key) (unnamed : key ∉ names)
    (within : t - p.firstS ≤ r.timeoutS) :
    (r.add f t).1 = Partial.joined (place f.index f.body p) ∧
      (Partial.joined (place f.index f.body p) = none →
        Held (r.add f t).2 key (place f.index f.body p) names) := by
  subst same
  obtain ⟨older, newer, order, before, after, distinct⟩ := held.expire within
  obtain ⟨out, result⟩ := add_found order fun w member => (before w member).1
  refine ⟨out, fun more => ⟨older, newer, ?_, before, after, distinct⟩⟩
  rw [result, joined_none more]
  simp

/-- Its first piece makes the place. -/
theorem begun_own (none_ : ∀ w ∈ r.waiting, w.1 ≠ f.key ∧ w.2.firstS ≤ t) (names : Finset Key) :
    (r.add f t).1 = Partial.joined (place f.index f.body (fresh f.last t)) ∧
      (Partial.joined (place f.index f.body (fresh f.last t)) = none →
        Held (r.add f t).2 f.key (place f.index f.body (fresh f.last t)) names) := by
  have away : ∀ w ∈ (r.expire t).waiting, w.1 ≠ f.key := fun w member =>
    (none_ w (List.mem_of_mem_filter member)).1
  obtain ⟨out, result⟩ := add_begun away
  refine ⟨out, fun more => ⟨(r.expire t).makeRoom.waiting, [], ?_, fun w member => ?_, nofun, List.nodup_nil⟩⟩
  · rw [result, joined_none more]
  · exact none_ w (List.mem_of_mem_filter ((makeRoom_sublist _).subset member))

/-- What waits after a call waited before it, or is the piece's own. -/
theorem mem_add {w : Key × Partial} (member : w ∈ (r.add f t).2.waiting) :
    (∃ v ∈ r.waiting, v.1 = w.1 ∧ v.2.firstS = w.2.firstS) ∨ (w.1 = f.key ∧ w.2.firstS = t) := by
  rcases waits_or_not (r.expire t).waiting f.key with ⟨front, q, back, waiting, first⟩ | none_
  · have old (v : Key × Partial) (inside : v ∈ front ++ (f.key, q) :: back) : v ∈ r.waiting :=
      List.mem_of_mem_filter (waiting.symm ▸ inside)
    rw [(add_found waiting first).2] at member
    rcases List.mem_append.mp member with member | member
    · rcases List.mem_append.mp member with member | member
      · exact .inl ⟨w, old w (by simp [member]), rfl, rfl⟩
      · rw [mem_settled member]
        exact .inl ⟨(f.key, q), old _ (by simp), rfl, rfl⟩
    · exact .inl ⟨w, old w (by simp [member]), rfl, rfl⟩
  · rw [(add_begun none_).2] at member
    rcases List.mem_append.mp member with member | member
    · exact .inl ⟨w, List.mem_of_mem_filter ((makeRoom_sublist _).subset member), rfl, rfl⟩
    · rw [mem_settled member]
      exact .inr ⟨rfl, rfl⟩

/-! ### Runs -/

/-- The calls of a run one after the other. -/
def adds (r : Reassembler) (calls : List (Fragment × ℚ)) : Reassembler :=
  calls.foldl (fun (r : Reassembler) c => (r.add c.1 c.2).2) r

@[simp] theorem adds_nil (r : Reassembler) : r.adds [] = r := rfl

theorem adds_concat (r : Reassembler) (calls : List (Fragment × ℚ)) (c : Fragment × ℚ) :
    r.adds (calls ++ [c]) = ((r.adds calls).add c.1 c.2).2 := by
  simp [adds]

theorem adds_bounds (r : Reassembler) (calls : List (Fragment × ℚ)) :
    (r.adds calls).keep = r.keep ∧ (r.adds calls).timeoutS = r.timeoutS := by
  induction calls using List.reverseRecOn with
  | nil => exact ⟨rfl, rfl⟩
  | append_singleton calls c ih =>
    obtain ⟨keep, timeout⟩ := add_bounds (r.adds calls) c.1 c.2
    rw [adds_concat]
    exact ⟨keep.trans ih.1, timeout.trans ih.2⟩

/-- The pieces a run of calls brought of a datagram. -/
def came (key : Key) (calls : List (Fragment × ℚ)) (i : Nat) : Bool :=
  calls.any fun c => c.1.key = key ∧ c.1.index.toNat = i

theorem came_own {calls : List (Fragment × ℚ)} (same : f.key = key) (i : Nat) :
    came key (calls ++ [(f, t)]) i = (came key calls i || decide (i = f.index.toNat)) := by
  simp [came, same, eq_comm]

theorem came_other {calls : List (Fragment × ℚ)} (away : f.key ≠ key) (i : Nat) :
    came key (calls ++ [(f, t)]) i = came key calls i := by
  simp [came, away]

/-- What a datagram of these pieces waits under. -/
def keyOf (number : UInt8) (pieces : List Bytes) : Key := (number, UInt8.ofNat (pieces.length - 1))

theorem mem_fragmentsOf {number : UInt8} {pieces : List Bytes} (few : pieces.length ≤ maxFragments)
    (member : f ∈ fragmentsOf number pieces) :
    pieces[f.index.toNat]? = some f.body ∧ f.last = UInt8.ofNat (pieces.length - 1) ∧
      f.key = keyOf number pieces := by
  obtain ⟨⟨piece, i⟩, among, rfl⟩ := List.mem_map.mp member
  have here := List.mem_zipIdx_iff_getElem?.mp among
  have inside := (List.getElem?_eq_some_iff.mp here).1
  have index : (UInt8.ofNat i).toNat = i := by
    rw [UInt8.toNat_ofNat']
    have few : pieces.length ≤ 16 := few
    simp only at inside
    omega
  refine ⟨?_, rfl, rfl⟩
  simp only at here ⊢
  rw [index, here]

/-- A datagram's fragments among those of fewer others than a reassembler holds, in time. -/
structure Mixed (number : UInt8) (pieces : List Bytes) (r : Reassembler) (calls : List (Fragment × ℚ)) :
    Prop where
  fresh : ∀ w ∈ r.waiting, w.1 ≠ keyOf number pieces
  begun : ∀ w ∈ r.waiting, ∀ c ∈ calls, c.1.key = keyOf number pieces → w.2.firstS ≤ c.2
  ordered : calls.Pairwise fun c d => c.2 ≤ d.2
  own : ∀ c ∈ calls, c.1.key = keyOf number pieces → c.1 ∈ fragmentsOf number pieces
  within : ∀ c ∈ calls, c.1.key = keyOf number pieces → ∀ d ∈ calls, d.2 - c.2 ≤ r.timeoutS
  few : ((calls.map fun c => c.1.key).toFinset.erase (keyOf number pieces)).card < r.keep

theorem Mixed.part {number : UInt8} {pieces : List Bytes} {before after : List (Fragment × ℚ)}
    (mixed : Mixed number pieces r (before ++ after)) : Mixed number pieces r before where
  fresh := mixed.fresh
  begun w waits c member := mixed.begun w waits c (List.mem_append_left _ member)
  ordered := (List.pairwise_append.mp mixed.ordered).1
  own c member := mixed.own c (List.mem_append_left _ member)
  within c member same d member' :=
    mixed.within c (List.mem_append_left _ member) same d (List.mem_append_left _ member')
  few := by
    refine Nat.lt_of_le_of_lt (Finset.card_le_card (Finset.erase_subset_erase _ fun k member => ?_)) mixed.few
    rw [List.map_append, List.toFinset_append]
    exact Finset.mem_union_left _ member

/-- Where a datagram stands in a run that has not brought all of it: none of it came, or
it waits with what came. -/
inductive Standing (number : UInt8) (pieces : List Bytes) (r : Reassembler) (calls : List (Fragment × ℚ))
    (names : Finset Key) : Prop
  | unheard (nothing : ∀ i, came (keyOf number pieces) calls i = false)
      (waiting : ∀ w ∈ (r.adds calls).waiting, w.1 ≠ keyOf number pieces ∧
        ((∃ v ∈ r.waiting, v.2.firstS = w.2.firstS) ∨ ∃ c ∈ calls, w.2.firstS = c.2))
  | waits (p : Partial) (held : Held (r.adds calls) (keyOf number pieces) p names)
      (slots : p.pieces = gathered pieces (came (keyOf number pieces) calls))
      (begun : ∃ c ∈ calls, c.1.key = keyOf number pieces ∧ p.firstS = c.2)

/-- All of a datagram's pieces came. -/
def Whole (number : UInt8) (pieces : List Bytes) (calls : List (Fragment × ℚ)) : Prop :=
  ∀ i < pieces.length, came (keyOf number pieces) calls i = true

instance (number : UInt8) (pieces : List Bytes) (calls : List (Fragment × ℚ)) :
    Decidable (Whole number pieces calls) :=
  inferInstanceAs (Decidable (∀ i < pieces.length, _))

variable {number : UInt8} {pieces : List Bytes} {calls : List (Fragment × ℚ)}

/-- A call with one of the datagram's fragments. -/
theorem Standing.own (standing : Standing number pieces r calls names)
    (mixed : Mixed number pieces r (calls ++ [(f, t)])) (few : pieces.length ≤ maxFragments)
    (same : f.key = keyOf number pieces) (unnamed : keyOf number pieces ∉ names) :
    ((r.adds calls).add f t).1 = (if Whole number pieces (calls ++ [(f, t)]) then some pieces.flatten else none) ∧
      (¬Whole number pieces (calls ++ [(f, t)]) →
        Standing number pieces r (calls ++ [(f, t)]) names) := by
  have now : (f, t) ∈ calls ++ [(f, t)] := by simp
  obtain ⟨piece, last, _⟩ := mem_fragmentsOf few (mixed.own (f, t) now same)
  have placed {p : Partial} (slots : p.pieces = gathered pieces (came (keyOf number pieces) calls)) :
      (place f.index f.body p).pieces = gathered pieces (came (keyOf number pieces) (calls ++ [(f, t)])) := by
    unfold place
    rw [slots, modify_gathered piece]
    exact congrArg (gathered pieces) (funext fun i => (came_own same i).symm)
  have joined {p : Partial} (slots : p.pieces = gathered pieces (came (keyOf number pieces) (calls ++ [(f, t)]))) :
      Partial.joined p = if Whole number pieces (calls ++ [(f, t)]) then some pieces.flatten else none :=
    joined_gathered slots
  cases standing with
  | unheard nothing waiting =>
    have none_ : ∀ w ∈ (r.adds calls).waiting, w.1 ≠ f.key ∧ w.2.firstS ≤ t := fun w member => by
      obtain ⟨away, first⟩ := waiting w member
      refine ⟨same ▸ away, ?_⟩
      rcases first with ⟨v, old, began⟩ | ⟨c, earlier, began⟩
      · exact began ▸ mixed.begun v old (f, t) now same
      · exact began ▸ (List.pairwise_append.mp mixed.ordered).2.2 c earlier (f, t) (List.mem_singleton_self _)
    have empty : (fresh f.last t).pieces = gathered pieces (came (keyOf number pieces) calls) := by
      have inside := (List.getElem?_eq_some_iff.mp piece).1
      have length : f.last.toNat + 1 = pieces.length := by
        have few : pieces.length ≤ 16 := few
        rw [last, UInt8.toNat_ofNat']
        omega
      rw [show came (keyOf number pieces) calls = fun _ => false from funext nothing, gathered_none, ← length]
      rfl
    obtain ⟨out, held⟩ := begun_own none_ names
    rw [out, joined (placed empty)]
    refine ⟨rfl, fun more => .waits (place f.index f.body (fresh f.last t)) ?_ (placed empty) ⟨(f, t), now, same, rfl⟩⟩
    rw [adds_concat, ← same]
    exact held (by rw [joined (placed empty), if_neg more])
  | waits p held slots begun =>
    obtain ⟨c, earlier, own, began⟩ := begun
    have within : t - p.firstS ≤ (r.adds calls).timeoutS := by
      rw [(adds_bounds r calls).2, began]
      exact mixed.within c (List.mem_append_left _ earlier) own (f, t) now
    obtain ⟨out, held'⟩ := held.own same unnamed within
    rw [out, joined (placed slots)]
    refine ⟨rfl, fun more => .waits (place f.index f.body p) ?_ (placed slots)
      ⟨c, List.mem_append_left _ earlier, own, began⟩⟩
    rw [adds_concat]
    exact held' (by rw [joined (placed slots), if_neg more])

/-- A call with another's. -/
theorem Standing.other (standing : Standing number pieces r calls names)
    (mixed : Mixed number pieces r (calls ++ [(f, t)])) (away : f.key ≠ keyOf number pieces)
    (named : f.key ∈ names) (room : names.card < r.keep) :
    Standing number pieces r (calls ++ [(f, t)]) names := by
  have now : (f, t) ∈ calls ++ [(f, t)] := by simp
  have same (i : Nat) : came (keyOf number pieces) (calls ++ [(f, t)]) i = came (keyOf number pieces) calls i :=
    came_other away i
  cases standing with
  | unheard nothing waiting =>
    refine .unheard (fun i => (same i).trans (nothing i)) fun w member => ?_
    rw [adds_concat] at member
    rcases mem_add member with ⟨v, old, key, first⟩ | ⟨key, first⟩
    · obtain ⟨other, began⟩ := waiting v old
      refine ⟨key ▸ other, ?_⟩
      rw [← first]
      exact began.imp_right fun ⟨c, earlier, began⟩ => ⟨c, List.mem_append_left _ earlier, began⟩
    · exact ⟨key ▸ away, .inr ⟨(f, t), now, first⟩⟩
  | waits p held slots begun =>
    obtain ⟨c, earlier, own, began⟩ := begun
    have bounds := adds_bounds r calls
    have within : t - p.firstS ≤ (r.adds calls).timeoutS := by
      rw [bounds.2, began]
      exact mixed.within c (List.mem_append_left _ earlier) own (f, t) now
    have later : p.firstS ≤ t :=
      began ▸ (List.pairwise_append.mp mixed.ordered).2.2 c earlier (f, t) (List.mem_singleton_self _)
    refine .waits p ?_ (slots.trans (congrArg (gathered pieces) (funext fun i => (same i).symm)))
      ⟨c, List.mem_append_left _ earlier, own, began⟩
    rw [adds_concat]
    exact held.other away named (bounds.1 ▸ room) later within

/-- Until all of it came, a datagram stands so. -/
theorem standing_run (mixed : Mixed number pieces r calls) (few : pieces.length ≤ maxFragments)
    (named : ∀ c ∈ calls, c.1.key ≠ keyOf number pieces → c.1.key ∈ names) (unnamed : keyOf number pieces ∉ names)
    (room : names.card < r.keep) (more : ¬Whole number pieces calls) :
    Standing number pieces r calls names := by
  induction calls using List.reverseRecOn with
  | nil =>
    refine .unheard (fun _ => rfl) fun w member => ⟨mixed.fresh w member, .inl ⟨w, member, rfl⟩⟩
  | append_singleton calls c ih =>
    obtain ⟨f, t⟩ := c
    have fewer : ¬Whole number pieces calls := fun whole => more fun i inside => by
      have here := whole i inside
      unfold came at here ⊢
      rw [List.any_append, here, Bool.true_or]
    have standing := ih mixed.part (fun c member => named c (List.mem_append_left _ member)) fewer
    by_cases same : f.key = keyOf number pieces
    · exact (standing.own mixed few same unnamed).2 more
    · exact standing.other mixed same (named (f, t) (by simp) same) room

/-- The first call to have brought all of a datagram gives it, and no earlier call with a
fragment of it gives anything. -/
theorem own_gives {after : List (Fragment × ℚ)} (mixed : Mixed number pieces r (calls ++ (f, t) :: after))
    (few : pieces.length ≤ maxFragments) (same : f.key = keyOf number pieces)
    (more : ¬Whole number pieces calls) :
    ((r.adds calls).add f t).1 =
      if Whole number pieces (calls ++ [(f, t)]) then some pieces.flatten else none := by
  have split : calls ++ (f, t) :: after = (calls ++ [(f, t)]) ++ after := by simp
  have upTo := (split ▸ mixed).part
  have named : ∀ c ∈ calls, c.1.key ≠ keyOf number pieces →
      c.1.key ∈ (calls.map fun c => c.1.key).toFinset.erase (keyOf number pieces) := fun c member away =>
    Finset.mem_erase.mpr ⟨away, List.mem_toFinset.mpr (List.mem_map_of_mem member)⟩
  have standing := standing_run upTo.part few named (Finset.notMem_erase _ _) upTo.part.few more
  exact (standing.own upTo few same (Finset.notMem_erase _ _)).1

theorem not_whole_nil (some_ : pieces ≠ []) : ¬Whole number pieces [] := fun whole =>
  nomatch whole 0 (List.length_pos_of_ne_nil some_)

theorem Whole.longer (whole : Whole number pieces calls) (after : List (Fragment × ℚ)) :
    Whole number pieces (calls ++ after) := fun i inside => by
  have here := whole i inside
  unfold came at here ⊢
  rw [List.any_append, here, Bool.true_or]

/-- The call that brings the last missing piece. -/
theorem Whole.completed (whole : Whole number pieces calls) (some_ : pieces ≠ []) :
    ∃ before f t after, calls = before ++ (f, t) :: after ∧ f.key = keyOf number pieces ∧
      ¬Whole number pieces before ∧ Whole number pieces (before ++ [(f, t)]) := by
  induction calls using List.reverseRecOn with
  | nil => exact absurd whole (not_whole_nil some_)
  | append_singleton calls c ih =>
    by_cases before : Whole number pieces calls
    · obtain ⟨first, f, t, after, split, rest⟩ := ih before
      exact ⟨first, f, t, after ++ [c], by rw [split]; simp, rest⟩
    · obtain ⟨f, t⟩ := c
      refine ⟨calls, f, t, [], rfl, by_contra fun away => before fun i inside => ?_, before, whole⟩
      rw [← came_other away]
      exact whole i inside

end Reassembler

open Reassembler

/-- A payload's frames are full and read back as its fragments. However these come among
the fragments of fewer other datagrams than a reassembler holds, in time and with none of
an earlier datagram of their number and length waiting, the call that brings the last
missing one gives the payload, no call with one of them gives anything before, and a call
leaves the other datagrams as they were, but for those it gives up on. -/
theorem datagram_joined {payload : Bytes} {number : UInt8} {capacity : Nat} {frames : List Bytes}
    (made : fragments payload number capacity = .ok frames) :
    (∀ frame ∈ frames, frame.length = capacity) ∧
    ∃ pieces, split payload capacity = .ok pieces ∧ pieces.flatten = payload ∧
      frames.map readFragment = (fragmentsOf number pieces).map some ∧
      (∀ (r : Reassembler) calls, Mixed number pieces r calls → Whole number pieces calls →
        ∃ before f t after, calls = before ++ (f, t) :: after ∧ f.key = keyOf number pieces ∧
          ¬Whole number pieces before ∧ ((r.adds before).add f t).1 = some payload ∧
          ∀ earlier g s later, before = earlier ++ (g, s) :: later → g.key = keyOf number pieces →
            ((r.adds earlier).add g s).1 = none) ∧
      ∀ (r : Reassembler) (f : Fragment) (t : ℚ), others f.key (r.add f t).2.waiting = others f.key
        (if f.key ∈ (r.expire t).waiting.map Prod.fst then r.expire t else (r.expire t).makeRoom).waiting := by
  obtain ⟨pieces, cut, joined, some_, few, full, read⟩ := fragments_ok made
  refine ⟨full, pieces, cut, joined, read, fun r calls mixed whole => ?_, others_add⟩
  obtain ⟨before, f, t, after, rfl, same, more, done⟩ := whole.completed some_
  refine ⟨before, f, t, after, rfl, same, more, ?_, ?_⟩
  · rw [own_gives mixed few same more, if_pos done, joined]
  · rintro earlier g s later rfl own
    have again : earlier ++ (g, s) :: later ++ (f, t) :: after = earlier ++ (g, s) :: (later ++ (f, t) :: after) := by
      simp
    have upTo : ¬Whole number pieces (earlier ++ [(g, s)]) := fun whole => more (by simpa using whole.longer later)
    have sooner : ¬Whole number pieces earlier := fun whole => upTo (whole.longer _)
    rw [own_gives (again ▸ mixed) few own sooner, if_neg upTo]

/-- Two fragments, the last first, with another datagram's between them. -/
theorem datagram_joined_two :
    ∃ before f t after,
      [((⟨1, 1, 1, [4]⟩ : Fragment), (0 : ℚ)), (⟨2, 0, 1, [7]⟩, 1), (⟨1, 0, 1, [1, 2, 3]⟩, 2)] =
        before ++ (f, t) :: after ∧ f.key = keyOf 1 [[1, 2, 3], [4]] ∧ ¬Whole 1 [[1, 2, 3], [4]] before ∧
      (((new 120 8).adds before).add f t).1 = some [1, 2, 3, 4] ∧
      ∀ earlier g s later, before = earlier ++ (g, s) :: later → g.key = keyOf 1 [[1, 2, 3], [4]] →
        (((new 120 8).adds earlier).add g s).1 = none := by
  have made : fragments [1, 2, 3, 4] 1 6 = .ok [[192, 1, 1, 1, 2, 3], [193, 17, 1, 0, 1, 4]] := by decide
  obtain ⟨_, pieces, cut, _, _, joins, _⟩ := datagram_joined made
  have known : split [1, 2, 3, 4] 6 = .ok [[1, 2, 3], [4]] := by decide
  obtain rfl : [[1, 2, 3], [4]] = pieces := Except.ok.inj (known.symm.trans cut)
  refine joins (new 120 8) _ ⟨nofun, nofun, by decide, by decide, by decide +kernel, ?_⟩ (by decide)
  decide

/-- A piece of another station's datagram, waiting under the same number and length, is
joined with the rest of this one; and one more datagram than a reassembler holds costs
another its pieces. -/
theorem stalePiece_joined :
    (fragments [1, 2, 3, 4] 1 6 = .ok [[192, 1, 1, 1, 2, 3], [193, 17, 1, 0, 1, 4]] ∧
      readFragment [192, 1, 1, 1, 2, 3] = some ⟨1, 0, 1, [1, 2, 3]⟩ ∧
      readFragment [193, 17, 1, 0, 1, 4] = some ⟨1, 1, 1, [4]⟩) ∧
    (let r := ((new 120 8).add ⟨1, 0, 1, [9, 9, 9]⟩ 0).2;
      (r.add ⟨1, 0, 1, [1, 2, 3]⟩ 1).1 = none ∧
        ((r.add ⟨1, 0, 1, [1, 2, 3]⟩ 1).2.add ⟨1, 1, 1, [4]⟩ 2).1 = some [9, 9, 9, 4]) ∧
    (let r := ((new 120 1).add ⟨2, 0, 1, [9, 9, 9]⟩ 0).2;
      others (1, 1) r.waiting ≠ [] ∧ others (1, 1) (r.add ⟨1, 0, 1, [1, 2, 3]⟩ 1).2.waiting = []) := by
  decide +kernel

end AetherHF.Link.Datagram

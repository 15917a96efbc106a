import Mathlib.Logic.Function.Basic
import AetherHF.Link.Callsigns
import AetherHF.Link.Reassembly

/-! Stations that send datagrams, and a receiver that joins the pieces it decodes. What is
joined is a datagram some station sent as long as no piece is put with another datagram's:
the receiver tells datagrams apart by number and length alone, and each station numbers
its own. -/
namespace AetherHF.Link.Datagram

/-- The number after a station's last. -/
def nextNumber (number : UInt8) : UInt8 := if number = 255 then 1 else number + 1

/-- A datagram a station sent. -/
structure Sent (ι : Type*) where
  station : ι
  number : UInt8
  capacity : Nat
  payload : Bytes
  frames : List Bytes
  deriving DecidableEq

/-- The stations, what they sent, and the receiver. -/
structure Air (ι : Type*) where
  /-- Each station's last number. -/
  numbers : ι → UInt8 := fun _ => 0
  sent : List (Sent ι) := []
  receiver : Reassembler
  /-- The datagram whose fragment began what waits under a key. -/
  begun : Key → Option (Sent ι) := fun _ => none
  /-- What the receiver joined. -/
  joined : List Bytes := []

inductive AirEvent (ι : Type*) where
  | send (station : ι) (payload : Bytes) (capacity : Nat)
  /-- A frame of a datagram is decoded. -/
  | hear (datagram : Sent ι) (frame : Bytes) (nowS : ℚ)
  | expire (nowS : ℚ)

namespace Air

variable {ι : Type*} [DecidableEq ι] (a : Air ι)

/-- A station numbers a datagram and sends its frames; one that does not fit has its
number and no frames. -/
def send (station : ι) (payload : Bytes) (capacity : Nat) : Air ι :=
  let number := nextNumber (a.numbers station)
  let numbers := Function.update a.numbers station number
  match fragments payload number capacity with
  | .ok frames => { a with numbers, sent := a.sent ++ [⟨station, number, capacity, payload, frames⟩] }
  | .error _ => { a with numbers }

def hear (datagram : Sent ι) (frame : Bytes) (nowS : ℚ) : Air ι :=
  match readFragment frame with
  | none => a
  | some f =>
    let waits := (a.receiver.expire nowS).waiting.any fun w => w.1 = f.key
    let out := a.receiver.add f nowS
    { a with
      receiver := out.2
      begun := if waits then a.begun else Function.update a.begun f.key (some datagram)
      joined := a.joined ++ out.1.toList }

def step : AirEvent ι → Air ι
  | .send station payload capacity => a.send station payload capacity
  | .hear datagram frame nowS => a.hear datagram frame nowS
  | .expire nowS => { a with receiver := a.receiver.expire nowS }

/-- What is decoded was sent. -/
def Possible : AirEvent ι → Prop
  | .hear datagram frame _ => datagram ∈ a.sent ∧ frame ∈ datagram.frames
  | _ => True

/-- A piece that fills a place fills one its own datagram began. -/
def Apart : AirEvent ι → Prop
  | .hear datagram frame nowS => ∀ f, readFragment frame = some f →
      ∀ w ∈ (a.receiver.expire nowS).waiting, w.1 = f.key → w.2.pieces[f.index.toNat]? = some none →
        a.begun f.key = some datagram
  | _ => True

/-- What was joined was sent. -/
def Genuine : Prop := ∀ payload ∈ a.joined, ∃ d ∈ a.sent, payload = d.payload

end Air

/-- The states of the runs all of whose steps meet a condition. -/
inductive AirRun {ι : Type*} [DecidableEq ι] (met : Air ι → AirEvent ι → Prop) : Air ι → Prop
  | start (timeoutS : ℚ) (keep : Nat) : AirRun met { receiver := .new timeoutS keep }
  | step {a : Air ι} (run : AirRun met a) (event : AirEvent ι) (possible : a.Possible event)
      (meets : met a event) : AirRun met (a.step event)

variable {ι : Type*}

open Reassembler

/-- What waits is of one datagram, the one that began it. -/
def OfSent (a : Air ι) (w : Key × Partial) : Prop :=
  ∃ d ∈ a.sent, a.begun w.1 = some d ∧ ∃ pieces, split d.payload d.capacity = .ok pieces ∧
    ∃ came, w.2.pieces = gathered pieces came

structure Air.Inv (a : Air ι) : Prop where
  made : ∀ d ∈ a.sent, fragments d.payload d.number d.capacity = .ok d.frames
  owned : ∀ w ∈ a.receiver.waiting, OfSent a w
  genuine : a.Genuine

theorem place_filled {p : Partial} {index : UInt8} {body : Bytes} (filled : p.pieces[index.toNat]? ≠ some none) :
    place index body p = p := by
  have same : p.pieces.modify index.toNat (fun slot => some (slot.getD body)) = p.pieces := by
    refine List.ext_getElem? fun i => ?_
    rw [List.getElem?_modify]
    by_cases here : index.toNat = i
    · subst here
      cases slot : p.pieces[index.toNat]? with
      | none => rfl
      | some held =>
        cases held with
        | none => exact absurd slot filled
        | some bytes => simp
    · simp [here]
  unfold place
  rw [same]

/-- A frame of a datagram reads back as one of its fragments. -/
theorem Sent.fragment {d : Sent ι} {frame : Bytes} {f : Fragment}
    (made : fragments d.payload d.number d.capacity = .ok d.frames) (member : frame ∈ d.frames)
    (read : readFragment frame = some f) :
    ∃ pieces, split d.payload d.capacity = .ok pieces ∧ pieces.flatten = d.payload ∧
      pieces[f.index.toNat]? = some f.body ∧ f.last.toNat + 1 = pieces.length := by
  obtain ⟨pieces, cut, whole, some_, few, _, each⟩ := fragments_ok made
  have inside : f ∈ fragmentsOf d.number pieces := by
    have image : some f ∈ (fragmentsOf d.number pieces).map some := by
      rw [← each, ← read]
      exact List.mem_map_of_mem member
    obtain ⟨g, among, same⟩ := List.mem_map.mp image
    exact Option.some.inj same ▸ among
  obtain ⟨piece, last, _⟩ := mem_fragmentsOf few inside
  have nonempty := List.length_pos_of_ne_nil some_
  have few : pieces.length ≤ 16 := few
  refine ⟨pieces, cut, whole, piece, ?_⟩
  rw [last, UInt8.toNat_ofNat']
  omega

theorem OfSent.waits {a b : Air ι} {w : Key × Partial} (of : OfSent a w) (sent : a.sent ⊆ b.sent)
    (begun : b.begun w.1 = a.begun w.1) : OfSent b w := by
  obtain ⟨d, member, by_, rest⟩ := of
  exact ⟨d, sent member, begun.trans by_, rest⟩

/-- What a filled place gives is its datagram's payload. -/
theorem gathered_genuine {p : Partial} {pieces : List Bytes} {came : Nat → Bool} {payload : Bytes}
    (slots : p.pieces = gathered pieces came) (done : Partial.joined p = some payload) :
    payload = pieces.flatten := by
  rw [joined_gathered slots] at done
  split at done
  · exact (Option.some.inj done).symm
  · cases done

theorem Air.Inv.hear {a : Air ι} (inv : a.Inv) {d : Sent ι} {frame : Bytes} {t : ℚ}
    (possible : a.Possible (.hear d frame t)) (apart : a.Apart (.hear d frame t)) : (a.hear d frame t).Inv := by
  obtain ⟨sent, member⟩ := possible
  unfold Air.hear
  cases read : readFragment frame with
  | none => exact inv
  | some f =>
    obtain ⟨pieces, cut, whole, piece, last⟩ := Sent.fragment (inv.made d sent) member read
    have old (w : Key × Partial) (waits : w ∈ (a.receiver.expire t).waiting) : OfSent a w :=
      inv.owned w (List.mem_of_mem_filter waits)
    rcases waits_or_not (a.receiver.expire t).waiting f.key with ⟨front, p, back, waiting, first⟩ | none_
    · obtain ⟨out, result⟩ := add_found waiting first
      have here : (f.key, p) ∈ (a.receiver.expire t).waiting := by
        rw [waiting]
        simp
      have found : ((a.receiver.expire t).waiting.any fun w => w.1 = f.key) = true :=
        List.any_eq_true.mpr ⟨_, here, by simp⟩
      obtain ⟨e, among, by_, parts, cut', came, slots⟩ := old _ here
      -- the piece is the entry's own, or its place is taken
      have placed : ∃ came', (place f.index f.body p).pieces = gathered parts came' := by
        by_cases empty : p.pieces[f.index.toNat]? = some none
        · have own := apart f read (f.key, p) here rfl empty
          obtain rfl : e = d := Option.some.inj (by_.symm.trans own)
          obtain rfl : parts = pieces := Except.ok.inj (cut'.symm.trans cut)
          refine ⟨fun j => came j || decide (j = f.index.toNat), ?_⟩
          unfold place
          rw [slots, modify_gathered piece]
        · exact ⟨came, (place_filled empty).symm ▸ slots⟩
      obtain ⟨came', slots'⟩ := placed
      refine ⟨inv.made, fun w waits => ?_, fun payload given => ?_⟩
      · simp only [result] at waits
        have kept : OfSent a w := by
          rcases List.mem_append.mp waits with waits | waits
          · rcases List.mem_append.mp waits with waits | waits
            · exact old w (by rw [waiting]; simp [waits])
            · rw [mem_settled waits]
              exact ⟨e, among, by_, parts, cut', came', slots'⟩
          · exact old w (by rw [waiting]; simp [waits])
        exact kept.waits (List.Subset.refl _) (by simp [found])
      · rcases List.mem_append.mp given with before | now
        · exact inv.genuine payload before
        · rw [out, Option.mem_toList] at now
          exact ⟨e, among, (gathered_genuine slots' now).trans (split_ok cut').2⟩
    · obtain ⟨out, result⟩ := add_begun none_
      have missing : ((a.receiver.expire t).waiting.any fun w => w.1 = f.key) = false :=
        List.any_eq_false.mpr fun w waits => by simpa using none_ w waits
      have slots : (place f.index f.body (fresh f.last t)).pieces =
          gathered pieces fun j => false || decide (j = f.index.toNat) := by
        unfold place fresh
        rw [last, ← gathered_none, modify_gathered piece]
      refine ⟨inv.made, fun w waits => ?_, fun payload given => ?_⟩
      · simp only [result] at waits
        rcases List.mem_append.mp waits with waits | waits
        · have waits := (makeRoom_sublist _).subset waits
          have other := none_ w waits
          exact (old w waits).waits (List.Subset.refl _) (by simp [missing, Function.update_of_ne other])
        · rw [mem_settled waits]
          exact ⟨d, sent, by simp [missing], pieces, cut, _, slots⟩
      · rcases List.mem_append.mp given with before | now
        · exact inv.genuine payload before
        · rw [out, Option.mem_toList] at now
          exact ⟨d, sent, (gathered_genuine slots now).trans whole⟩

variable [DecidableEq ι]

theorem Air.Inv.send {a : Air ι} (inv : a.Inv) (station : ι) (payload : Bytes) (capacity : Nat) :
    (a.send station payload capacity).Inv := by
  unfold Air.send
  extract_lets number numbers
  cases made : fragments payload number capacity with
  | error error => exact ⟨inv.made, inv.owned, inv.genuine⟩
  | ok frames =>
    have more : a.sent ⊆ a.sent ++ [⟨station, number, capacity, payload, frames⟩] := List.subset_append_left _ _
    refine ⟨fun d member => ?_, fun w waits => (inv.owned w waits).waits more rfl, fun payload given => ?_⟩
    · rcases List.mem_append.mp member with old | new
      · exact inv.made d old
      · cases List.mem_singleton.mp new
        exact made
    · obtain ⟨d, member, same⟩ := inv.genuine payload given
      exact ⟨d, more member, same⟩

theorem Air.Inv.step {a : Air ι} (inv : a.Inv) (event : AirEvent ι) (possible : a.Possible event)
    (apart : a.Apart event) : (a.step event).Inv := by
  cases event with
  | send station payload capacity => exact inv.send station payload capacity
  | hear datagram frame nowS => exact inv.hear possible apart
  | expire nowS =>
    exact ⟨inv.made, fun w waits => inv.owned w (List.mem_of_mem_filter waits), inv.genuine⟩

/-- In a run that puts no piece in another datagram's place, what is joined was sent. -/
theorem airRun_genuine {a : Air ι} (run : AirRun Air.Apart a) : a.Genuine := by
  suffices inv : a.Inv from inv.genuine
  induction run with
  | start timeoutS keep => exact ⟨nofun, nofun, nofun⟩
  | step _ event possible apart ih => exact ih.step event possible apart

/-- The frames of a station's first datagram, of two pieces, an eight-byte header and a byte. -/
def firstSent (station : Bool) (call : Bytes) (byte : UInt8) : Sent Bool where
  station := station
  number := 1
  capacity := 11
  payload := call ++ [2, byte]
  frames := [[192, 1, 1] ++ call ++ [2], [193, 17, 1, 0, 1, byte, 0, 0, 0, 0, 0]]

/-- One station's datagram, its last frame heard first. -/
theorem airRun_genuine_turned :
    let d := firstSent false [93, 192, 87, 0, 0, 0, 0] 65
    let start : Air Bool := { receiver := .new 120 8 }
    let a := ((start.step (.send false d.payload 11)).step (.hear d [193, 17, 1, 0, 1, 65, 0, 0, 0, 0, 0] 0)).step
      (.hear d [192, 1, 1, 93, 192, 87, 0, 0, 0, 0, 2] 1)
    a.joined = [d.payload] ∧ a.Genuine := by
  intro d start a
  have sent : AirRun Air.Apart (start.step (.send false d.payload 11)) :=
    .step (.start 120 8) (.send false d.payload 11) trivial trivial
  have last : AirRun Air.Apart ((start.step (.send false d.payload 11)).step
      (.hear d [193, 17, 1, 0, 1, 65, 0, 0, 0, 0, 0] 0)) := by
    refine .step sent _ ⟨(by decide), (by decide)⟩ fun f read w waits => ?_
    have none_ : ((start.step (.send false d.payload 11)).receiver.expire 0).waiting = [] := by decide
    rw [none_] at waits
    cases waits
  have both : AirRun Air.Apart a := by
    refine .step last _ ⟨(by decide), (by decide)⟩ fun f read w _ _ _ => ?_
    have known : readFragment [192, 1, 1, 93, 192, 87, 0, 0, 0, 0, 2] =
        some ⟨1, 0, 1, [93, 192, 87, 0, 0, 0, 0, 2]⟩ := by decide
    cases known.symm.trans read
    decide
  exact ⟨by decide +kernel, airRun_genuine both⟩

/-- Two stations' first datagrams, one piece of each heard: the first's callsign over the
second's byte. -/
theorem crossing_joined :
    let d := firstSent false [93, 192, 87, 0, 0, 0, 0] 65
    let d' := firstSent true [45, 192, 66, 12, 0, 0, 0] 66
    ∃ a, AirRun (fun _ _ => True) a ∧ a.sent = [d, d'] ∧ a.joined = [[93, 192, 87, 0, 0, 0, 0, 2, 66]] ∧
      parseBody [93, 192, 87, 0, 0, 0, 0, 2, 66] = some ("W1AW".toList, 2, [66]) ∧ ¬a.Genuine := by
  intro d d'
  have joined (a : Air Bool) (sent : a.sent = [d, d']) (is : a.joined = [[93, 192, 87, 0, 0, 0, 0, 2, 66]]) :
      ¬a.Genuine := by
    unfold Air.Genuine
    rw [sent, is]
    decide
  have sent : AirRun (fun _ _ => True) ((({ receiver := .new 120 8 } : Air Bool).step
      (.send false d.payload 11)).step (.send true d'.payload 11)) :=
    .step (.step (.start 120 8) (.send false d.payload 11) trivial trivial) (.send true d'.payload 11) trivial trivial
  have first := sent.step (.hear d [192, 1, 1, 93, 192, 87, 0, 0, 0, 0, 2] 0)
    ⟨(by decide), (by decide)⟩ trivial
  have second := first.step (.hear d' [193, 17, 1, 0, 1, 66, 0, 0, 0, 0, 0] 1)
    ⟨(by decide), (by decide)⟩ trivial
  exact ⟨_, second, by decide, by decide +kernel, by decide,
    joined _ (by decide) (by decide +kernel)⟩

end AetherHF.Link.Datagram

import Mathlib.Data.Nat.PSub
import AetherHF.Regulatory.Narrowing

/-! The fastest rung of an air the rules allow. The rungs are judged with a growing envelope,
and each burst is sent in its own edges: the ceiling covers them where narrower audio is
judged no worse. -/
namespace AetherHF.Regulatory

structure RungOccupancy where
  name : String
  /-- What it occupies, absolute audio hertz. -/
  edges : Edges

/-- One air interface's transmissions, as absolute audio frequencies. -/
structure AirOccupancy where
  /-- Every rung of the ladder, in order. -/
  rungs : List RungOccupancy
  controlOrdinary : Edges
  controlFloor : Edges

/-- What the control frame of a family occupies. -/
def AirOccupancy.control (air : AirOccupancy) (floor : Bool) : Edges :=
  if floor then air.controlFloor else air.controlOrdinary

/-- The fastest rung the rules allow, and the refusal of the next. -/
structure Ceiling where
  rung : Option Nat
  limit : Option Decision

namespace Policy

/-- The rungs still to judge: `envelope` is the union of those before, `best` the last of them. -/
def ceilingFrom (policy : Policy) (s : Situation) (air : AirOccupancy) (direction : Direction) (isFloor : Nat → Bool)
    (envelope : Option Edges) (best : Option Nat) (index : Nat) : List RungOccupancy → Ceiling
  | [] => { rung := best, limit := none }
  | rung :: rest =>
    let edges := rung.edges.union (air.control (isFloor index))
    let edges := envelope.elim edges (·.union edges)
    let decision := policy.evaluate s
      { what := "rung " ++ toString index ++ " (" ++ rung.name ++ ")", kind := .data, audio := edges, direction }
    if !decision.allowed then { rung := best, limit := some decision }
    else policy.ceilingFrom s air direction isFloor (some edges) (some index) (index + 1) rest

/-- The fastest rung of `air` the rules allow for a data exchange of `direction`: each rung
judged with its control frame and every slower rung. -/
def ceiling (policy : Policy) (s : Situation) (air : AirOccupancy) (direction : Direction) (isFloor : Nat → Bool) : Ceiling :=
  policy.ceilingFrom s air direction isFloor none none 0 air.rungs

/-- Data of a direction goes in these edges. -/
def Allows (policy : Policy) (s : Situation) (direction : Direction) (edges : Edges) : Prop :=
  ∀ what, (policy.evaluate s ⟨what, .data, edges, direction⟩).allowed = true

end Policy

/-! ### What is sent under a rung -/

/-- The smallest edges holding all of a selection. -/
def Edges.joined : List Edges → Option Edges
  | [] => none
  | first :: rest => some (rest.foldl Edges.union first)

/-- The data frames of the first `count` rungs, and the control frames of their families. -/
def AirOccupancy.frames (air : AirOccupancy) (isFloor : Nat → Bool) (count : Nat) : List Edges :=
  (air.rungs.take count).zipIdx.flatMap fun (rung, index) => [rung.edges, air.control (isFloor index)]

namespace Edges

theorem joined_le_iff {frames : List Edges} {union outer : Edges} (joined_ : joined frames = some union) :
    union ≤ outer ↔ ∀ frame ∈ frames, frame ≤ outer := by
  cases frames with
  | nil => cases joined_
  | cons first rest =>
    obtain rfl := Option.some.inj joined_
    rw [List.forall_mem_cons]
    exact foldl_sup_le_iff

theorem le_joined {frames : List Edges} {union : Edges} (joined_ : joined frames = some union) {frame : Edges}
    (member : frame ∈ frames) : frame ≤ union :=
  (joined_le_iff joined_).mp le_rfl frame member

/-- A selection's union is inside the union of all. -/
theorem joined_mono {frames all : List Edges} {union whole : Edges} (joined_ : joined frames = some union)
    (joined' : joined all = some whole) (among : frames ⊆ all) : union ≤ whole :=
  (joined_le_iff joined_).mpr fun _ member => le_joined joined' (among member)

/-- One rung more, as the loop grows its envelope. -/
theorem joined_append (frames : List Edges) (data control : Edges) :
    joined (frames ++ [data, control]) = some ((joined frames).elim (data.union control) (·.union (data.union control))) := by
  cases frames with
  | nil => rfl
  | cons first rest =>
    simp only [List.cons_append, joined, List.foldl_append, List.foldl_cons, List.foldl_nil, Option.elim_some]
    exact congrArg some (sup_assoc (rest.foldl union first) data control)

end Edges

namespace AirOccupancy

variable {air : AirOccupancy} {isFloor : Nat → Bool}

theorem frames_succ {count : Nat} {rung : RungOccupancy} (here : air.rungs[count]? = some rung) :
    air.frames isFloor (count + 1) = air.frames isFloor count ++ [rung.edges, air.control (isFloor count)] := by
  have long : count < air.rungs.length := (List.getElem?_eq_some_iff.mp here).1
  have length : (air.rungs.take count).length = count := List.length_take_of_le long.le
  unfold frames
  rw [List.take_add_one, here, List.zipIdx_append, List.flatMap_append, length, Nat.zero_add]
  rfl

structure Ordered (air : AirOccupancy) : Prop where
  rungs : ∀ rung ∈ air.rungs, rung.edges.Ordered
  ordinary : air.controlOrdinary.Ordered
  floor : air.controlFloor.Ordered

theorem Ordered.frames (ordered : air.Ordered) {count : Nat} {frame : Edges} (sent : frame ∈ air.frames isFloor count) :
    frame.Ordered := by
  obtain ⟨⟨rung, index⟩, listed, one⟩ := List.mem_flatMap.mp sent
  have member : rung ∈ air.rungs := List.mem_of_mem_take (List.fst_mem_of_mem_zipIdx listed)
  rcases List.mem_pair.mp one with rfl | rfl
  · exact ordered.rungs rung member
  · unfold control
    split
    · exact ordered.floor
    · exact ordered.ordinary

/-- With a margin of nothing or more, a selection's union is judged low to high. -/
theorem Ordered.upright_joined (ordered : air.Ordered) {margin : ℚ} (some_ : 0 ≤ margin) {reading : Reading} {count : Nat}
    {frames : List Edges} (among : frames ⊆ air.frames isFloor count) {union : Edges}
    (joined : Edges.joined frames = some union) : union.Upright reading margin := by
  cases frames with
  | nil => cases joined
  | cons first rest =>
    have member : first ∈ first :: rest := List.mem_cons_self ..
    have upright : first.Upright reading margin := (ordered.frames (among member)).upright reading some_
    exact upright.mono (Edges.le_joined joined member)

end AirOccupancy

/-! ### The loop -/

section
variable (policy : Policy) (s : Situation) (air : AirOccupancy) (direction : Direction) (isFloor : Nat → Bool)

/-- The first `count` rungs judged together, and let go. -/
def Reached (count : Nat) : Prop :=
  ∃ what union, Edges.joined (air.frames isFloor count) = some union ∧
    (policy.evaluate s ⟨what, .data, union, direction⟩).allowed = true

/-- What the loop makes of the rungs: the first `count` go, and the next is refused. -/
structure Offered (count : Nat) (ceiling : Ceiling) : Prop where
  rung : ceiling.rung = count.ppred
  reached : ∀ rung < count, Reached policy s air direction isFloor (rung + 1)
  limit : ∀ limit, ceiling.limit = some limit → count < air.rungs.length ∧ limit.allowed = false ∧
    ∃ what union, Edges.joined (air.frames isFloor (count + 1)) = some union ∧
      limit = policy.evaluate s ⟨what, .data, union, direction⟩
  whole : ceiling.limit = none → count = air.rungs.length

/-- Invariant: the rungs seen were let go, and the envelope is their union. -/
theorem ceilingFrom_offered (seen rest : List RungOccupancy) (rungs_eq : air.rungs = seen ++ rest)
    (reached : ∀ rung < seen.length, Reached policy s air direction isFloor (rung + 1)) :
    ∃ count, Offered policy s air direction isFloor count (policy.ceilingFrom s air direction isFloor
      (Edges.joined (air.frames isFloor seen.length)) seen.length.ppred seen.length rest) := by
  induction rest generalizing seen with
  | nil =>
    have whole : seen.length = air.rungs.length := by rw [rungs_eq, List.append_nil]
    exact ⟨seen.length, ⟨rfl, reached, fun _ given => (nomatch given), fun _ => whole⟩⟩
  | cons rung rest ih =>
    have here : air.rungs[seen.length]? = some rung := by
      rw [rungs_eq, List.getElem?_append_right le_rfl, Nat.sub_self]
      rfl
    have grown : air.frames isFloor (seen.length + 1) = _ := AirOccupancy.frames_succ here
    have envelope := Edges.joined_append (air.frames isFloor seen.length) rung.edges (air.control (isFloor seen.length))
    rw [← grown] at envelope
    unfold Policy.ceilingFrom
    simp only
    split
    · -- refused: the loop stops, with the rungs before it
      rename_i refused
      refine ⟨seen.length, ⟨rfl, reached, ?_, fun none_ => (nomatch none_)⟩⟩
      intro limit given
      obtain rfl := Option.some.inj given
      have long : seen.length < air.rungs.length := (List.getElem?_eq_some_iff.mp here).1
      exact ⟨long, by simpa using refused, _, _, envelope, rfl⟩
    · rename_i goes
      have split_ : air.rungs = (seen ++ [rung]) ++ rest := by rw [rungs_eq, List.append_assoc, List.singleton_append]
      have length : (seen ++ [rung]).length = seen.length + 1 := List.length_append
      have next := ih (seen ++ [rung]) split_ (fun r lt => by
        rw [length] at lt
        rcases Nat.lt_succ_iff_lt_or_eq.mp lt with before | rfl
        · exact reached r before
        · exact ⟨_, _, envelope, by simpa using goes⟩)
      rw [length, envelope, Nat.ppred_succ] at next
      exact next

theorem ceiling_offered : ∃ count, Offered policy s air direction isFloor count (policy.ceiling s air direction isFloor) :=
  ceilingFrom_offered policy s air direction isFloor [] air.rungs rfl fun _ lt => absurd lt (Nat.not_lt_zero _)

end

/-! ### What the ceiling covers -/

section
variable {profile : Profile} {s : Situation} {direction : Direction}

/-- The judgement does not hang on the name. -/
theorem allows_of_allowed {edges : Edges} {what : String}
    (allowed : ((Policy.rules profile).evaluate s ⟨what, .data, edges, direction⟩).allowed = true) :
    (Policy.rules profile).Allows s direction edges := by
  intro what'
  obtain ⟨_, admitted⟩ := (evaluate_allowed_iff rfl).mp allowed
  exact (evaluate_allowed_iff rfl).mpr ⟨_, admitted.renamed what'⟩

/-- Every selection of the frames reached goes. -/
theorem Steady.allows_of_reached (steady : Steady profile) {air : AirOccupancy} {isFloor : Nat → Bool} {count : Nat}
    (reached : Reached (.rules profile) s air direction isFloor count) {frames : List Edges}
    (among : frames ⊆ air.frames isFloor count) {union : Edges} (joined : Edges.joined frames = some union)
    (upright : union.Upright profile.reading s.marginHz) :
    (Policy.rules profile).Allows s direction union := by
  obtain ⟨what, whole, joined', allowed⟩ := reached
  have inside := Edges.joined_mono joined joined' among
  exact fun _ => steady.evaluate_narrower inside upright allowed

end

/-- For the United States profile: everything sent under the ceiling goes, whatever selection
of its frames makes a burst; one rung past it is refused. -/
theorem us_ceiling_covers (profile : Profile) (loaded : load "us-fcc-part97" = .ok profile) (s : Situation)
    (air : AirOccupancy) (direction : Direction) (isFloor : Nat → Bool) :
    let policy := Policy.rules profile
    let ceiling := policy.ceiling s air direction isFloor
    (∀ rung, ceiling.rung = some rung → ∀ frames ⊆ air.frames isFloor (rung + 1), ∀ union,
      Edges.joined frames = some union → union.Upright profile.reading s.marginHz → policy.Allows s direction union) ∧
    (∀ limit, ceiling.limit = some limit → limit.allowed = false ∧
      ∃ next < air.rungs.length, (∀ rung, ceiling.rung = some rung ↔ rung + 1 = next) ∧
        ∃ union, Edges.joined (air.frames isFloor (next + 1)) = some union ∧
          ∀ what, (policy.evaluate s ⟨what, .data, union, direction⟩).allowed = false) ∧
    ∀ inner outer : Edges, inner ≤ outer → inner.Upright profile.reading s.marginHz →
      ∀ what, (policy.evaluate s ⟨what, .data, outer, direction⟩).allowed = true → policy.Allows s direction inner := by
  intro policy ceiling
  have steady : Steady profile := by
    obtain rfl := Except.ok.inj (load_us.symm.trans loaded)
    exact steady_us
  obtain ⟨count, offered⟩ := ceiling_offered policy s air direction isFloor
  have offers (rung : Nat) : ceiling.rung = some rung ↔ rung + 1 = count := by
    rw [offered.rung, Nat.ppred_eq_some]
  refine ⟨fun rung given frames among union joined upright => ?_, fun limit given => ?_,
    fun inner outer inside upright what allowed what' => steady.evaluate_narrower inside upright allowed⟩
  · have fast : rung < count := (offers rung).mp given ▸ Nat.lt_succ_self rung
    exact steady.allows_of_reached (offered.reached rung fast) among joined upright
  · obtain ⟨long, refused, what, union, joined, judged⟩ := offered.limit limit given
    refine ⟨refused, count, long, offers, union, joined, fun what' => ?_⟩
    rw [judged] at refused
    by_contra goes
    have allowed := allows_of_allowed (Bool.not_eq_false _ ▸ goes) what
    rw [refused] at allowed
    cases allowed

/-- A ladder of two rungs, the second too wide for where `nearEdge` is. -/
def twoRungs : AirOccupancy where
  rungs := [⟨"slow", ⟨(1200, 1800), (1100, 1900)⟩⟩, ⟨"fast", ⟨(500, 2500), (400, 2600)⟩⟩]
  controlOrdinary := ⟨(1300, 1700), (1250, 1750)⟩
  controlFloor := ⟨(1400, 1600), (1350, 1650)⟩

def nearEdge : Situation := { attended with dialHz := some 7122500, marginHz := 50 }

theorem twoRungs_ordered : twoRungs.Ordered where
  rungs := by decide
  ordinary := by decide
  floor := by decide

theorem us_ceiling_covers_nearEdge :
    ((Policy.rules UsFcc.profile).ceiling nearEdge twoRungs .originate (· < 1)).rung = some 0 ∧
      (∀ union, Edges.joined [twoRungs.controlFloor] = some union →
        (Policy.rules UsFcc.profile).Allows nearEdge .originate union) ∧
      ∃ limit, ((Policy.rules UsFcc.profile).ceiling nearEdge twoRungs .originate (· < 1)).limit = some limit ∧
        limit.allowed = false := by
  have slow : ((Policy.rules UsFcc.profile).ceiling nearEdge twoRungs .originate (· < 1)).rung = some 0 := by
    decide +kernel
  have stops : ((Policy.rules UsFcc.profile).ceiling nearEdge twoRungs .originate (· < 1)).limit.isSome = true := by
    decide +kernel
  obtain ⟨covers, refuses, _⟩ := us_ceiling_covers UsFcc.profile load_us nearEdge twoRungs .originate (· < 1)
  obtain ⟨limit, given⟩ := Option.isSome_iff_exists.mp stops
  have among : [twoRungs.controlFloor] ⊆ twoRungs.frames (· < 1) 1 := by decide +kernel
  refine ⟨slow, fun union joined => covers 0 slow [twoRungs.controlFloor] among union joined ?_, limit, given,
    (refuses limit given).1⟩
  exact twoRungs_ordered.upright_joined (by decide) among joined

/-- A margin below zero: what is judged of a narrow signal runs from high to low. -/
def reversed : Situation := { attended with dialHz := some 5346500, marginHz := -1000 }

def acrossChannel : Edges := ⟨(100, 3900), (100, 3900)⟩

def atItsEdge : Edges := ⟨(3800, 3900), (3800, 3900)⟩

def oneRung : AirOccupancy := ⟨[⟨"wide", acrossChannel⟩], atItsEdge, atItsEdge⟩

theorem oneRung_ordered : oneRung.Ordered where
  rungs := by decide
  ordinary := by decide
  floor := by decide

/-- With a margin below zero, a control frame under the ceiling is refused on its own. -/
theorem reversed_uncovered :
    (¬∀ (profile : Profile) (_ : load "us-fcc-part97" = .ok profile) (s : Situation) (air : AirOccupancy)
      (_ : air.Ordered) (direction : Direction) (isFloor : Nat → Bool) (rung : Nat),
      ((Policy.rules profile).ceiling s air direction isFloor).rung = some rung →
        ∀ frames ⊆ air.frames isFloor (rung + 1), ∀ union, Edges.joined frames = some union →
          (Policy.rules profile).Allows s direction union) ∧
    ¬∀ (profile : Profile) (_ : load "us-fcc-part97" = .ok profile) (s : Situation) (direction : Direction)
      (inner outer : Edges), inner.Ordered → outer.Ordered → inner ≤ outer →
        (Policy.rules profile).Allows s direction outer → (Policy.rules profile).Allows s direction inner := by
  have refused : ((Policy.rules UsFcc.profile).evaluate reversed ⟨"", .data, atItsEdge, .originate⟩).allowed = false := by
    decide +kernel
  have allowed : ((Policy.rules UsFcc.profile).evaluate reversed ⟨"", .data, acrossChannel, .originate⟩).allowed = true := by
    decide +kernel
  constructor
  · intro covers
    have goes := covers UsFcc.profile load_us reversed oneRung oneRung_ordered .originate (fun _ => false) 0
      (by decide +kernel) [atItsEdge] (by decide +kernel) atItsEdge rfl ""
    rw [refused] at goes
    cases goes
  · intro narrower
    have wide : (Policy.rules UsFcc.profile).Allows reversed .originate acrossChannel := allows_of_allowed allowed
    have goes := narrower UsFcc.profile load_us reversed .originate atItsEdge acrossChannel (by decide) (by decide)
      (by decide) wide ""
    rw [refused] at goes
    cases goes

end AetherHF.Regulatory

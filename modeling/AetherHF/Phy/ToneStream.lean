import Mathlib.Data.List.Sort
import Mathlib.Data.Prod.Lex
import Mathlib.Order.WithBot
import AetherHF.Base.Stream

/-! Tone frames on a live stream: candidate starts judged as their rows come in, settled
against their neighbours, the frames taken and the frames announced. -/
namespace AetherHF.Phy

/-! ### The tone floor -/

def symbolSamples : Nat := 320
def syncSymbols : Nat := 8
def hopDiv : Nat := 4
def lookahead : Int := 4
def announceLookahead : Int := 12

/-- Samples between spectrogram rows. -/
def hop : Nat := symbolSamples / hopDiv

/-- A kind of tone frame. -/
structure ToneKind where
  dataSymbols : Nat
  dataSymbolSamples : Nat
  deriving DecidableEq, Repr

namespace ToneKind

variable (kind : ToneKind)

/-- Data symbols a slot. -/
def speed : Nat := symbolSamples / kind.dataSymbolSamples

/-- Slots the data takes. -/
def dataSlots : Nat := kind.dataSymbols / kind.speed

/-- The frame's length in slots. -/
def symbols : Nat := kind.dataSlots + 3 * syncSymbols

def samples : Nat := kind.symbols * symbolSamples

/-- First slot of each sync block: start, middle, end. -/
def blockOffsets : List Nat := [0, syncSymbols + kind.dataSlots * 9 / 20, kind.symbols - syncSymbols]

/-- Hops from the first sync row to the last. -/
def hops : Int := hopDiv * ((kind.symbols : Int) - 1)

end ToneKind

/-- A tone frame found; `reading`, its carrier offset, statistic and count. -/
structure ToneSync (ρ : Type) where
  start : Nat
  kind : ToneKind
  rv : Nat
  reading : ρ
  deriving DecidableEq, Repr

/-- A tone frame whose first sync block is in and whose end is not. -/
structure ToneArrival (V : Type) where
  start : Nat
  kind : ToneKind
  rv : Nat
  /-- The first block's statistic. -/
  statistic : V
  deriving DecidableEq, Repr

def ToneArrival.end_ {V : Type} (arrival : ToneArrival V) : Nat := arrival.start + arrival.kind.samples

/-- A candidate: start row, statistic, hypothesis, offset bin. -/
structure Candidate (V : Type) where
  h : Int
  v : V
  i : Nat
  c : Int
  deriving DecidableEq, Repr

/-- What the detector makes of a stream. -/
structure ToneDetector (V Row ρ : Type) where
  /-- Every kind and redundancy version the patterns can name. -/
  hypotheses : List (ToneKind × Nat)
  threshold : V
  announceThreshold : V
  /-- The ratio row of the symbol-long window at a sample of the stream. -/
  ratiosAt : Int → Row
  best : (Int → Option Row) → Int → List Nat → Bool → Option (V × Nat × Int)
  refine_ : ToneKind → Nat → Nat → Int → ToneSync ρ
  confirmed : ToneSync ρ → Bool
  twoCleanBlocks : ToneSync ρ → Bool

/-- The streaming counterpart of the detector. -/
structure ToneStream (V Row : Type) where
  /-- Ratio rows from absolute hop `firstRow` on. -/
  rows : List Row
  firstRow : Int
  nextHop : Int
  /-- Per frame length: its hypotheses, and the next start not yet evaluated. -/
  groups : List (Int × List Nat × Int)
  nextFirst : Int
  firstHops : Int
  candidates : List (Candidate V)
  firsts : List (Candidate V)
  /-- Frames taken: start, end and the statistic they were taken at. -/
  taken : List (Nat × Nat × V)
  /-- Frames announced and not yet final. -/
  arriving : List (ToneArrival V)
  /-- Announcements whose frame has just ended untaken. -/
  lapsed : List (ToneArrival V)
  deriving DecidableEq, Repr

variable {V Row ρ : Type} [LinearOrder V]

/-- The order candidates settle in. -/
def Candidate.key (x : Candidate V) : Int ×ₗ V ×ₗ Nat ×ₗ Int := toLex (x.h, toLex (x.v, toLex (x.i, x.c)))

def Candidate.before (x y : Candidate V) : Prop := x.key ≤ y.key

instance : DecidableRel (Candidate.before (V := V)) := fun x y => inferInstanceAs (Decidable (x.key ≤ y.key))

instance : Std.Total (Candidate.before (V := V)) := ⟨fun x y => le_total x.key y.key⟩

instance : IsTrans (Candidate V) Candidate.before := ⟨fun _ _ _ first second => le_trans (α := Int ×ₗ V ×ₗ Nat ×ₗ Int) first second⟩

/-- The candidates still waiting, in order. -/
def snapshot (candidates : List (Candidate V)) : List (Candidate V) := candidates.insertionSort Candidate.before

/-- The best statistic within `reach` of `h`. -/
def near (candidates : List (Candidate V)) (h reach : Int) : WithBot V :=
  ((candidates.filter fun x => ((x.h - h).natAbs : Int) ≤ reach).map fun x => (x.v : WithBot V)).foldl max ⊥

/-- A kind and redundancy version of the detector's. -/
def ToneDetector.hypothesis (det : ToneDetector V Row ρ) (i : Nat) : ToneKind × Nat := det.hypotheses.getD i (⟨0, 1⟩, 0)

namespace ToneStream

/-- A hypothesis goes with those of its frame length. -/
def joined (groups : List (Int × List Nat × Int)) (x : (ToneKind × Nat) × Nat) : List (Int × List Nat × Int) :=
  if groups.any (·.1 = x.1.1.hops) then
    groups.map fun group => if group.1 = x.1.1.hops then (group.1, group.2.1 ++ [x.2], group.2.2) else group
  else groups ++ [(x.1.1.hops, [x.2], 0)]

/-- Frame lengths, each with the hypotheses of that length. -/
def grouped (hypotheses : List (ToneKind × Nat)) : List (Int × List Nat × Int) := hypotheses.zipIdx.foldl joined []

def withDetector (det : ToneDetector V Row ρ) : ToneStream V Row :=
  ⟨[], 0, 0, grouped det.hypotheses, 0, hopDiv * ((syncSymbols : Int) - 1), [], [], [], [], []⟩

variable (det : ToneDetector V Row ρ) (s : ToneStream V Row)

def row (h : Int) : Option Row := if h < s.firstRow then none else s.rows[(h - s.firstRow).toNat]?

/-- Where the rows go on, in a buffer that starts at `abs0`. -/
def resume (abs0 : Nat) : ToneStream V Row :=
  let ceil : Int := ((abs0 : Int) + hop - 1) / hop
  let nextHop := if ceil > s.nextHop then ceil else s.nextHop
  { s with nextHop, firstRow := if s.rows = [] then nextHop else s.firstRow }

/-- The hops whose rows a buffer that ends at `stop` completes. -/
def newHops (stop : Nat) : List Int :=
  (List.range (((stop : Int) - symbolSamples) / hop + 1 - s.nextHop).toNat).map fun k : Nat => s.nextHop + (k : Int)

def pushRow (h : Int) : ToneStream V Row :=
  let row := det.ratiosAt (h * hop)
  if s.firstRow + s.rows.length ≠ h then { s with rows := [row], firstRow := h, nextHop := h + 1 }
  else { s with rows := s.rows ++ [row], nextHop := h + 1 }

def readRows (stop : Nat) : ToneStream V Row := (s.newHops stop).foldl (pushRow det) s

def oldest : Int := if s.rows = [] then s.nextHop else s.firstRow

/-- The starts a frontier goes past. -/
def starts (next oldest last : Int) : List Int :=
  (List.range (last + 1 - max next oldest).toNat).map fun k : Nat => max next oldest + (k : Int)

/-- What a start reads best as, where it reads at `threshold`. -/
def judge (threshold : V) (hyps : List Nat) (first : Bool) (h : Int) : Option (Candidate V) :=
  match det.best s.row h hyps first with
  | some (v, i, c) => if threshold ≤ v then some ⟨h, v, i, c⟩ else none
  | none => none

/-- Every hypothesis at every start whose rows are all in, and the first blocks. -/
def judgeAll : ToneStream V Row :=
  let candidates := s.groups.flatMap fun group =>
    (starts group.2.2 s.oldest (s.nextHop - 1 - group.1)).filterMap (judge det s det.threshold group.2.1 false)
  let firsts := (starts s.nextFirst s.oldest (s.nextHop - 1 - s.firstHops)).filterMap
    (judge det s det.announceThreshold (List.range det.hypotheses.length) true)
  { s with
    groups := s.groups.map fun group => (group.1, group.2.1, max group.2.2 (s.nextHop - 1 - group.1 + 1))
    candidates := s.candidates ++ candidates
    firsts := s.firsts ++ firsts
    nextFirst := max s.nextFirst (s.nextHop - 1 - s.firstHops + 1) }

/-- None, where no frame length is the kind's. -/
def frontierOf (kind : ToneKind) : Option Int := (s.groups.find? (·.1 = kind.hops)).map (·.2.2)

/-- Distance either way. -/
def absDiff (a b : Nat) : Nat := max a b - min a b

/-- Whether `span` overlaps a frame taken by more than a coarse start is off by. -/
def overlaps (span : Nat × Nat) (statistic : WithBot V) : Bool :=
  let tol := hopDiv / 2 * hop
  let block := syncSymbols * symbolSamples + tol
  s.taken.any fun frame =>
    let over_ := span.1 + tol < frame.2.1 && frame.1 + tol < span.2
    let slight := min frame.2.1 span.2 - max frame.1 span.1 ≤ block
    over_ && !(decide ((frame.2.2 : WithBot V) < statistic) && slight)

/-- Whether a frame announced as arriving starts inside a `kind` frame at `start`. -/
def announcedInside (start : Nat) (kind : ToneKind) (statistic : V) (first : Bool) : Bool :=
  let stop := start + kind.samples
  let own (at_ : Nat) : Bool :=
    first && (kind.blockOffsets.drop 1).any fun o => absDiff at_ (start + o * symbolSamples) ≤ symbolSamples
  s.arriving.any fun a =>
    start + symbolSamples < a.start && a.start + symbolSamples < stop && decide (statistic ≤ a.statistic) && !own a.start

/-- Whether the hypothesis' first block passes on its own. -/
def firstStands (h : Int) (i : Nat) : Bool :=
  match det.best s.row h [i] true with
  | some (v, _, _) => det.announceThreshold ≤ v
  | none => false

/-- A candidate not yet final: starts near it are still to be evaluated. -/
def waits (x : Candidate V) : Bool := (s.frontierOf (det.hypothesis x.i).1).any (x.h + lookahead ≥ ·)

/-- A candidate against those waiting with it: kept waiting, dropped, or taken. -/
def settleOne (waiting : List (Candidate V)) (abs0 : Nat) (x : Candidate V) :
    ToneStream V Row × List (Candidate V) × List (ToneSync ρ) :=
  if s.waits det x then (s, [x], [])
  else
    let (kind, rv) := det.hypothesis x.i
    let start := x.h.toNat * hop
    if (x.v : WithBot V) < near waiting x.h lookahead || s.overlaps (start, start + kind.samples) x.v || start < abs0 then
      (s, [], [])
    else if s.announcedInside start kind x.v true then (s, [], [])
    else
      let own := !s.firstStands det x.h x.i && s.announcedInside start kind x.v false
      let sync := det.refine_ kind rv start x.c
      if !det.confirmed sync then (s, [], [])
      else if own && !det.twoCleanBlocks sync then (s, [], [])
      else
        let taken := s.taken ++ [(sync.start, sync.start + kind.samples, x.v)]
        ({ s with taken := if taken.length > 16 then taken.tail else taken }, [], [sync])

def settleAll (waiting : List (Candidate V)) (abs0 : Nat) (s : ToneStream V Row) :
    List (Candidate V) → ToneStream V Row × List (Candidate V) × List (ToneSync ρ)
  | [] => (s, [], [])
  | x :: rest =>
    let (s, keep, found) := s.settleOne det waiting abs0 x
    let (s, later, more) := settleAll waiting abs0 s rest
    (s, keep ++ later, found ++ more)

/-- The candidates now final. -/
def settle (abs0 : Nat) : ToneStream V Row × List (ToneSync ρ) :=
  let (s', keep, found) := settleAll det (snapshot s.candidates) abs0 s (snapshot s.candidates)
  ({ s' with candidates := keep }, found)

/-- Whether a first block at `start` is `arrival`'s own middle or end block, to a symbol. -/
def ownBlock (arrival : ToneArrival V) (start : Nat) : Bool :=
  (arrival.kind.blockOffsets.drop 1).any fun o => absDiff start (arrival.start + o * symbolSamples) ≤ symbolSamples

/-- A first block against those waiting with it: kept waiting, dropped, or announced. -/
def announceOne (waiting : List (Candidate V)) (x : Candidate V) : ToneStream V Row × List (Candidate V) :=
  if x.h + announceLookahead ≥ s.nextFirst then (s, [x])
  else
    let (kind, rv) := det.hypothesis x.i
    let start := x.h.toNat * hop
    if (x.v : WithBot V) < near waiting x.h announceLookahead || s.overlaps (start, start + kind.samples) ⊥ then (s, [])
    else
      let inside (a : ToneArrival V) : Bool := (a.start : Int) - hop < start && start + hop < a.end_
      if (s.arriving ++ s.lapsed).any fun a => inside a && (ownBlock a start || decide (x.v ≤ a.statistic)) then (s, [])
      else ({ s with arriving := s.arriving.filter (!inside ·) ++ [⟨start, kind, rv, x.v⟩] }, [])

def announceAll (waiting : List (Candidate V)) (s : ToneStream V Row) :
    List (Candidate V) → ToneStream V Row × List (Candidate V)
  | [] => (s, [])
  | x :: rest =>
    let (s, keep) := s.announceOne det waiting x
    let (s, later) := announceAll waiting s rest
    (s, keep ++ later)

/-- An announcement lasts until its frame is taken or its end has passed. -/
def lapse : ToneStream V Row :=
  let now := (max s.nextHop 0).toNat * hop
  let grace := 2 * syncSymbols * symbolSamples
  let ended := s.arriving.filter fun a => a.end_ + hop ≤ now
  { s with
    lapsed := (s.lapsed ++ ended).filter fun a => a.end_ + grace > now
    arriving := s.arriving.filter fun a => a.end_ + hop > now && !s.overlaps (a.start + hop, a.end_ - hop) ⊥ }

def announce : ToneStream V Row :=
  let (s', keep) := announceAll det (snapshot s.firsts) s (snapshot s.firsts)
  { s' with firsts := keep }.lapse

/-- The first hop a start still to be evaluated needs. -/
def need : Int :=
  (s.groups.map (·.2.2) ++ s.nextFirst :: (s.candidates.map (·.h) ++ s.firsts.map (·.h))).min?.getD s.nextHop

def dropRows : ToneStream V Row :=
  let count := min (s.need - s.firstRow).toNat s.rows.length
  { s with rows := s.rows.drop count, firstRow := s.firstRow + count }

/-- Frames final in a buffer from `abs0` to `stop`. -/
def feed (buffer : Nat × Nat) : ToneStream V Row × List (ToneSync ρ) :=
  let s := judgeAll det ((s.resume buffer.1).readRows det buffer.2)
  let (s, found) := s.settle det buffer.1
  ((s.announce det).dropRows, found)

end ToneStream

end AetherHF.Phy

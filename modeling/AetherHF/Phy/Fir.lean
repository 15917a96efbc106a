import AetherHF.Base.Filter
import AetherHF.Base.Stream

/-! The direct-form filter that keeps its state between calls: over any blocks it gives the
taps convolved with the stream over a zero past. -/
namespace AetherHF.Phy

open Filtering

/-- A filter and the tail of what it was last given. -/
structure Fir (K T : Type) where
  taps : List K
  history : List T
  /-- The source asserts it. -/
  nonempty : taps ≠ []
  sized : history.length = taps.length - 1

namespace Fir

section
variable {K T : Type} [Zero T]

def new (taps : List K) (nonempty : taps ≠ []) : Fir K T :=
  ⟨taps, List.replicate (taps.length - 1) 0, nonempty, List.length_replicate⟩

/-- Group delay in samples. -/
def delay (fir : Fir K T) : Nat := (fir.taps.length - 1) / 2

/-- Forget the state. -/
def reset (fir : Fir K T) : Fir K T :=
  { fir with
    history := List.replicate fir.history.length 0
    sized := List.length_replicate.trans fir.sized }

end

variable {K T : Type} [CommRing K] [AddCommGroup T] [Module K T] (fir : Fir K T)

/-- One sample of the output, from the tail and the block in one buffer. -/
def accumulate (buffer : List T) (at_ : Nat) : T :=
  fir.taps.zipIdx.foldl (fun acc e => acc + e.1 • buffer.getD (at_ - e.2) 0) 0

/-- Filter a block, carrying state across the boundary. -/
def process (block : List T) : Fir K T × List T :=
  if block.isEmpty then (fir, [])
  else
    let tail := fir.history.length
    let buffer := fir.history ++ block
    let out := (List.range block.length).map fun n => fir.accumulate buffer (tail + n)
    ({ fir with
        history := buffer.drop (buffer.length - tail)
        sized := by
          have := fir.sized
          rw [List.length_drop, List.length_append]
          omega }, out)

end Fir

/-! ### What it gives -/

section
variable {K T : Type} [Zero T]

/-- The filter of these taps once it has been given a stream. -/
structure Fed (taps : List K) (xs : List T) (fir : Fir K T) : Prop where
  same : fir.taps = taps
  tail : fir.history = (List.replicate (taps.length - 1) 0 ++ xs).drop xs.length

theorem fed_new {taps : List K} (nonempty : taps ≠ []) : Fed taps [] (Fir.new taps nonempty : Fir K T) :=
  ⟨rfl, by simp [Fir.new]⟩

theorem Fed.length {taps : List K} {xs : List T} {fir : Fir K T} (fed : Fed taps xs fir) :
    fir.history.length = taps.length - 1 := by
  rw [fir.sized, fed.same]

/-- A filter given zeros past its length holds none of the stream. -/
theorem Fed.emptied {taps : List K} {xs : List T} {fir : Fir K T} (fed : Fed taps xs fir)
    (zeros : ∀ i, xs.length < i + taps.length → sample xs i = 0) : fir.history = List.replicate (taps.length - 1) 0 := by
  refine List.eq_replicate_iff.mpr ⟨fed.length, fun x member => ?_⟩
  rw [fed.tail] at member
  obtain ⟨i, inside, rfl⟩ := List.mem_iff_getElem.mp member
  have inside' : i < taps.length - 1 := by
    rw [List.length_drop, List.length_append, List.length_replicate] at inside
    omega
  rw [List.getElem_drop]
  by_cases before : xs.length + i < taps.length - 1
  · rw [List.getElem_append_left (by simpa using before)]
    exact List.getElem_replicate ..
  · rw [List.getElem_append_right (by simpa using before)]
    have here := zeros (xs.length + i - (taps.length - 1)) (by omega)
    rw [sample, List.getD_eq_getElem _ _ (by omega)] at here
    simpa using here

end

variable {K T : Type} [CommRing K] [AddCommGroup T] [Module K T]

theorem Fir.length_process (fir : Fir K T) (block : List T) : (fir.process block).2.length = block.length := by
  unfold Fir.process
  cases block with
  | nil => rfl
  | cons x rest => simp

theorem foldl_zipIdx (taps : List K) (x : Nat → T) :
    taps.zipIdx.foldl (fun acc e => acc + e.1 • x e.2) 0 = ∑ k ∈ Finset.range taps.length, taps.getD k 0 • x k := by
  induction taps using List.reverseRecOn with
  | nil => simp
  | append_singleton taps tap ih =>
    have front : ∑ k ∈ Finset.range taps.length, (taps ++ [tap]).getD k 0 • x k =
        ∑ k ∈ Finset.range taps.length, taps.getD k 0 • x k :=
      Finset.sum_congr rfl fun k inside => by rw [List.getD_append _ _ _ _ (Finset.mem_range.mp inside)]
    rw [List.zipIdx_append, List.foldl_append, ih, List.length_append, List.length_singleton, Finset.sum_range_succ, front]
    simp

namespace Fed

variable {taps : List K} {xs : List T} {fir : Fir K T}

theorem accumulate (fed : Fed taps xs fir) (block : List T) (n : Nat) :
    fir.accumulate (fir.history ++ block) (fir.history.length + n) = convolve taps (sample (xs ++ block)) (xs.length + n) := by
  have positive : 0 < taps.length := List.length_pos_iff.mpr (fed.same ▸ fir.nonempty)
  unfold Fir.accumulate convolve
  refine (foldl_zipIdx fir.taps fun k => (fir.history ++ block).getD (fir.history.length + n - k) 0).trans ?_
  rw [fed.same]
  refine Finset.sum_congr rfl fun k inside => ?_
  have inside := Finset.mem_range.mp inside
  have length := fed.length
  have buffer : fir.history ++ block = (List.replicate (taps.length - 1) 0 ++ (xs ++ block)).drop xs.length := by
    have fits : xs.length ≤ (List.replicate (taps.length - 1) (0 : T) ++ xs).length := by simp
    rw [fed.tail, ← List.append_assoc, List.drop_append_of_le_length fits]
  have place : (fir.history ++ block).getD (fir.history.length + n - k) 0 =
      (List.replicate (taps.length - 1) 0 ++ (xs ++ block)).getD (xs.length + (taps.length - 1 + n - k)) 0 := by
    rw [buffer, length]
    simp [List.getD_eq_getElem?_getD]
  rw [place]
  by_cases past : k ≤ xs.length + n
  · have there : xs.length + (taps.length - 1 + n - k) - (taps.length - 1) = xs.length + n - k := by omega
    rw [if_pos past, List.getD_append_right _ _ _ _ (by rw [List.length_replicate]; omega), List.length_replicate, there]
    rfl
  · rw [if_neg past, List.getD_append _ _ _ _ (by rw [List.length_replicate]; omega), List.getD_replicate _ (by omega), smul_zero]

/-- A block's output is what the stream adds to the filtered stream. -/
theorem process (fed : Fed taps xs fir) (block : List T) :
    Fed taps (xs ++ block) (fir.process block).1 ∧
      filtered taps xs ++ (fir.process block).2 = filtered taps (xs ++ block) := by
  unfold Fir.process
  cases block with
  | nil => simpa using fed
  | cons x rest =>
    have length := fed.length
    rw [if_neg (by simp)]
    refine ⟨⟨fed.same, ?_⟩, ?_⟩
    · dsimp only
      rw [List.length_append, Nat.add_sub_cancel_left, fed.tail, ← List.drop_append_of_le_length (by simp), List.drop_drop,
        List.append_assoc, List.length_append]
    · rw [filtered_append]
      congr 1
      exact List.map_congr_left fun n _ => fed.accumulate (x :: rest) n

end Fed

/-- Over any blocks a filter gives the taps convolved with the stream over a zero past. -/
theorem Fir.run_new {taps : List K} (nonempty : taps ≠ []) (blocks : List (List T)) :
    Fed taps blocks.flatten (Stream.run Fir.process (Fir.new taps nonempty) blocks).1 ∧
      (Stream.run Fir.process (Fir.new taps nonempty) blocks).2 = filtered taps blocks.flatten := by
  have gives {xs : List T} {fir : Fir K T} (block : List T) (fed : Fed taps xs fir) := fed.process block
  simpa [filtered, firstOf] using Stream.run_gives gives (fed_new nonempty) blocks

end AetherHF.Phy

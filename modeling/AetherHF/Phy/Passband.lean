import Mathlib.Algebra.Module.Prod
import Mathlib.Tactic.Ring
import AetherHF.Phy.Blanker
import AetherHF.Phy.Fir

/-! Complex baseband and the real audio of a sound card: a band-limiting filter, a mixer and
a filter between the two rates, each way, over blocks of any size. The mixer is any function
of the sample's index. -/
namespace AetherHF.Phy

open Filtering

variable {K : Type} [CommRing K]

/-- The real part of a sample mixed up, by the cosine and the sine of the phase. -/
def mixUp (phase : K × K) (x : Sample K) : K := x.1 * phase.1 - x.2 * phase.2

def mixDown (phase : K × K) (x : K) : Sample K := (x * phase.1, x * phase.2)

/-- Baseband to the real audio a sound card plays. -/
structure BasebandToAudio (K : Type) where
  resampleFactor : Nat
  positive : 0 < resampleFactor
  mixer : Nat → K × K
  band : Fir K (Sample K)
  interpolate : Fir K K
  n0 : Nat

namespace BasebandToAudio

def new (resampleFactor : Nat) (positive : 0 < resampleFactor) (mixer : Nat → K × K) (bandTaps resampleTaps : List K)
    (bandSome : bandTaps ≠ []) (resampleSome : resampleTaps ≠ []) : BasebandToAudio K where
  resampleFactor
  positive
  mixer
  band := .new bandTaps bandSome
  interpolate := .new resampleTaps resampleSome
  n0 := 0

variable (s : BasebandToAudio K)

/-- Filtered samples mixed up, each with zeros after it up to the next. -/
def stuff (filtered : List (Sample K)) : List K :=
  filtered.zipIdx.foldl (fun stuffed e => stuffed.set (e.2 * s.resampleFactor) (mixUp (s.mixer (s.n0 + e.2)) e.1))
    (List.replicate (filtered.length * s.resampleFactor) 0)

/-- Convert a block of baseband samples to audio. -/
def process (baseband : List (Sample K)) : BasebandToAudio K × List K :=
  let (band, filtered) := s.band.process baseband
  let (interpolate, audio) := s.interpolate.process (s.stuff filtered)
  ({ s with band, interpolate, n0 := s.n0 + filtered.length }, audio)

/-- Baseband samples still inside the filters. -/
def tailSamples : Nat :=
  s.band.taps.length + divCeil s.interpolate.taps.length s.resampleFactor + 1

/-- Push the chain empty. -/
def flush : BasebandToAudio K × List K := s.process (List.replicate s.tailSamples 0)

end BasebandToAudio

/-- The audio a sound card captured, back to complex baseband. -/
structure AudioToBaseband (K : Type) where
  resampleFactor : Nat
  positive : 0 < resampleFactor
  mixer : Nat → K × K
  decimate : Fir K K
  band : Fir K (Sample K)
  phase : Nat
  n0 : Nat

/-- Every `r`th sample from an index on, and the index past the end. -/
def pick (r : Nat) (positive : 0 < r) (filtered : List K) (index : Nat) : List K × Nat :=
  if inside : index < filtered.length then
    let (low, past) := pick r positive filtered (index + r)
    (filtered.get ⟨index, inside⟩ :: low, past)
  else ([], index)
termination_by filtered.length - index

namespace AudioToBaseband

def new (resampleFactor : Nat) (positive : 0 < resampleFactor) (mixer : Nat → K × K) (resampleTaps bandTaps : List K)
    (resampleSome : resampleTaps ≠ []) (bandSome : bandTaps ≠ []) : AudioToBaseband K where
  resampleFactor
  positive
  mixer
  decimate := .new resampleTaps resampleSome
  band := .new bandTaps bandSome
  phase := 0
  n0 := 0

variable (s : AudioToBaseband K)

/-- Convert a block of audio to baseband. -/
def process (audio : List K) : AudioToBaseband K × List (Sample K) :=
  let (decimate, filtered) := s.decimate.process audio
  -- the phase carries across blocks, so a join neither drops nor repeats a sample
  let (low, index) := pick s.resampleFactor s.positive filtered s.phase
  let mixed := low.mapIdx fun i x => mixDown (s.mixer (s.n0 + i)) x
  let (band, out) := s.band.process mixed
  ({ s with decimate, band, phase := index - filtered.length, n0 := s.n0 + low.length },
    out.map fun x => 2 • x)

end AudioToBaseband

/-! ### The mixer and the two rates -/

section
variable {r : Nat}

@[simp] theorem mixUp_zero (phase : K × K) : mixUp phase 0 = 0 := by simp [mixUp]

/-- Mixed samples at the rate above, zero between them. -/
def stuffed (r : Nat) (mixer : Nat → K × K) (x : Nat → Sample K) (j : Nat) : K :=
  if j % r = 0 then mixUp (mixer (j / r)) (x (j / r)) else 0

/-- Values put at every `r`th place of a list of zeros. -/
theorem foldl_set (positive : 0 < r) {n : Nat} (value : Nat → Sample K → K) (none_ : ∀ i, value i 0 = 0)
    {ys : List (Sample K)} : ys.zipIdx.foldl (fun out e => out.set (e.2 * r) (value e.2 e.1)) (List.replicate n 0) =
      firstOf n fun j => if j % r = 0 then value (j / r) (sample ys (j / r)) else 0 := by
  induction ys using List.reverseRecOn with
  | nil =>
    refine (List.eq_replicate_iff.mpr ⟨length_firstOf .., fun x member => ?_⟩).symm
    obtain ⟨j, -, rfl⟩ := List.mem_map.mp member
    simp [none_]
  | append_singleton ys y ih =>
    rw [List.zipIdx_append, List.foldl_append, ih]
    refine List.ext_getElem (by simp) fun j inside inside' => ?_
    have inside' : j < n := by simpa using inside'
    simp only [List.zipIdx_cons, List.zipIdx_nil, List.foldl_cons, List.foldl_nil, List.getElem_set, firstOf, List.getElem_map,
      List.getElem_range, Nat.zero_add, sample_append]
    by_cases here : ys.length * r = j
    · rw [if_pos here, ← here, Nat.mul_mod_left, if_pos rfl, Nat.mul_div_left _ positive, if_neg (lt_irrefl _), Nat.sub_self]
      rfl
    · rw [if_neg here]
      by_cases kept : j % r = 0
      · have place : j / r ≠ ys.length := fun is => here (by rw [← is, Nat.div_mul_cancel (Nat.dvd_of_mod_eq_zero kept)])
        rw [if_pos kept, if_pos kept]
        by_cases before : j / r < ys.length
        · rw [if_pos before]
        · rw [if_neg before, sample_ended (by omega), sample_ended (by simp; omega)]
      · rw [if_neg kept, if_neg kept]

end

/-- All the audio of a stream of baseband, to the end of the filters. -/
def audioOf (r : Nat) (mixer : Nat → K × K) (bandTaps resampleTaps : List K) (xs : List (Sample K)) : Nat → K :=
  convolve resampleTaps (stuffed r mixer (convolve bandTaps (sample xs)))

/-- The baseband of a stream of audio. -/
def basebandOf (r : Nat) (mixer : Nat → K × K) (resampleTaps bandTaps : List K) (xs : List K) (m : Nat) : Sample K :=
  2 • convolve bandTaps (fun m => mixDown (mixer m) (convolve resampleTaps (sample xs) (m * r))) m

namespace BasebandToAudio

variable {r : Nat} {mixer : Nat → K × K} {bandTaps resampleTaps : List K} {xs : List (Sample K)} {s : BasebandToAudio K}

/-- The chain once it has been given a stream. -/
structure Carries (r : Nat) (mixer : Nat → K × K) (bandTaps resampleTaps : List K) (xs : List (Sample K))
    (s : BasebandToAudio K) : Prop where
  factor : s.resampleFactor = r
  mixed : s.mixer = mixer
  band : Fed bandTaps xs s.band
  interpolate : Fed resampleTaps (firstOf (xs.length * r) (stuffed r mixer (convolve bandTaps (sample xs)))) s.interpolate
  n0 : s.n0 = xs.length

theorem carries_new (positive : 0 < r) (bandSome : bandTaps ≠ []) (resampleSome : resampleTaps ≠ []) :
    Carries r mixer bandTaps resampleTaps [] (new r positive mixer bandTaps resampleTaps bandSome resampleSome) where
  factor := rfl
  mixed := rfl
  band := fed_new bandSome
  interpolate := by
    rw [List.length_nil, Nat.zero_mul]
    exact fed_new resampleSome
  n0 := rfl

namespace Carries

theorem stuff (h : Carries r mixer bandTaps resampleTaps xs s) (block : List (Sample K)) :
    firstOf (xs.length * r) (stuffed r mixer (convolve bandTaps (sample xs))) ++ s.stuff (s.band.process block).2 =
      firstOf ((xs ++ block).length * r) (stuffed r mixer (convolve bandTaps (sample (xs ++ block)))) := by
  have positive : 0 < r := h.factor ▸ s.positive
  have out : (s.band.process block).2 =
      firstOf block.length fun n => convolve bandTaps (sample (xs ++ block)) (xs.length + n) := by
    have whole := (h.band.process block).2
    rw [filtered_append] at whole
    exact List.append_cancel_left whole
  have length : (s.band.process block).2.length = block.length := by rw [out, length_firstOf]
  unfold BasebandToAudio.stuff
  rw [h.factor, h.mixed, h.n0, foldl_set positive (fun i => mixUp (mixer (xs.length + i))) (fun i => mixUp_zero _),
    List.length_append, Nat.add_mul, firstOf_add, length]
  congr 1
  · -- up to the block the stream is as it was
    refine firstOf_congr fun j inside => ?_
    have before : j / r < xs.length := (Nat.div_lt_iff_lt_mul positive).mpr inside
    unfold stuffed
    rw [convolve_congr (y := sample (xs ++ block)) fun i upTo => by rw [sample_append, if_pos (by omega)]]
  · refine firstOf_congr fun j inside => ?_
    have within : j / r < block.length := (Nat.div_lt_iff_lt_mul positive).mpr inside
    unfold stuffed
    rw [Nat.mul_add_mod_self_right, Nat.mul_comm, Nat.mul_add_div positive, out, sample_firstOf, if_pos within]

theorem process (h : Carries r mixer bandTaps resampleTaps xs s) (block : List (Sample K)) :
    Carries r mixer bandTaps resampleTaps (xs ++ block) (s.process block).1 ∧
      firstOf (xs.length * r) (audioOf r mixer bandTaps resampleTaps xs) ++ (s.process block).2 =
        firstOf ((xs ++ block).length * r) (audioOf r mixer bandTaps resampleTaps (xs ++ block)) := by
  obtain ⟨band, out⟩ := h.band.process block
  obtain ⟨interpolate, audio⟩ := h.interpolate.process (s.stuff (s.band.process block).2)
  have lengths := congrArg List.length out
  rw [List.length_append, length_filtered, length_filtered, List.length_append] at lengths
  rw [h.stuff block] at interpolate audio
  rw [filtered_firstOf, filtered_firstOf] at audio
  exact ⟨⟨h.factor, h.mixed, band, interpolate, by simp only [BasebandToAudio.process, List.length_append, h.n0, lengths]⟩, audio⟩

/-- A flush leaves nothing of a stream in the filters, and no more of it is to come. -/
theorem flush (h : Carries r mixer bandTaps resampleTaps xs s) :
    Carries r mixer bandTaps resampleTaps (xs ++ List.replicate s.tailSamples 0) s.flush.1 ∧
      s.flush.1.band.history = List.replicate (bandTaps.length - 1) 0 ∧
      s.flush.1.interpolate.history = List.replicate (resampleTaps.length - 1) 0 ∧
      ∀ n, (xs.length + s.tailSamples) * r ≤ n → audioOf r mixer bandTaps resampleTaps xs n = 0 := by
  have positive : 0 < r := h.factor ▸ s.positive
  have tail : s.tailSamples = bandTaps.length + divCeil resampleTaps.length r + 1 := by
    rw [tailSamples, h.band.same, h.interpolate.same, h.factor]
  have fits : resampleTaps.length ≤ divCeil resampleTaps.length r * r := (divCeil_le positive).mp le_rfl
  obtain ⟨after, -⟩ := h.process (List.replicate s.tailSamples 0)
  have same := sample_append_zeros xs s.tailSamples
  -- the band's part of the stream has ended, and then the interpolation's
  have bandEnds (i : Nat) (past : xs.length + bandTaps.length ≤ i + 1) : convolve bandTaps (sample xs) i = 0 :=
    convolve_ended (fun _ => sample_ended) bandTaps past
  have stuffedEnds (j : Nat) (past : (xs.length + bandTaps.length) * r ≤ j) :
      stuffed r mixer (convolve bandTaps (sample xs)) j = 0 := by
    have place := (Nat.le_div_iff_mul_le positive).mpr past
    unfold stuffed
    rw [bandEnds (j / r) (by omega), mixUp_zero, ite_self]
  have room : (xs.length + bandTaps.length) * r + resampleTaps.length ≤ (xs.length + s.tailSamples) * r := by
    rw [tail]
    calc _ ≤ (xs.length + bandTaps.length) * r + divCeil resampleTaps.length r * r := Nat.add_le_add_left fits _
      _ = (xs.length + bandTaps.length + divCeil resampleTaps.length r) * r := (Nat.add_mul ..).symm
      _ ≤ _ := Nat.mul_le_mul_right r (by omega)
  refine ⟨after, after.band.emptied fun i past => ?_, after.interpolate.emptied fun j past => ?_, fun n past => ?_⟩
  · rw [List.length_append, List.length_replicate] at past
    rw [same]
    exact sample_ended (by omega)
  · rw [length_firstOf, List.length_append, List.length_replicate] at past
    rw [sample_firstOf, same]
    split
    · exact stuffedEnds j (by omega)
    · rfl
  · exact convolve_ended stuffedEnds resampleTaps (by omega)

end Carries

end BasebandToAudio

/-! ### Audio to baseband -/

/-- What is picked from an index on, and where it leaves off. -/
theorem pick_eq {r : Nat} (positive : 0 < r) (filtered : List K) (index : Nat) :
    pick r positive filtered index = (firstOf (divCeil (filtered.length - index) r) fun m => sample filtered (index + m * r),
      index + divCeil (filtered.length - index) r * r) := by
  fun_induction pick r positive filtered index with
  | case1 index inside low past is ih =>
    obtain ⟨rfl, rfl⟩ := Prod.mk.inj (is.symm.trans ih)
    rw [divCeil_succ positive (show 0 < filtered.length - index by omega), firstOf_succ, Nat.sub_sub]
    refine Prod.ext ?_ ?_
    · simp only [Nat.zero_mul, Nat.add_zero, List.get_eq_getElem]
      congr 1
      · rw [sample, List.getD_eq_getElem _ _ inside]
      · exact firstOf_congr fun m _ => congrArg _ (by ring)
    · dsimp only
      ring
  | case2 index outside =>
    have none_ : divCeil (filtered.length - index) r = 0 := by
      simpa [Nat.sub_eq_zero_of_le (show filtered.length ≤ index by omega)] using divCeil_mul positive 0
    rw [none_, Nat.zero_mul]
    rfl

namespace AudioToBaseband

variable {r : Nat} {mixer : Nat → K × K} {bandTaps resampleTaps : List K} {xs : List K} {s : AudioToBaseband K}

/-- The samples kept of a stream of audio, mixed down. -/
def mixed (r : Nat) (mixer : Nat → K × K) (resampleTaps : List K) (xs : List K) (m : Nat) : Sample K :=
  mixDown (mixer m) (convolve resampleTaps (sample xs) (m * r))

/-- The chain once it has been given a stream. -/
structure Carries (r : Nat) (mixer : Nat → K × K) (resampleTaps bandTaps : List K) (xs : List K)
    (s : AudioToBaseband K) : Prop where
  factor : s.resampleFactor = r
  mixer_ : s.mixer = mixer
  decimate : Fed resampleTaps xs s.decimate
  band : Fed bandTaps (firstOf (divCeil xs.length r) (mixed r mixer resampleTaps xs)) s.band
  phase : s.phase + xs.length = divCeil xs.length r * r
  n0 : s.n0 = divCeil xs.length r

theorem carries_new (positive : 0 < r) (resampleSome : resampleTaps ≠ []) (bandSome : bandTaps ≠ []) :
    Carries r mixer resampleTaps bandTaps [] (new r positive mixer resampleTaps bandTaps resampleSome bandSome) := by
  have none_ : divCeil 0 r = 0 := by simpa using divCeil_mul positive 0
  exact
    { factor := rfl
      mixer_ := rfl
      decimate := fed_new resampleSome
      band := by
        rw [List.length_nil, none_]
        exact fed_new bandSome
      phase := by simp [new, none_]
      n0 := by simp [new, none_] }

/-- What is kept of a block, and the phase left for the next. -/
theorem Carries.pick (h : Carries r mixer resampleTaps bandTaps xs s) (block : List K) :
    let low := Phy.pick s.resampleFactor s.positive (s.decimate.process block).2 s.phase;
    low.1 = firstOf (divCeil (xs ++ block).length r - divCeil xs.length r)
        (fun m => convolve resampleTaps (sample (xs ++ block)) ((divCeil xs.length r + m) * r)) ∧
      divCeil xs.length r ≤ divCeil (xs ++ block).length r ∧
      low.2 - (s.decimate.process block).2.length + (xs ++ block).length = divCeil (xs ++ block).length r * r := by
  have positive : 0 < r := h.factor ▸ s.positive
  have phase := h.phase
  have out : (s.decimate.process block).2 =
      firstOf block.length fun n => convolve resampleTaps (sample (xs ++ block)) (xs.length + n) := by
    have whole := (h.decimate.process block).2
    rw [filtered_append] at whole
    exact List.append_cancel_left whole
  have length : (s.decimate.process block).2.length = block.length := by rw [out, length_firstOf]
  -- the kept samples of the whole are those before and those of the block past the phase
  have more : divCeil (xs ++ block).length r = divCeil xs.length r + divCeil (block.length - s.phase) r := by
    rw [List.length_append]
    rcases Nat.le_total block.length s.phase with short | long
    · have none_ : divCeil 0 r = 0 := by simpa using divCeil_mul positive 0
      rw [Nat.sub_eq_zero_of_le short, none_, Nat.add_zero]
      refine le_antisymm ((divCeil_le positive).mpr (by omega)) ((divCeil_le positive).mpr ?_)
      exact (Nat.le_add_right _ _).trans ((divCeil_le positive).mp le_rfl)
    · have split : xs.length + block.length = divCeil xs.length r * r + (block.length - s.phase) := by omega
      rw [split, divCeil_mul_add positive]
  have fits := (divCeil_le positive (n := block.length - s.phase)).mp le_rfl
  simp only [h.factor, pick_eq, length]
  refine ⟨?_, by omega, ?_⟩
  · rw [more, Nat.add_sub_cancel_left]
    refine firstOf_congr fun m inside => ?_
    have within := (lt_divCeil positive).mp inside
    have place : xs.length + (s.phase + m * r) = (divCeil xs.length r + m) * r := by rw [Nat.add_mul]; omega
    rw [out, sample_firstOf, if_pos (by omega), place]
  · rw [more, Nat.add_mul, List.length_append]
    omega

theorem Carries.process (h : Carries r mixer resampleTaps bandTaps xs s) (block : List K) :
    Carries r mixer resampleTaps bandTaps (xs ++ block) (s.process block).1 ∧
      firstOf (divCeil xs.length r) (basebandOf r mixer resampleTaps bandTaps xs) ++ (s.process block).2 =
        firstOf (divCeil (xs ++ block).length r) (basebandOf r mixer resampleTaps bandTaps (xs ++ block)) := by
  have positive : 0 < r := h.factor ▸ s.positive
  obtain ⟨low, grows, phase⟩ := h.pick block
  obtain ⟨decimate, -⟩ := h.decimate.process block
  -- the samples kept so far and the block's are those of the whole
  have whole : firstOf (divCeil xs.length r) (mixed r mixer resampleTaps xs) ++
      (Phy.pick s.resampleFactor s.positive (s.decimate.process block).2 s.phase).1.mapIdx
        (fun i x => mixDown (s.mixer (s.n0 + i)) x) =
      firstOf (divCeil (xs ++ block).length r) (mixed r mixer resampleTaps (xs ++ block)) := by
    have before : firstOf (divCeil xs.length r) (mixed r mixer resampleTaps xs) =
        firstOf (divCeil xs.length r) (mixed r mixer resampleTaps (xs ++ block)) :=
      firstOf_congr fun m inside => by
        have within := (lt_divCeil positive).mp inside
        unfold mixed
        rw [convolve_congr (y := sample (xs ++ block)) fun i upTo => by rw [sample_append, if_pos (by omega)]]
    obtain ⟨more, count⟩ := Nat.exists_eq_add_of_le grows
    rw [before, low, mapIdx_firstOf, h.mixer_, h.n0, count, Nat.add_sub_cancel_left, firstOf_add]
    rfl
  obtain ⟨band, out⟩ := h.band.process ((Phy.pick s.resampleFactor s.positive (s.decimate.process block).2 s.phase).1.mapIdx
    fun i x => mixDown (s.mixer (s.n0 + i)) x)
  rw [whole] at band out
  rw [filtered_firstOf, filtered_firstOf] at out
  refine ⟨⟨h.factor, h.mixer_, decimate, band, phase, ?_⟩, ?_⟩
  · simp only [AudioToBaseband.process, h.n0, low, length_firstOf]
    omega
  · have doubled := congrArg (List.map fun x : Sample K => 2 • x) out
    simp only [List.map_append, firstOf, List.map_map] at doubled
    exact doubled

end AudioToBaseband

/-! ### Whole streams -/

section
variable {r : Nat} {mixer : Nat → K × K} {bandTaps resampleTaps : List K}

variable (mixer) in
theorem BasebandToAudio.run_new (positive : 0 < r) (bandSome : bandTaps ≠ []) (resampleSome : resampleTaps ≠ [])
    (blocks : List (List (Sample K))) :
    let done := Stream.run process (new r positive mixer bandTaps resampleTaps bandSome resampleSome) blocks;
    Carries r mixer bandTaps resampleTaps blocks.flatten done.1 ∧
      done.2 = firstOf (blocks.flatten.length * r) (audioOf r mixer bandTaps resampleTaps blocks.flatten) := by
  have gives {xs : List (Sample K)} {s : BasebandToAudio K} (block : List (Sample K))
    (h : Carries r mixer bandTaps resampleTaps xs s) := h.process block
  simpa [firstOf] using Stream.run_gives gives (carries_new positive bandSome resampleSome) blocks

variable (mixer) in
theorem AudioToBaseband.run_new (positive : 0 < r) (resampleSome : resampleTaps ≠ []) (bandSome : bandTaps ≠ [])
    (blocks : List (List K)) :
    (Stream.run process (new r positive mixer resampleTaps bandTaps resampleSome bandSome) blocks).2 =
      firstOf (divCeil blocks.flatten.length r) (basebandOf r mixer resampleTaps bandTaps blocks.flatten) := by
  have gives {xs : List K} {s : AudioToBaseband K} (block : List K)
    (h : Carries r mixer resampleTaps bandTaps xs s) := h.process block
  have none_ : divCeil 0 r = 0 := by simpa using divCeil_mul positive 0
  simpa [firstOf, none_] using (Stream.run_gives gives (carries_new positive resampleSome bandSome) blocks).2

/-- A flush gives what is left of the convolution, and another silence. -/
theorem BasebandToAudio.Carries.flushes {xs : List (Sample K)} {s : BasebandToAudio K}
    (h : Carries r mixer bandTaps resampleTaps xs s) :
    firstOf (xs.length * r) (audioOf r mixer bandTaps resampleTaps xs) ++ s.flush.2 =
        firstOf ((xs.length + s.tailSamples) * r) (audioOf r mixer bandTaps resampleTaps xs) ∧
      s.flush.1.flush.2 = List.replicate (s.tailSamples * r) 0 := by
  obtain ⟨after, -, -, over_⟩ := h.flush
  have zeros (m : Nat) : audioOf r mixer bandTaps resampleTaps (xs ++ List.replicate m 0) =
      audioOf r mixer bandTaps resampleTaps xs := by
    unfold audioOf
    rw [sample_append_zeros]
  have tail : s.flush.1.tailSamples = s.tailSamples := by
    unfold tailSamples
    rw [after.band.same, after.interpolate.same, after.factor, h.band.same, h.interpolate.same, h.factor]
  have first := (h.process (List.replicate s.tailSamples 0)).2
  have second := (after.process (List.replicate s.tailSamples 0)).2
  rw [zeros, List.length_append, List.length_replicate] at first
  rw [List.append_assoc xs, List.replicate_append_replicate, zeros, zeros, List.length_append, List.length_replicate,
    List.length_append, List.length_replicate, ← Nat.add_assoc, Nat.add_mul (xs.length + s.tailSamples), firstOf_add] at second
  refine ⟨first, ?_⟩
  have silent := List.append_cancel_left second
  rw [BasebandToAudio.flush, tail, silent]
  refine List.eq_replicate_iff.mpr ⟨length_firstOf .., fun x member => ?_⟩
  obtain ⟨n, -, rfl⟩ := List.mem_map.mp member
  exact over_ _ (Nat.le_add_right ..)

end

/-- Whatever the blocks: a filter gives its taps convolved with the stream over a zero past; each
direction gives what one call would; and a flush leaves the transmit filters empty. -/
theorem block_size {T : Type} [AddCommGroup T] [Module K T] (r : Nat) (positive : 0 < r) (mixer : Nat → K × K)
    (bandTaps resampleTaps : List K) (bandSome : bandTaps ≠ []) (resampleSome : resampleTaps ≠ []) :
    (∀ blocks : List (List T), (Stream.run Fir.process (.new bandTaps bandSome) blocks).2 =
      firstOf blocks.flatten.length (convolve bandTaps (sample blocks.flatten))) ∧
    (∀ blocks : List (List (Sample K)),
      let chain := BasebandToAudio.new r positive mixer bandTaps resampleTaps bandSome resampleSome;
      let whole := audioOf r mixer bandTaps resampleTaps blocks.flatten;
      let sent := Stream.run BasebandToAudio.process chain blocks;
      let emptied := sent.1.flush;
      sent.2 = (chain.process blocks.flatten).2 ∧ sent.2 = firstOf (blocks.flatten.length * r) whole ∧
        (∀ x ∈ emptied.1.band.history, x = 0) ∧ (∀ x ∈ emptied.1.interpolate.history, x = 0) ∧
        sent.2 ++ emptied.2 = firstOf ((blocks.flatten.length + sent.1.tailSamples) * r) whole ∧
        (∀ n, (sent.2 ++ emptied.2).length ≤ n → whole n = 0) ∧
        emptied.1.flush.2 = List.replicate (sent.1.tailSamples * r) 0) ∧
    ∀ blocks : List (List K),
      let chain := AudioToBaseband.new r positive mixer resampleTaps bandTaps resampleSome bandSome;
      let heard := Stream.run AudioToBaseband.process chain blocks;
      heard.2 = (chain.process blocks.flatten).2 ∧
        heard.2 = firstOf (divCeil blocks.flatten.length r) (basebandOf r mixer resampleTaps bandTaps blocks.flatten) := by
  refine ⟨fun blocks => (Fir.run_new bandSome blocks).2, fun blocks => ?_, fun blocks => ?_⟩
  · obtain ⟨carries, audio⟩ := BasebandToAudio.run_new mixer positive bandSome resampleSome blocks
    have once := (BasebandToAudio.run_new mixer positive bandSome resampleSome [blocks.flatten]).2
    rw [Stream.run_cons, Stream.run_nil, List.append_nil, List.flatten_singleton] at once
    obtain ⟨-, band, interpolate, over_⟩ := carries.flush
    obtain ⟨tail, silent⟩ := carries.flushes
    rw [← audio] at tail
    refine ⟨audio.trans once.symm, audio, fun x member => ?_, fun x member => ?_, tail, fun n past => over_ n ?_, silent⟩
    · rw [band] at member
      exact List.eq_of_mem_replicate member
    · rw [interpolate] at member
      exact List.eq_of_mem_replicate member
    · rwa [tail, length_firstOf] at past
  · have heard := AudioToBaseband.run_new mixer positive resampleSome bandSome blocks
    have once := AudioToBaseband.run_new mixer positive resampleSome bandSome [blocks.flatten]
    rw [Stream.run_cons, Stream.run_nil, List.append_nil, List.flatten_singleton] at once
    exact ⟨heard.trans once.symm, heard⟩

/-- Two samples in two blocks, at twice the rate. -/
theorem block_size_two :
    (Stream.run BasebandToAudio.process (.new 2 (by decide) (fun _ => ((1 : ℚ), 0)) [1] [1, 1] (by decide) (by decide))
      [[(1, 0)], [(2, 0)]]).2 = firstOf 4 (audioOf 2 (fun _ => (1, 0)) [1] [1, 1] [(1, 0), (2, 0)]) :=
  ((block_size (T := ℚ) 2 (by decide) (fun _ => ((1 : ℚ), 0)) [1] [1, 1] (by decide) (by decide)).2.1 [[(1, 0)], [(2, 0)]]).2.1

end AetherHF.Phy

import Mathlib.Algebra.Module.Prod
import Mathlib.Tactic.NormNum
import AetherHF.Phy.Fir
import AetherHF.Phy.Streaming

/-! How far the streaming receiver runs behind its input. The blanker begins to emit only with
twice its span to come and then keeps one, so what it holds back depends on how the blocks
fall; the band filter and the buffer behind it pass on as many samples as they are given. -/
namespace AetherHF.Phy

variable {K : Type} [Field K] [LinearOrder K] {ρ : Type}

/-- What of the receiver reads the buffer, and what it still needs of it: the search for
frames, those pending, and the tone floor. -/
structure Search (K ρ : Type) where
  look : ρ → List (Sample K) → Nat → ρ
  /-- Where the frames pending start. -/
  pending : ρ → List Nat
  searched : ρ → Nat
  lookback : Nat
  toneKeep : Nat
  maxBuffer : Nat

structure StreamingReceiver (K ρ : Type) [Field K] [LinearOrder K] where
  blanker : Option (StreamingBlanker K)
  band : Fir K (Sample K)
  search : Search K ρ
  rest : ρ
  buffer : List (Sample K)
  bufferStart : Nat

namespace StreamingReceiver

def new (blanker : Option (NoiseBlanker K)) (band : Fir K (Sample K)) (search : Search K ρ) (rest : ρ) :
    StreamingReceiver K ρ where
  blanker := blanker.map .new
  band
  search
  rest
  buffer := []
  bufferStart := 0

variable (norm : Sample K → K) (r : StreamingReceiver K ρ)

/-- Total samples that have entered the filtered stream. -/
def samplesSeen : Nat := r.bufferStart + r.buffer.length

/-- How far the indexed stream is said to run behind the input. -/
def blankerLatency : Nat := (r.blanker.map StreamingBlanker.latencySamples).getD 0

/-- The first sample still needed. -/
def keep : Nat :=
  let searched := r.search.searched r.rest - r.search.lookback
  let needed := match (r.search.pending r.rest).min? with
    | some start => min start searched
    | none => searched
  max (max (min needed (r.samplesSeen - r.search.toneKeep)) (r.samplesSeen - r.search.maxBuffer)) r.bufferStart

/-- Drop what nothing still needs; none where the source would drop more than there is. -/
def trim : Option (StreamingReceiver K ρ) := do
  let drop := r.keep - r.bufferStart
  let buffer ← checkedSlice r.buffer drop r.buffer.length
  return { r with buffer, bufferStart := r.bufferStart + drop }

/-- The blanker on a block, where there is one. -/
def blank (block : List (Sample K)) : Option (Option (StreamingBlanker K) × List (Sample K)) :=
  match r.blanker with
  | none => some (none, block)
  | some blanker => (blanker.process norm block).map fun done => (some done.2, done.1)

def feed (block : List (Sample K)) : Option (StreamingReceiver K ρ) := do
  let blanked ← r.blank norm block
  let filtered := r.band.process blanked.2
  let buffer := r.buffer ++ filtered.2
  let rest := r.search.look r.rest buffer r.bufferStart
  { r with blanker := blanked.1, band := filtered.1, buffer, rest }.trim

def run (r : StreamingReceiver K ρ) : List (List (Sample K)) → Option (StreamingReceiver K ρ)
  | [] => some r
  | block :: blocks => do
    let r ← r.feed norm block
    r.run blocks

end StreamingReceiver

/-! ### What the blanker holds back -/

variable (norm : Sample K → K) (b : NoiseBlanker K)

/-- After each call, once twice the latency has been given, all but the latency has come out. -/
def HoldsBack (blocks : List (List (Sample K))) : Prop :=
  ∀ before, before <+: blocks → 2 * (StreamingBlanker.new b).latencySamples ≤ before.flatten.length →
    ∃ out, StreamingBlanker.given norm b before = some out ∧
      out.length + (StreamingBlanker.new b).latencySamples = before.flatten.length

def SeenBehind (r : StreamingReceiver K ρ) (blocks : List (List (Sample K))) : Prop :=
  ∀ before, before <+: blocks → 2 * r.blankerLatency ≤ before.flatten.length →
    ∃ r', r.run norm before = some r' ∧ r'.samplesSeen + r.blankerLatency = before.flatten.length

/-- From the call that makes twice the latency on, every block is empty or as long as the latency. -/
def Steady (blocks : List (List (Sample K))) : Prop :=
  ∀ before block, before ++ [block] <+: blocks → 2 * (StreamingBlanker.new b).latencySamples ≤ before.flatten.length →
    block = [] ∨ (StreamingBlanker.new b).latencySamples ≤ block.length

/-! ### How far the stream has come -/

namespace Progress

/-- Once blocks of the stream have been fed. -/
def after (g : Progress) (blocks : List (List (Sample K))) : Progress :=
  blocks.foldl (fun g block => g.feed b block.length) g

variable {b}

theorem after_concat (g : Progress) (blocks : List (List (Sample K))) (block : List (Sample K)) :
    g.after b (blocks ++ [block]) = (g.after b blocks).feed b block.length := by
  simp [after]

theorem fed_after (g : Progress) (blocks : List (List (Sample K))) : (g.after b blocks).fed = g.fed + blocks.flatten.length := by
  induction blocks using List.reverseRecOn with
  | nil => rfl
  | append_singleton blocks block ih =>
    rw [after_concat, List.flatten_append, List.length_append]
    simp only [feed, ih, List.flatten_singleton]
    omega

/-- Between one call and the next less than twice the span is held back, and as soon as more
than that has been given, something has come out. -/
theorem after_held (blocks : List (List (Sample K))) :
    let g := start.after b blocks;
    g.fed < g.out + 2 * b.robustSpanSamples ∧ (g.out = 0 ∨ g.out + b.robustSpanSamples ≤ g.fed) := by
  have positive := StreamingBlanker.span_pos (b := b)
  induction blocks using List.reverseRecOn with
  | nil => exact ⟨by simp [after, start]; omega, .inl rfl⟩
  | append_singleton blocks block ih =>
    obtain ⟨held, ahead⟩ := ih
    rw [after_concat]
    cases emits : (start.after b blocks).emits b block.length with
    | true =>
      have reaches : (start.after b blocks).out + 2 * b.robustSpanSamples ≤ (start.after b blocks).fed + block.length := by
        simpa [Progress.emits] using emits
      simp only [feed, emits, if_true]
      omega
    | false =>
      have short : ¬ (start.after b blocks).out + 2 * b.robustSpanSamples ≤ (start.after b blocks).fed + block.length := by
        simpa [Progress.emits] using emits
      simp only [feed, emits, Bool.false_eq_true, if_false]
      omega

/-- A block leaves exactly the span held back, when it was so before, exactly if it is empty or
as long as the span. -/
theorem feed_exact {g : Progress} (exact_ : g.out + b.robustSpanSamples = g.fed) (n : Nat) :
    (g.feed b n).out + b.robustSpanSamples = (g.feed b n).fed ↔ n = 0 ∨ b.robustSpanSamples ≤ n := by
  have positive := StreamingBlanker.span_pos (b := b)
  cases emits : g.emits b n with
  | true =>
    have reaches : g.out + 2 * b.robustSpanSamples ≤ g.fed + n := by simpa [Progress.emits] using emits
    simp only [feed, emits, if_true]
    omega
  | false =>
    have short : ¬ g.out + 2 * b.robustSpanSamples ≤ g.fed + n := by simpa [Progress.emits] using emits
    simp only [feed, emits, Bool.false_eq_true, if_false]
    omega

/-- The first block that makes twice the span brings out all but the span. -/
theorem feed_first (blocks : List (List (Sample K))) (short : (start.after b blocks).fed < 2 * b.robustSpanSamples) {n : Nat}
    (long : 2 * b.robustSpanSamples ≤ (start.after b blocks).fed + n) :
    ((start.after b blocks).feed b n).out + b.robustSpanSamples = ((start.after b blocks).feed b n).fed := by
  have nothing : (start.after b blocks).out = 0 := by
    clear long
    induction blocks using List.reverseRecOn with
    | nil => rfl
    | append_singleton blocks block ih =>
      rw [after_concat] at short ⊢
      have before := ih (by simp only [feed] at short; omega)
      have silent : (start.after b blocks).emits b block.length = false := by
        simp only [feed] at short
        simp only [Progress.emits, decide_eq_false_iff_not]
        omega
      simpa only [feed, silent, Bool.false_eq_true, if_false] using before
  have emits : (start.after b blocks).emits b n = true := by
    simp only [Progress.emits, decide_eq_true_eq]
    omega
  simp only [feed, emits, if_true]
  omega

/-- All but the span has come out after every call exactly when the blocks are steady. -/
theorem exact_iff (blocks : List (List (Sample K))) :
    (∀ before, before <+: blocks → 2 * b.robustSpanSamples ≤ before.flatten.length →
      (start.after b before).out + b.robustSpanSamples = before.flatten.length) ↔
    ∀ before block, before ++ [block] <+: blocks → 2 * b.robustSpanSamples ≤ before.flatten.length →
      block = [] ∨ b.robustSpanSamples ≤ block.length := by
  have fed (blocks : List (List (Sample K))) : (start.after b blocks).fed = blocks.flatten.length := by
    rw [fed_after]
    exact Nat.zero_add _
  constructor
  · intro exact_ before block next long
    have here := exact_ before ((List.prefix_append ..).trans next) long
    have there := exact_ (before ++ [block]) next (by rw [List.flatten_append, List.length_append]; omega)
    rw [← fed] at here there
    rw [after_concat] at there
    exact ((feed_exact here _).mp there).imp_left List.length_eq_zero_iff.mp
  · intro steady before next long
    induction before using List.reverseRecOn with
    | nil =>
      have := StreamingBlanker.span_pos (b := b)
      simp at long
      omega
    | append_singleton before block ih =>
      have earlier := (List.prefix_append before [block]).trans next
      rw [← fed] at long ⊢
      rw [after_concat] at long ⊢
      by_cases short : (start.after b before).fed < 2 * b.robustSpanSamples
      · exact feed_first before short long
      · have enough : 2 * b.robustSpanSamples ≤ before.flatten.length := by rw [← fed]; omega
        have here := ih earlier enough
        rw [← fed] at here
        exact (feed_exact here _).mpr ((steady before block next enough).imp_left List.length_eq_zero_iff.mpr)

end Progress

/-! ### The blanker and the receiver behind it -/

variable {b} {g : Progress} {stream : List (Sample K)} {from_ : Nat}

/-- A block brings out as many samples as the stream comes by. -/
theorem StreamingBlanker.Holds.process_length {s : StreamingBlanker K} (h : Holds b g stream from_ s)
    (aligned : g.before % b.window = 0) {block : List (Sample K)} (next : block <+: stream.drop g.fed) :
    ∃ more s' from', s.process norm block = some (more, s') ∧ Holds b (g.feed b block.length) stream from' s' ∧
      g.out + more.length = (g.feed b block.length).out := by
  have given : Given (fun _ _ => True) g (List.replicate g.out ((0 : K), (0 : K))) := ⟨List.length_replicate, fun _ _ _ => trivial⟩
  have right : RightOut norm b stream (fun _ => True) fun _ _ => True := fun _ _ _ _ _ _ _ _ _ _ _ _ => trivial
  obtain ⟨more, s', from', is, holds, length, -⟩ := h.process next aligned right (fun _ => trivial) given
  refine ⟨more, s', from', is, holds, ?_⟩
  rwa [List.length_append, List.length_replicate] at length

omit [Field K] [LinearOrder K] in
theorem next_drop {block : List (Sample K)} {rest : List (List (Sample K))} {stream : List (Sample K)} {fed : Nat}
    (next : (block :: rest).flatten <+: stream.drop fed) :
    block <+: stream.drop fed ∧ rest.flatten <+: stream.drop (fed + block.length) := by
  rw [List.flatten_cons] at next
  refine ⟨(List.prefix_append ..).trans next, ?_⟩
  obtain ⟨past, cut⟩ := next
  rw [← List.drop_drop, ← cut, List.append_assoc, List.drop_left]
  exact List.prefix_append ..

theorem StreamingBlanker.Holds.run_length {s : StreamingBlanker K} (h : Holds b g stream from_ s)
    (aligned : g.before % b.window = 0) {blocks : List (List (Sample K))} (next : blocks.flatten <+: stream.drop g.fed) :
    ∃ more s', s.run norm (blocks.map .process) = some (more, s') ∧ g.out + more.length = (g.after b blocks).out := by
  induction blocks generalizing g from_ s with
  | nil => exact ⟨[], s, rfl, rfl⟩
  | cons block rest ih =>
    obtain ⟨here, later⟩ := next_drop next
    obtain ⟨more, s', from', is, holds, length⟩ := h.process_length norm aligned here
    obtain ⟨more', s'', is', length'⟩ := ih holds aligned later
    refine ⟨more ++ more', s'', ?_, ?_⟩
    · simp only [List.map_cons, StreamingBlanker.run, call, is, is', Option.bind_eq_bind, Option.bind_some]
      rfl
    · rw [List.length_append, ← Nat.add_assoc, length, length']
      rfl

theorem given_length (blocks : List (List (Sample K))) : ∃ out, StreamingBlanker.given norm b blocks = some out ∧
    out.length = (Progress.start.after b blocks).out := by
  obtain ⟨out, s', is, length⟩ :=
    (StreamingBlanker.holds_new (b := b) blocks.flatten).run_length norm rfl (List.prefix_refl blocks.flatten)
  refine ⟨out, by rw [StreamingBlanker.given, is]; rfl, ?_⟩
  rw [← length]
  exact (Nat.zero_add _).symm

namespace StreamingReceiver

variable {r : StreamingReceiver K ρ}

theorem trim_seen (r : StreamingReceiver K ρ) : ∃ r', r.trim = some r' ∧ r'.blanker = r.blanker ∧ r'.samplesSeen = r.samplesSeen := by
  have fits : r.keep ≤ r.samplesSeen := by
    unfold keep
    extract_lets searched needed
    have start : r.bufferStart ≤ r.samplesSeen := Nat.le_add_right ..
    refine max_le (max_le ?_ (Nat.sub_le ..)) start
    exact (min_le_right ..).trans (Nat.sub_le ..)
  have first : r.bufferStart ≤ r.keep := le_max_right ..
  have inside : r.keep - r.bufferStart ≤ r.buffer.length := by
    unfold samplesSeen at fits
    omega
  refine ⟨{ r with
    buffer := (r.buffer.take r.buffer.length).drop (r.keep - r.bufferStart)
    bufferStart := r.bufferStart + (r.keep - r.bufferStart) }, ?_, rfl, ?_⟩
  · rw [trim, StreamingBlanker.checkedSlice_of_le inside le_rfl]
    rfl
  · simp only [samplesSeen, List.take_length, List.length_drop]
    omega

/-- A block fed is seen as far as the blanker lets it through. -/
theorem feed_seen {block blanked : List (Sample K)} {blanker : Option (StreamingBlanker K)}
    (is : r.blank norm block = some (blanker, blanked)) :
    ∃ r', r.feed norm block = some r' ∧ r'.blanker = blanker ∧ r'.samplesSeen = r.samplesSeen + blanked.length := by
  obtain ⟨r', trimmed, same, seen⟩ := trim_seen
    { r with
      blanker
      band := (r.band.process blanked).1
      buffer := r.buffer ++ (r.band.process blanked).2
      rest := r.search.look r.rest (r.buffer ++ (r.band.process blanked).2) r.bufferStart }
  refine ⟨r', ?_, same, ?_⟩
  · simpa only [feed, is, Option.bind_eq_bind, Option.bind_some] using trimmed
  · rw [seen]
    simp only [samplesSeen, List.length_append, Fir.length_process]
    omega

/-- A receiver behind a blanker has seen what the blanker has let through. -/
theorem run_seen {s : StreamingBlanker K} (blanker : r.blanker = some s) (h : StreamingBlanker.Holds b g stream from_ s)
    (aligned : g.before % b.window = 0) (seen : r.samplesSeen = g.out) {blocks : List (List (Sample K))}
    (next : blocks.flatten <+: stream.drop g.fed) :
    ∃ r', r.run norm blocks = some r' ∧ r'.samplesSeen = (g.after b blocks).out := by
  induction blocks generalizing g from_ s r with
  | nil => exact ⟨r, rfl, seen⟩
  | cons block rest ih =>
    obtain ⟨here, later⟩ := next_drop next
    obtain ⟨more, s', from', is, holds, length⟩ := h.process_length norm aligned here
    obtain ⟨r', fed, blanker', seen'⟩ := feed_seen norm (r := r) (show r.blank norm block = some (some s', more) by
      simp only [blank, blanker, is, Option.map_some])
    obtain ⟨r'', run_, done⟩ := ih blanker' holds aligned (by rw [seen', seen, length]) later
    refine ⟨r'', ?_, done⟩
    simp only [run, fed, Option.bind_eq_bind, Option.bind_some]
    exact run_

/-- A receiver with no blanker has seen all it was fed. -/
theorem run_unblanked (blanker : r.blanker = none) (blocks : List (List (Sample K))) :
    ∃ r', r.run norm blocks = some r' ∧ r'.samplesSeen = r.samplesSeen + blocks.flatten.length := by
  induction blocks generalizing r with
  | nil => exact ⟨r, rfl, rfl⟩
  | cons block rest ih =>
    obtain ⟨r', fed, blanker', seen⟩ := feed_seen norm (r := r) (show r.blank norm block = some (none, block) by
      simp only [blank, blanker])
    obtain ⟨r'', run_, done⟩ := ih blanker'
    refine ⟨r'', ?_, ?_⟩
    · simp only [run, fed, Option.bind_eq_bind, Option.bind_some]
      exact run_
    · rw [done, seen, List.flatten_cons, List.length_append, Nat.add_assoc]

end StreamingReceiver

theorem latency_eq (b : NoiseBlanker K) : (StreamingBlanker.new b).latencySamples = b.robustSpanSamples :=
  max_eq_left StreamingBlanker.span_pos

theorem holdsBack_iff (b : NoiseBlanker K) (blocks : List (List (Sample K))) : HoldsBack norm b blocks ↔ Steady b blocks := by
  unfold HoldsBack Steady
  rw [latency_eq, ← Progress.exact_iff]
  refine forall₃_congr fun before _ _ => ?_
  obtain ⟨out, is, length⟩ := given_length norm (b := b) before
  rw [is, ← length]
  simp

theorem seenBehind_iff (b : NoiseBlanker K) (band : Fir K (Sample K)) (search : Search K ρ) (rest : ρ)
    (blocks : List (List (Sample K))) :
    SeenBehind norm (.new (some b) band search rest) blocks ↔ Steady b blocks := by
  have latency : (StreamingReceiver.new (some b) band search rest).blankerLatency = b.robustSpanSamples := latency_eq b
  unfold SeenBehind Steady
  rw [latency, latency_eq, ← Progress.exact_iff]
  refine forall₃_congr fun before _ _ => ?_
  obtain ⟨r', is, seen⟩ := StreamingReceiver.run_seen norm (r := .new (some b) band search rest) rfl
    (StreamingBlanker.holds_new before.flatten) rfl rfl (List.prefix_refl before.flatten)
  rw [is, ← seen]
  simp

/-- The blanker holds back exactly its latency, and the receiver behind it has seen all but that,
exactly when no block from twice the latency on is short but not empty; a receiver without
one has seen all. -/
theorem held_exactly (b : NoiseBlanker K) (band : Fir K (Sample K)) (search : Search K ρ) (rest : ρ)
    (blocks : List (List (Sample K))) :
    (HoldsBack norm b blocks ∧ SeenBehind norm (.new (some b) band search rest) blocks ↔ Steady b blocks) ∧
      SeenBehind norm (.new none band search rest) blocks := by
  refine ⟨?_, fun before _ _ => ?_⟩
  · rw [holdsBack_iff, seenBehind_iff, and_self]
  · obtain ⟨r', is, seen⟩ := StreamingReceiver.run_unblanked norm (r := .new none band search rest) rfl before
    refine ⟨r', is, ?_⟩
    rw [seen]
    simp [StreamingReceiver.new, StreamingReceiver.samplesSeen, StreamingReceiver.blankerLatency]

def defaultBlanker : NoiseBlanker ℚ := ⟨7 / 2, 101, 9, .blank, by norm_num, by decide, by decide⟩

/-- Seven blocks of 20 ms: the last finds the latency held back, and adds to it. -/
theorem held_more : ¬ HoldsBack magnitude defaultBlanker (List.replicate 7 (List.replicate 160 (0, 0))) := by
  have latency : (StreamingBlanker.new defaultBlanker).latencySamples = 454 := by rw [latency_eq]; rfl
  rw [holdsBack_iff]
  intro steady
  have short := steady (List.replicate 6 (List.replicate 160 (0, 0))) (List.replicate 160 (0, 0))
    (by rw [← List.replicate_succ']) (by rw [latency, List.flatten_replicate_replicate, List.length_replicate]; decide)
  rw [latency, ← List.length_eq_zero_iff, List.length_replicate] at short
  omega

end AetherHF.Phy

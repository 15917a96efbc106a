import AetherHF.Phy.Envelope
import Mathlib.Algebra.Order.Field.Rat

/-! The blanker on a live stream: what comes out is the whole stream blanked, as long as no
block ends in the later half of a segment. -/
namespace AetherHF.Phy

variable {K : Type} [Field K] [LinearOrder K]

namespace StreamingBlanker

inductive Call (K : Type) where
  | process (block : List (Sample K))
  | flush

variable (norm : Sample K → K)

def call (s : StreamingBlanker K) : Call K → Option (List (Sample K) × StreamingBlanker K)
  | .process block => s.process norm block
  | .flush => s.flush norm

/-- Calls one after another, and all they give. -/
def run (s : StreamingBlanker K) : List (Call K) → Option (List (Sample K) × StreamingBlanker K)
  | [] => some ([], s)
  | call :: rest => do
    let (out, s) ← s.call norm call
    let (later, s) ← s.run rest
    return (out ++ later, s)

end StreamingBlanker

/-! ### How far a stream has come -/

/-- Samples before the last flush, and since: fed, and given out. -/
structure Progress where
  before : Nat
  fed : Nat
  out : Nat

namespace Progress

variable {K : Type} [Field K] [LinearOrder K] (blanker : NoiseBlanker K) (g : Progress)

def start : Progress := ⟨0, 0, 0⟩

/-- A block of `n` samples brings something out. -/
def emits (n : Nat) : Bool := g.out + 2 * blanker.robustSpanSamples ≤ g.fed + n

def feed (n : Nat) : Progress :=
  { g with
    fed := g.fed + n
    out := if g.emits blanker n then g.fed + n - blanker.robustSpanSamples else g.out }

def flush : Progress := ⟨g.before + g.fed, 0, 0⟩

end Progress

/-- At each block that brings something out, the samples fed are as `p` has them. -/
def EachEmission (blanker : NoiseBlanker K) (p : Nat → Prop) (g : Progress) : List (List (Sample K)) → Prop
  | [] => True
  | block :: rest => (g.emits blanker block.length → p (g.fed + block.length)) ∧
    EachEmission blanker p (g.feed blanker block.length) rest

/-- The windows of all that comes out are there: the stream ends in the earlier half of a
segment, the second or a later one. -/
def NoiseBlanker.complete (blanker : NoiseBlanker K) (fed : Nat) : Prop :=
  fed % blanker.window ≤ blanker.window / 2 ∧ 2 * blanker.window ≤ fed

/-- Nothing comes out once a flush has left the stream off its segments. -/
def Aligned (blanker : NoiseBlanker K) (g : Progress) : List (StreamingBlanker.Call K) → Prop
  | [] => True
  | .process block :: rest => (g.emits blanker block.length → g.before % blanker.window = 0) ∧
    Aligned blanker (g.feed blanker block.length) rest
  | .flush :: rest => Aligned blanker g.flush rest

namespace StreamingBlanker

/-- What a streaming blanker holds of the stream since the last flush, from segment `from_`
on. -/
structure Holds (b : NoiseBlanker K) (g : Progress) (stream : List (Sample K)) (from_ : Nat)
    (s : StreamingBlanker K) : Prop where
  blanker : s.blanker = b
  span : s.span = b.robustSpanSamples
  history : s.history = 4 * b.robustSpanSamples
  present : g.fed ≤ stream.length
  pending : s.pending = (stream.take g.fed).drop (from_ * b.window)
  absolute : s.absolute = g.before + from_ * b.window
  emitted : s.emitted + from_ * b.window = g.out
  behind : from_ = 0 ∨ from_ * b.window + 4 * b.robustSpanSamples ≤ g.out
  ahead : g.out = 0 ∨ g.out + b.robustSpanSamples ≤ g.fed

variable {norm : Sample K → K} {b : NoiseBlanker K} {g : Progress} {stream : List (Sample K)} {from_ : Nat}
  {s : StreamingBlanker K}

/-- The span is half a window of segments, and half a segment. -/
theorem span_eq : b.robustSpanSamples = b.window * (b.segmentSpan / 2) + b.window / 2 := by
  have odd : b.segmentSpan = 2 * (b.segmentSpan / 2) + 1 := by have := b.odd; omega
  have twice : b.window * b.segmentSpan = 2 * (b.window * (b.segmentSpan / 2)) + b.window := by
    conv_lhs => rw [odd]
    ring
  rw [NoiseBlanker.robustSpanSamples, twice]
  omega

theorem span_pos : 1 ≤ b.robustSpanSamples := by
  have := b.widest
  rw [span_eq]
  omega

/-- With the windows of all that comes out there, so are those of the filter. -/
theorem segments_there {fed : Nat} (complete : b.complete fed) (long : 2 * b.robustSpanSamples ≤ fed)
    (behind : from_ = 0 ∨ from_ * b.window + 5 * b.robustSpanSamples ≤ fed) :
    from_ + b.segmentSpan ≤ fed / b.window ∧ from_ + 2 ≤ fed / b.window := by
  obtain ⟨early, two⟩ := complete
  have wide := b.widest
  have odd := b.odd
  have span : b.robustSpanSamples = b.window * (b.segmentSpan / 2) + b.window / 2 := span_eq
  have window : b.segmentSpan * b.window = 2 * (b.window * (b.segmentSpan / 2)) + b.window := by
    have odd : b.segmentSpan = 2 * (b.segmentSpan / 2) + 1 := by omega
    conv_lhs => rw [odd]
    ring
  have fits {count : Nat} (h : count * b.window ≤ fed) : count ≤ fed / b.window := (Nat.le_div_iff_mul_le (by omega)).mpr h
  refine ⟨fits ?_, fits ?_⟩
  · rw [Nat.add_mul, window]
    rcases behind with none_ | behind
    · by_contra short
      have last : fed = b.window * (2 * (b.segmentSpan / 2)) + (b.window - 1) := by
        rw [none_, Nat.zero_mul, Nat.zero_add] at short
        rw [Nat.mul_left_comm]
        omega
      rw [last, Nat.mul_add_mod, Nat.mod_eq_of_lt (by omega)] at early
      omega
    · omega
  · rw [Nat.add_mul]
    rcases behind with none_ | behind
    · rw [none_]
      omega
    · -- the narrowest segments are the one close case
      by_cases narrow : b.window = 3
      · rw [narrow] at early behind span ⊢
        omega
      · omega

theorem holds_new (stream : List (Sample K)) : Holds b .start stream 0 (new b) where
  blanker := rfl
  span := max_eq_left span_pos
  history := by rw [new, max_eq_left span_pos]
  present := Nat.zero_le _
  pending := by simp [new, Progress.start]
  absolute := by simp [new, Progress.start]
  emitted := by simp [new, Progress.start]
  behind := .inl rfl
  ahead := .inl rfl

theorem Holds.pending_length (h : Holds b g stream from_ s) :
    s.pending.length + from_ * b.window = g.fed := by
  have := h.behind
  have := h.ahead
  have := h.emitted
  rw [h.pending, List.length_drop, List.length_take, min_eq_left h.present]
  rcases h.behind with none_ | behind
  · simp [none_]
  · omega

/-- What is held once a block of the stream is appended. -/
theorem Holds.grown (h : Holds b g stream from_ s) {block : List (Sample K)} (next : block <+: stream.drop g.fed) :
    s.pending ++ block = (stream.take (g.fed + block.length)).drop (from_ * b.window) ∧
      g.fed + block.length ≤ stream.length := by
  have length := h.pending_length
  obtain ⟨rest, is⟩ := next
  have cut : stream.take (g.fed + block.length) = stream.take g.fed ++ block := by
    rw [List.take_add, ← is, List.take_left]
  have fits : block.length ≤ stream.length - g.fed := by
    rw [← List.length_drop, ← is, List.length_append]
    exact Nat.le_add_right _ _
  have present := h.present
  refine ⟨?_, by omega⟩
  rw [cut, List.drop_append_of_le_length (by rw [List.length_take]; omega), h.pending]

variable (norm) in
/-- A block that brings nothing out. -/
theorem Holds.process_silent (h : Holds b g stream from_ s) {block : List (Sample K)}
    (next : block <+: stream.drop g.fed) (silent : g.emits b block.length = false) :
    ∃ s', s.process norm block = some ([], s') ∧ Holds b (g.feed b block.length) stream from_ s' := by
  have length := h.pending_length
  have emitted := h.emitted
  obtain ⟨grown, present⟩ := h.grown next
  have few : (s.pending ++ block).length < s.emitted + 2 * s.span := by
    simp only [Progress.emits, decide_eq_false_iff_not] at silent
    rw [List.length_append, h.span]
    omega
  refine ⟨{ s with pending := s.pending ++ block }, ?_, ?_⟩
  · simp only [process, few, if_true]
    rfl
  · simp only [Progress.feed, silent]
    exact
      { blanker := h.blanker
        span := h.span
        history := h.history
        present := present
        pending := grown
        absolute := h.absolute
        emitted := h.emitted
        behind := h.behind
        ahead := h.ahead.imp_right fun ahead => ahead.trans (Nat.le_add_right _ _) }

theorem checkedSub_of_le {x y : Nat} (h : y ≤ x) : checkedSub x y = some (x - y) := if_pos h

theorem checkedSlice_of_le {α : Type} {l : List α} {start stop : Nat} (h : start ≤ stop) (h' : stop ≤ l.length) :
    checkedSlice l start stop = some ((l.take stop).drop start) := dif_pos ⟨h, h'⟩

variable (norm) in
/-- A block that brings something out: what, of the buffer blanked, and what is then held. -/
theorem Holds.process_emits (h : Holds b g stream from_ s) {block : List (Sample K)}
    (next : block <+: stream.drop g.fed) (emits : g.emits b block.length) (aligned : g.before % b.window = 0) :
    ∃ s' from', s.process norm block =
        some ((((b.process norm ((stream.take (g.fed + block.length)).drop (from_ * b.window))).1.take
          (g.fed + block.length - b.robustSpanSamples - from_ * b.window)).drop (g.out - from_ * b.window)), s') ∧
      Holds b (g.feed b block.length) stream from' s' := by
  have length := h.pending_length
  have emitted := h.emitted
  have spanPos : 1 ≤ b.robustSpanSamples := span_pos
  obtain ⟨grown, present⟩ := h.grown next
  have reaches : g.out + 2 * b.robustSpanSamples ≤ g.fed + block.length := by simpa [Progress.emits] using emits
  have grownLength : (s.pending ++ block).length + from_ * b.window = g.fed + block.length := by
    rw [List.length_append]
    omega
  have enough : ¬ (s.pending ++ block).length < s.emitted + 2 * s.span := by
    rw [h.span]
    omega
  generalize bufferIs : s.pending ++ block = buffer at *
  have processed : (b.process norm buffer).1.length = buffer.length := b.process_length buffer
  have toIs : buffer.length - b.robustSpanSamples =
      g.fed + block.length - b.robustSpanSamples - from_ * b.window := by omega
  have emittedIs : s.emitted = g.out - from_ * b.window := by omega
  -- history goes down to a segment boundary, which is one of the stream's
  generalize wantedIs : buffer.length - b.robustSpanSamples - 4 * b.robustSpanSamples = wanted
  have gridded : (s.absolute + wanted) % b.window = wanted % b.window := by
    rw [h.absolute, Nat.add_assoc, Nat.add_mod, aligned, Nat.zero_add, Nat.mod_mod, Nat.add_comm,
      Nat.add_mul_mod_self_right]
  have least : wanted % b.window ≤ wanted := Nat.mod_le ..
  have keep : wanted - wanted % b.window = wanted / b.window * b.window := by
    have := Nat.div_add_mod' wanted b.window
    omega
  have held : wanted / b.window * b.window ≤ wanted := Nat.div_mul_le_self ..
  have start : (from_ + wanted / b.window) * b.window = from_ * b.window + wanted / b.window * b.window := Nat.add_mul ..
  refine ⟨{ s with
      pending := buffer.drop (wanted / b.window * b.window)
      emitted := buffer.length - b.robustSpanSamples - wanted / b.window * b.window
      absolute := s.absolute + wanted / b.window * b.window }, from_ + wanted / b.window, ?_, ?_⟩
  · rw [h.span] at enough
    simp only [process, bufferIs, h.blanker, h.span, h.history, if_neg enough]
    rw [checkedSub_of_le (by omega), Option.bind_eq_bind, Option.bind_some, checkedSlice_of_le (by omega) (by omega),
      Option.bind_eq_bind, Option.bind_some, wantedIs, gridded, checkedSub_of_le least, Option.bind_some, keep,
      checkedSlice_of_le (by omega) le_rfl, Option.bind_some, checkedSub_of_le (by omega), Option.bind_some,
      List.take_length, ← grown, ← emittedIs, ← toIs]
    rfl
  · simp only [Progress.feed, emits, if_true]
    exact
      { blanker := h.blanker
        span := h.span
        history := h.history
        present := present
        pending := by
          show buffer.drop _ = _
          rw [grown, List.drop_drop, start]
        absolute := by
          show s.absolute + _ = _
          rw [h.absolute, start]
          exact Nat.add_assoc ..
        emitted := by
          show buffer.length - b.robustSpanSamples - wanted / b.window * b.window + _ = g.fed + block.length - b.robustSpanSamples
          rw [start]
          omega
        behind := by
          show _ ∨ (from_ + wanted / b.window) * b.window + 4 * b.robustSpanSamples ≤ g.fed + block.length - b.robustSpanSamples
          rw [start]
          by_cases none_ : wanted = 0
          · rw [none_, Nat.zero_div, Nat.zero_mul, Nat.add_zero, Nat.add_zero]
            exact h.behind.imp_right fun behind => by omega
          · exact .inr (by omega)
        ahead := .inr (by
          show g.fed + block.length - b.robustSpanSamples + b.robustSpanSamples ≤ g.fed + block.length
          omega) }

/-! ### Blocks one after another -/

/-- What came out so far is right, sample by sample. -/
def Given (Right : Nat → Sample K → Prop) (g : Progress) (out : List (Sample K)) : Prop :=
  out.length = g.out ∧ ∀ p y, out[p]? = some y → Right p y

/-- What comes out of a buffer blanked is right, where the samples fed are as `p` has
them. -/
def RightOut (norm : Sample K → K) (b : NoiseBlanker K) (stream : List (Sample K)) (p : Nat → Prop)
    (Right : Nat → Sample K → Prop) : Prop :=
  ∀ out from_ fed, (from_ = 0 ∨ from_ * b.window + 4 * b.robustSpanSamples ≤ out) →
    out + 2 * b.robustSpanSamples ≤ fed → fed ≤ stream.length → p fed →
    ∀ q y, out ≤ q → q < fed - b.robustSpanSamples →
      (b.process norm ((stream.take fed).drop (from_ * b.window))).1[q - from_ * b.window]? = some y → Right q y

/-- A block, and all that has come out with it. -/
theorem Holds.process (h : Holds b g stream from_ s) {block : List (Sample K)} (next : block <+: stream.drop g.fed)
    (aligned : g.before % b.window = 0) {p : Nat → Prop} {Right : Nat → Sample K → Prop}
    (right : RightOut norm b stream p Right) (here : g.emits b block.length → p (g.fed + block.length))
    {out : List (Sample K)} (given : Given Right g out) :
    ∃ more s' from', s.process norm block = some (more, s') ∧ Holds b (g.feed b block.length) stream from' s' ∧
      Given Right (g.feed b block.length) (out ++ more) := by
  cases emits : g.emits b block.length with
  | false =>
    obtain ⟨s', is, holds⟩ := h.process_silent norm next emits
    refine ⟨[], s', from_, is, holds, ?_⟩
    rw [List.append_nil]
    simpa [Given, Progress.feed, emits] using given
  | true =>
    obtain ⟨s', from', is, holds⟩ := h.process_emits norm next emits aligned
    refine ⟨_, s', from', is, holds, ?_⟩
    have reaches : g.out + 2 * b.robustSpanSamples ≤ g.fed + block.length := by simpa [Progress.emits] using emits
    have start : from_ * b.window ≤ g.out := by have := h.emitted; omega
    have present := (h.grown next).2
    obtain ⟨length, given⟩ := given
    refine ⟨?_, fun q y found => ?_⟩
    · rw [List.length_append, length, List.length_drop, List.length_take, b.process_length, List.length_drop,
        List.length_take]
      simp only [Progress.feed, emits, if_true]
      omega
    · by_cases earlier : q < out.length
      · exact given q y (by rwa [List.getElem?_append_left earlier] at found)
      · have place : g.out - from_ * b.window + (q - out.length) = q - from_ * b.window := by omega
        rw [List.getElem?_append_right (by omega), List.getElem?_drop, place, List.getElem?_take] at found
        split at found
        · exact right g.out from_ _ h.behind reaches present (here emits) q y (by omega) (by omega) found
        · cases found

/-- What last came out, if anything did. -/
def Progress.last (b : NoiseBlanker K) (p : Nat → Prop) (g : Progress) : Prop :=
  g.out = 0 ∨ (p (g.out + b.robustSpanSamples) ∧ b.robustSpanSamples ≤ g.out)

theorem Progress.last_feed {p : Nat → Prop} {n : Nat} (last : Progress.last b p g)
    (here : g.emits b n → p (g.fed + n)) : Progress.last b p (g.feed b n) := by
  cases emits : g.emits b n with
  | false => simpa [Progress.last, Progress.feed, emits] using last
  | true =>
    have reaches : g.out + 2 * b.robustSpanSamples ≤ g.fed + n := by simpa [Progress.emits] using emits
    have back : g.fed + n - b.robustSpanSamples + b.robustSpanSamples = g.fed + n := by omega
    refine .inr ?_
    simp only [Progress.feed, emits, if_true]
    rw [back]
    exact ⟨here emits, by omega⟩

/-- All that comes out of blocks of the stream. -/
theorem Holds.run (h : Holds b g stream from_ s) {blocks : List (List (Sample K))}
    (next : blocks.flatten <+: stream.drop g.fed) (aligned : g.before % b.window = 0) {p : Nat → Prop}
    {Right : Nat → Sample K → Prop} (right : RightOut norm b stream p Right) (each : EachEmission b p g blocks)
    {out : List (Sample K)} (given : Given Right g out) (last : Progress.last b p g) :
    ∃ more s' from' g', s.run norm (blocks.map .process) = some (more, s') ∧ Holds b g' stream from' s' ∧
      Given Right g' (out ++ more) ∧ g'.fed = g.fed + blocks.flatten.length ∧ Progress.last b p g' := by
  induction blocks generalizing g from_ s out with
  | nil => exact ⟨[], s, from_, g, rfl, h, by rwa [List.append_nil], rfl, last⟩
  | cons block rest ih =>
    obtain ⟨here, later⟩ := each
    rw [List.flatten_cons] at next
    obtain ⟨more, s', from', is, holds, given⟩ :=
      h.process ((List.prefix_append _ _).trans next) aligned right here given
    have next' : rest.flatten <+: stream.drop (g.fed + block.length) := by
      obtain ⟨past, cut⟩ := next
      rw [← List.drop_drop, ← cut, List.append_assoc, List.drop_left]
      exact List.prefix_append _ _
    obtain ⟨later, s'', from'', g', is', holds', given', fed, last⟩ :=
      ih holds next' aligned later given (Progress.last_feed last here)
    refine ⟨more ++ later, s'', from'', g', ?_, holds', by rwa [← List.append_assoc], ?_, last⟩
    · simp only [List.map_cons, run, call, is, is', Option.bind_eq_bind, Option.bind_some]
      rfl
    · rw [fed, List.flatten_cons, List.length_append]
      exact Nat.add_assoc ..

variable (norm) in
/-- The end of the stream. -/
theorem Holds.flush (h : Holds b g stream from_ s) (whole : g.fed = stream.length) :
    ∃ s', s.flush norm =
        some ((b.process norm (stream.drop (from_ * b.window))).1.drop (g.out - from_ * b.window), s') ∧
      ∀ stream', Holds b g.flush stream' 0 s' := by
  have anew (s' : StreamingBlanker K) (blanker : s'.blanker = b) (span : s'.span = s.span)
      (history : s'.history = s.history) (pending : s'.pending = []) (emitted : s'.emitted = 0)
      (absolute : s'.absolute = g.before + g.fed) (stream' : List (Sample K)) : Holds b g.flush stream' 0 s' :=
    { blanker
      span := span.trans h.span
      history := history.trans h.history
      present := Nat.zero_le _
      pending := by rw [pending]; simp [Progress.flush]
      absolute := by rw [absolute]; simp [Progress.flush]
      emitted := by rw [emitted]; simp [Progress.flush]
      behind := .inl rfl
      ahead := .inl rfl }
  have length := h.pending_length
  have emitted := h.emitted
  have spanPos : 1 ≤ b.robustSpanSamples := span_pos
  have held : s.pending = stream.drop (from_ * b.window) := by rw [h.pending, whole, List.take_length]
  have emittedIs : s.emitted = g.out - from_ * b.window := by omega
  have processed : (b.process norm s.pending).1.length = s.pending.length := b.process_length s.pending
  by_cases done : s.pending.length ≤ s.emitted
  · have none_ : s.pending = [] := List.length_eq_zero_iff.mp (by have := h.ahead; omega)
    have nothing : (b.process norm s.pending).1.drop (g.out - from_ * b.window) = [] := by
      rw [List.drop_eq_nil_iff, processed, none_]
      exact Nat.zero_le _
    have absolute : s.absolute = g.before + g.fed := by have := h.absolute; have := h.ahead; omega
    refine ⟨{ s with pending := [], emitted := 0 }, ?_, anew _ h.blanker rfl rfl rfl rfl absolute⟩
    simp only [StreamingBlanker.flush, done, if_true]
    rw [← held, nothing]
    rfl
  · have absolute : s.absolute + s.pending.length = g.before + g.fed := by have := h.absolute; omega
    refine ⟨{ s with pending := [], emitted := 0, absolute := s.absolute + s.pending.length }, ?_,
      anew _ h.blanker rfl rfl rfl rfl absolute⟩
    simp only [StreamingBlanker.flush, if_neg done, h.blanker]
    rw [checkedSlice_of_le (by omega) le_rfl, Option.bind_eq_bind, Option.bind_some, List.take_length, ← held, ← emittedIs]
    rfl

/-- Each sample that comes out is one that was fed, judged. -/
theorem rightOut_some : RightOut norm b stream (fun _ => True) fun q y =>
    ∃ rms, (stream[q]?.map fun x => (b.judge norm x rms).1) = some y := by
  intro out from_ fed behind reaches present _ q y after before found
  have start : from_ * b.window ≤ q := by
    rcases behind with none_ | behind
    · simp [none_]
    · omega
  have place : q - from_ * b.window < ((stream.take fed).drop (from_ * b.window)).length := by
    rw [List.length_drop, List.length_take]
    omega
  obtain ⟨sample, level, here, -, is⟩ := b.process_get norm place
  rw [List.getElem?_drop, Nat.add_sub_cancel' start, List.getElem?_take_of_lt (by omega)] at here
  exact ⟨_, by rw [here, ← found, is]; rfl⟩

/-- The whole stream blanked, sample by sample. -/
theorem process_whole (enough : b.segmentSpan ≤ stream.length / b.window) (two : 2 ≤ stream.length / b.window) {q : Nat}
    (inside : q < stream.length) :
    (b.process norm stream).1[q]? = b.judged norm stream (stream.length / b.window - 1) q := by
  have start : 0 * b.window ≤ q := by omega
  have := b.process_cut norm (le_refl stream.length) start inside (.inl rfl) (by omega) (by omega)
  rwa [Nat.zero_mul, List.take_length, List.drop_zero, Nat.sub_zero] at this

/-- Samples whose windows are there come out as of the whole stream. -/
theorem rightOut_complete : RightOut norm b stream b.complete fun q y => (b.process norm stream).1[q]? = some y := by
  intro out from_ fed behind reaches present complete q y after before found
  have wide := b.widest
  have span : b.robustSpanSamples = b.window * (b.segmentSpan / 2) + b.window / 2 := span_eq
  have start : from_ * b.window ≤ q := by
    rcases behind with none_ | behind
    · simp [none_]
    · omega
  -- half a window of segments fits between the sample and the end
  have there : q / b.window + b.segmentSpan / 2 < fed / b.window := by
    have early := complete.1
    have place := Nat.div_mul_le_self q b.window
    have ends_ := Nat.div_add_mod' fed b.window
    refine Nat.lt_of_mul_lt_mul_right (a := b.window) ?_
    rw [Nat.add_mul, Nat.mul_comm (b.segmentSpan / 2)]
    omega
  have window : from_ = 0 ∨ from_ + b.segmentSpan / 2 ≤ q / b.window := by
    refine behind.imp_right fun behind => (Nat.le_div_iff_mul_le (by omega)).mpr ?_
    rw [Nat.add_mul, Nat.mul_comm (b.segmentSpan / 2)]
    omega
  have grows : fed / b.window ≤ stream.length / b.window := Nat.div_le_div_right present
  obtain ⟨enough, two⟩ := segments_there complete (by omega) (behind.imp_right fun behind => by omega)
  rw [b.process_cut norm present start (by omega) window enough two] at found
  rw [process_whole (by omega) (by omega) (by omega), ← found]
  exact b.judged_settled (by omega) (by omega)

/-! ### Whole streams -/

/-- The blocks of a stream, and what they give. -/
def given (norm : Sample K → K) (b : NoiseBlanker K) (blocks : List (List (Sample K))) : Option (List (Sample K)) :=
  ((new b).run norm (blocks.map .process)).map (·.1)

/-- The same, to the end of the stream. -/
def whole (norm : Sample K → K) (b : NoiseBlanker K) (blocks : List (List (Sample K))) : Option (List (Sample K)) := do
  let (out, s) ← (new b).run norm (blocks.map .process)
  let (rest, _) ← s.flush norm
  return out ++ rest

variable (norm) in
/-- All that comes out of a stream from its start. -/
theorem run_new {blocks : List (List (Sample K))} (next : blocks.flatten <+: stream) {p : Nat → Prop}
    {Right : Nat → Sample K → Prop} (right : RightOut norm b stream p Right) (each : EachEmission b p .start blocks) :
    ∃ out s' from' g', (new b).run norm (blocks.map .process) = some (out, s') ∧ Holds b g' stream from' s' ∧
      Given Right g' out ∧ g'.fed = blocks.flatten.length ∧ Progress.last b p g' := by
  obtain ⟨out, s', from', g', is, holds, given, fed, last⟩ := (holds_new (b := b) stream).run
    next rfl right each (⟨rfl, by simp⟩ : Given Right .start []) (.inl rfl)
  exact ⟨out, s', from', g', is, holds, given, by rw [fed]; exact Nat.zero_add _, last⟩

/-- What comes out at the end of a stream is right. -/
def RightEnd (norm : Sample K → K) (b : NoiseBlanker K) (stream : List (Sample K)) (p : Nat → Prop)
    (Right : Nat → Sample K → Prop) : Prop :=
  ∀ g from_, (from_ = 0 ∨ from_ * b.window + 4 * b.robustSpanSamples ≤ g.out) → Progress.last b p g →
    (g.out = 0 ∨ g.out + b.robustSpanSamples ≤ stream.length) →
    ∀ q y, g.out ≤ q → q < stream.length →
      (b.process norm (stream.drop (from_ * b.window))).1[q - from_ * b.window]? = some y → Right q y

variable (norm) in
/-- All of a stream. -/
theorem whole_right {blocks : List (List (Sample K))} {p : Nat → Prop} {Right : Nat → Sample K → Prop}
    (right : RightOut norm b blocks.flatten p Right) (rightEnd : RightEnd norm b blocks.flatten p Right)
    (each : EachEmission b p .start blocks) :
    ∃ out, whole norm b blocks = some out ∧ out.length = blocks.flatten.length ∧ ∀ q y, out[q]? = some y → Right q y := by
  obtain ⟨out, s', from', g', is, holds, ⟨length, given⟩, fed, last⟩ :=
    run_new norm (List.prefix_refl blocks.flatten) right each
  obtain ⟨s'', flushed, -⟩ := holds.flush norm fed
  have start : from' * b.window ≤ g'.out := by have := holds.emitted; omega
  have ahead := holds.ahead
  have behind := holds.behind
  rw [fed] at ahead
  refine ⟨_, by rw [whole, is]; simp only [Option.bind_eq_bind, Option.bind_some, flushed]; rfl, ?_, fun q y found => ?_⟩
  · rw [List.length_append, length, List.length_drop, b.process_length, List.length_drop]
    omega
  · by_cases earlier : q < out.length
    · exact given q y (by rwa [List.getElem?_append_left earlier] at found)
    · have place : g'.out - from' * b.window + (q - out.length) = q - from' * b.window := by omega
      rw [List.getElem?_append_right (by omega), List.getElem?_drop, place] at found
      have inside : q - from' * b.window < (b.process norm (blocks.flatten.drop (from' * b.window))).1.length :=
        (List.getElem?_eq_some_iff.mp found).1
      rw [b.process_length, List.length_drop] at inside
      exact rightEnd g' from' behind last ahead q y (by omega) (by omega) found

theorem eachEmission_all (g : Progress) (blocks : List (List (Sample K))) : EachEmission b (fun _ => True) g blocks := by
  induction blocks generalizing g with
  | nil => trivial
  | cons block rest ih => exact ⟨fun _ => trivial, ih _⟩

theorem rightEnd_some : RightEnd norm b stream (fun _ => True) fun q y =>
    ∃ rms, (stream[q]?.map fun x => (b.judge norm x rms).1) = some y := by
  intro g from_ behind _ _ q y after inside found
  have start : from_ * b.window ≤ q := by
    rcases behind with none_ | behind
    · simp [none_]
    · omega
  have place : q - from_ * b.window < (stream.drop (from_ * b.window)).length := by
    rw [List.length_drop]
    omega
  obtain ⟨sample, level, here, -, is⟩ := b.process_get norm place
  rw [List.getElem?_drop, Nat.add_sub_cancel' start] at here
  exact ⟨_, by rw [here, ← found, is]; rfl⟩

theorem rightEnd_complete : RightEnd norm b stream b.complete fun q y => (b.process norm stream).1[q]? = some y := by
  intro g from_ behind last ahead q y after inside found
  have spanPos : 1 ≤ b.robustSpanSamples := span_pos
  rcases last with nothing | ⟨complete, long⟩
  · have none_ : from_ = 0 := by omega
    rwa [none_, Nat.zero_mul, List.drop_zero, Nat.sub_zero] at found
  · have wide := b.widest
    have span : b.robustSpanSamples = b.window * (b.segmentSpan / 2) + b.window / 2 := span_eq
    have grows : (g.out + b.robustSpanSamples) / b.window ≤ stream.length / b.window :=
      Nat.div_le_div_right (by omega)
    obtain ⟨enough, two⟩ := segments_there complete (by omega) (behind.imp_right fun behind => by omega)
    have start : from_ * b.window ≤ q := by
      rcases behind with none_ | behind
      · simp [none_]
      · omega
    have window : from_ = 0 ∨ from_ + b.segmentSpan / 2 ≤ q / b.window := by
      refine behind.imp_right fun behind => (Nat.le_div_iff_mul_le (by omega)).mpr ?_
      rw [Nat.add_mul, Nat.mul_comm (b.segmentSpan / 2)]
      omega
    have cut := b.process_cut norm (le_refl stream.length) start inside window (by omega) (by omega)
    rw [List.take_length] at cut
    rw [process_whole (by omega) (by omega) inside, ← cut, found]

/-- However the stream is cut, each sample comes out once and in its place, as it was or
blanked. -/
theorem whole_some (norm : Sample K → K) (b : NoiseBlanker K) (blocks : List (List (Sample K))) :
    ∃ out, whole norm b blocks = some out ∧
      List.Forall₂ (fun x y => ∃ rms, y = (b.judge norm x rms).1) blocks.flatten out := by
  obtain ⟨out, is, length, right⟩ := whole_right norm rightOut_some rightEnd_some (eachEmission_all .start blocks)
  refine ⟨out, is, List.forall₂_iff_get.mpr ⟨length.symm, fun q inside inside' => ?_⟩⟩
  obtain ⟨rms, judged⟩ := right q _ (List.getElem?_eq_getElem inside')
  rw [List.getElem?_eq_getElem inside, Option.map_some] at judged
  exact ⟨rms, (Option.some.inj judged).symm⟩

variable (norm) in
/-- What comes out is the stream blanked, as far as it has come. -/
theorem given_prefix {blocks : List (List (Sample K))} (next : blocks.flatten <+: stream)
    (each : EachEmission b b.complete .start blocks) :
    ∃ out, given norm b blocks = some out ∧ out <+: (b.process norm stream).1 := by
  obtain ⟨out, s', from', g', is, holds, right, fed, last⟩ := run_new norm next rightOut_complete each
  refine ⟨out, by rw [given, is]; rfl, ?_⟩
  rw [List.prefix_iff_getElem?]
  intro q inside
  exact right.2 q _ (List.getElem?_eq_getElem inside)

/-- And to the end of the stream, all of it blanked. -/
theorem whole_eq {blocks : List (List (Sample K))} (each : EachEmission b b.complete .start blocks) :
    whole norm b blocks = some (b.process norm blocks.flatten).1 := by
  obtain ⟨out, is, length, right⟩ := whole_right norm rightOut_complete rightEnd_complete each
  rw [is]
  congr 1
  refine List.ext_getElem? fun q => ?_
  by_cases inside : q < out.length
  · rw [List.getElem?_eq_getElem inside, right q _ (List.getElem?_eq_getElem inside)]
  · rw [List.getElem?_eq_none (by omega), List.getElem?_eq_none (by rw [b.process_length]; omega)]

/-! ### Flushes among the blocks -/

/-- What is held of a stream is held of another that goes on from there. -/
theorem Holds.anew (h : Holds b g stream from_ s) {stream' : List (Sample K)} (same : stream'.take g.fed = stream.take g.fed)
    (present : g.fed ≤ stream'.length) : Holds b g stream' from_ s :=
  { h with
    present
    pending := by rw [same]; exact h.pending }

/-- No subtraction underflows and no bound is out of range, in any order of calls, while
nothing comes out once a flush has left the stream off its segments. -/
theorem Holds.run_some (norm : Sample K → K) (h : Holds b g stream from_ s) {calls : List (Call K)}
    (aligned : Aligned b g calls) : (s.run norm calls).isSome := by
  induction calls generalizing g stream from_ s with
  | nil => rfl
  | cons call rest ih =>
    have one {out : List (Sample K)} {s' : StreamingBlanker K} (is : s.call norm call = some (out, s'))
        (later : (s'.run norm rest).isSome) : (s.run norm (call :: rest)).isSome := by
      obtain ⟨⟨more, s''⟩, is'⟩ := Option.isSome_iff_exists.mp later
      simp [StreamingBlanker.run, is, is']
    cases call with
    | process block =>
      obtain ⟨here, later⟩ := aligned
      have length : (stream.take g.fed).length = g.fed := by rw [List.length_take, min_eq_left h.present]
      have h : Holds b g (stream.take g.fed ++ block) from_ s :=
        h.anew (List.take_left' length) (by rw [List.length_append, length]; exact Nat.le_add_right _ _)
      have next : block <+: (stream.take g.fed ++ block).drop g.fed :=
        (List.drop_left' length).symm ▸ List.prefix_refl block
      cases emits : g.emits b block.length with
      | false =>
        obtain ⟨s', is, holds⟩ := h.process_silent norm next emits
        exact one is (ih holds later)
      | true =>
        obtain ⟨s', from', is, holds⟩ := h.process_emits norm next emits (here emits)
        exact one is (ih holds later)
    | flush =>
      have length : (stream.take g.fed).length = g.fed := by rw [List.length_take, min_eq_left h.present]
      have h : Holds b g (stream.take g.fed) from_ s :=
        h.anew (by rw [List.take_take, min_self]) (by rw [length])
      obtain ⟨s', is, holds⟩ := h.flush norm length.symm
      exact one is (ih (holds []) aligned)

/-- However a stream is cut, each sample comes out once, in its place, as it was or blanked.
Two cuttings whose every output has its windows there agree as far as both reach, and give
the same to the end. And no call fails while nothing comes out once a flush has left the
stream off its segments. -/
theorem streamed (norm : Sample K → K) (b : NoiseBlanker K) :
    (∀ blocks, ∃ out, whole norm b blocks = some out ∧
      List.Forall₂ (fun x y => ∃ rms, y = (b.judge norm x rms).1) blocks.flatten out) ∧
    (∀ stream blocks blocks', blocks.flatten <+: stream → blocks'.flatten <+: stream →
      EachEmission b b.complete .start blocks → EachEmission b b.complete .start blocks' →
      ∃ out out', given norm b blocks = some out ∧ given norm b blocks' = some out' ∧
        ∀ q, q < out.length → q < out'.length → out[q]? = out'[q]?) ∧
    (∀ blocks blocks', blocks.flatten = blocks'.flatten → EachEmission b b.complete .start blocks →
      EachEmission b b.complete .start blocks' → whole norm b blocks = whole norm b blocks') ∧
    ∀ calls, Aligned b .start calls → ((new b).run norm calls).isSome := by
  refine ⟨whole_some norm b, ?_, ?_, fun calls aligned => (holds_new []).run_some norm aligned⟩
  · intro stream blocks blocks' next next' each each'
    obtain ⟨out, is, before⟩ := given_prefix norm next each
    obtain ⟨out', is', before'⟩ := given_prefix norm next' each'
    refine ⟨out, out', is, is', fun q inside inside' => ?_⟩
    rw [List.getElem?_eq_getElem inside, List.getElem?_eq_getElem inside']
    rw [← List.prefix_iff_getElem?.mp before q inside, ← List.prefix_iff_getElem?.mp before' q inside']
  · intro blocks blocks' same each each'
    rw [whole_eq each, whole_eq each', same]

end StreamingBlanker

def smallBlanker : NoiseBlanker ℚ := ⟨1, 3, 3, .blank, by decide, by decide, by decide⟩

/-- The magnitude of the samples used here, whose imaginary part is none. -/
def magnitude (sample : Sample ℚ) : ℚ := |sample.1| + |sample.2|

def reals (values : List ℚ) : List (Sample ℚ) := values.map fun value => (value, 0)

/-- Two cuttings that end on segments. -/
theorem streamed_early :
    StreamingBlanker.whole magnitude smallBlanker [reals [10, 10, 10, 14, 14, 14, 10, 10, 10], reals [10, 10, 10]] =
      StreamingBlanker.whole magnitude smallBlanker [reals [10, 10, 10, 14, 14, 14, 10, 10, 10, 10, 10, 10]] := by
  refine (StreamingBlanker.streamed magnitude smallBlanker).2.2.1 _ _ rfl ⟨fun _ => ?_, fun emits => ?_, trivial⟩
    ⟨fun _ => ?_, trivial⟩
  · exact ⟨by decide, by decide⟩
  · exact absurd emits (by decide)
  · exact ⟨by decide, by decide⟩

/-- A block that ends late in a segment comes to other samples, and one after a flush off
the segments fails. -/
theorem streamed_late :
    StreamingBlanker.whole magnitude smallBlanker [reals [10, 10, 10, 14, 14, 14, 10, 10], reals [10, 10, 10, 10]] ≠
      StreamingBlanker.whole magnitude smallBlanker [reals [10, 10, 10, 14, 14, 14, 10, 10, 10, 10, 10, 10]] ∧
    (StreamingBlanker.new smallBlanker).run magnitude
      [.process (reals [1]), .flush, .process (reals [1, 1, 1, 1, 1, 1, 1, 1])] = none := by
  decide +kernel

end AetherHF.Phy

import AetherHF.Phy.RollingStages

/-! A receiver fed block after block: its buffer, its rows, the frames it takes, what it has
searched and what it announces. -/
namespace AetherHF.Phy.Rolling

open Recent

variable {K M T ρ δ : Type} [Field K] [LinearOrder K] {m : Modem K M T ρ δ}

/-! ### What a call was -/

namespace Pass

variable (pass : Pass m)

/-- The samples a call brings into the stream. -/
def arrived : List (Sample K) := pass.entered.buffer.drop pass.before.buffer.length

/-- The samples seen, with those of the call. -/
def seen : Nat := pass.entered.samplesSeen

/-- The frames its search adds to those pending. -/
def found : List (Pending K) := pass.searched.pending.drop pass.entered.pending.length

/-- The frames its harvest takes: of those pending, in order, the ones due. -/
def taken : List (Pending K) := (StreamingReceiver.byStart pass.searched.pending).filter (due m pass.seen)

def announcements : List (PendingFrame K) := pass.after.fresh.drop pass.before.fresh.length

/-- The receiver at each stage of the call. -/
def stages : List (StreamingReceiver m) := [pass.entered, pass.searched, pass.harvested, pass.toned, pass.after]

end Pass

/-- The stream that has entered. -/
def streamOf (history : List (Pass m)) : List (Sample K) := history.flatMap Pass.arrived

def foundIn (history : List (Pass m)) : List (Pending K) := history.flatMap Pass.found

/-- Where the frames announced start, in the order they were. -/
def announcedIn (history : List (Pass m)) : List Nat := (history.flatMap Pass.announcements).map (·.start)

/-- A search has had a position with four symbols and the transform's offset after it. -/
def Covered (history : List (Pass m)) (position : Nat) : Prop :=
  ∃ pass ∈ history, ∃ start stop, pass.entered.region = some (start, stop) ∧ start ≤ position ∧
    position + (4 * m.symbol + m.fftOffset) ≤ stop

/-- A call of `feed` after others, of a receiver whose buffer is of `size` samples. -/
structure Sound (size : Nat) (front : List (Pass m)) (pass : Pass m) : Prop where
  /-- At each stage the buffer is the stream's from its start, and the rows are those of the
  positions from there. -/
  rolls : ∀ r ∈ pass.stages, r.buffer = (streamOf (front ++ [pass])).drop r.bufferStart ∧
    RowsOf m (streamOf (front ++ [pass])) r.bufferStart r.rows
  /-- The detector is given its region of the stream, and the row of each position there. -/
  looked : ∀ start stop, pass.entered.region = some (start, stop) → ∃ output rows,
    pass.searched = StreamingReceiver.takeIn { pass.entered with rows } start
      (m.detectWith (((streamOf (front ++ [pass])).take stop).drop start) output maxFramesPerSearch) ∧
      RowsOf m (streamOf (front ++ [pass])) start output ∧ output.length + m.referenceLen = stop - start + 1
  /-- A frame is taken in the call it is found in or, of those not due before, in the call that
  makes it due. -/
  taken : pass.taken.Perm (pass.found.filter (due m pass.seen) ++
    (foundIn front).filter fun p => !due m (streamOf front).length p && due m pass.seen p)
  waiting : pass.after.pending.Perm ((foundIn (front ++ [pass])).filter fun p => !due m pass.seen p)
  remembered : ∃ knowns, List.Forall₂ Remembers pass.taken knowns ∧
    pass.harvested.done = knowns.foldl (remember doneMemory) pass.searched.done
  /-- All its samples are in the buffer. -/
  present : ∀ p ∈ pass.taken, pass.searched.bufferStart ≤ p.sync.start ∧
    p.end_ + m.margin ≤ pass.searched.bufferStart + pass.searched.buffer.length
  covered : ∀ position, position + (4 * m.symbol + m.fftOffset) ≤ pass.seen → Covered (front ++ [pass]) position
  announced : pass.after.fresh = pass.before.fresh ++ pass.announcements ∧ Apart doneMemory (announcedIn (front ++ [pass]))
  bounded : pass.after.buffer.length ≤ size

/-! ### One call -/

/-- What the stages of a call do, one after another. -/
structure Staged (stream : List (Sample K)) (pass : Pass m) : Prop where
  entered : ∃ blanker band arrived, pass.entered = { pass.before with blanker, band, buffer := pass.before.buffer ++ arrived }
  rolls : ∀ r ∈ pass.stages, Rolls (stream ++ pass.arrived) r
  searched : Looks (stream ++ pass.arrived) pass.entered pass.searched
  harvested : Harvests pass.searched pass.harvested
  toned : Tones pass.harvested pass.toned
  trimmed : ∃ buffer bufferStart rows, pass.after = { pass.toned with buffer, bufferStart, rows }
  bounded : pass.after.buffer.length ≤ pass.after.maxBuffer

theorem Rolls.pass {stream : List (Sample K)} {r : StreamingReceiver m} (rolls : Rolls stream r) (block : List (Sample K)) :
    ∃ pass, r.pass block = some pass ∧ pass.before = r ∧ Staged stream pass := by
  obtain ⟨arrived, blanker, band, entered, rolls₁⟩ := rolls.enter block
  obtain ⟨searched, search, looks⟩ := rolls₁.search
  obtain ⟨harvested, out, harvest, rolls₃, harvests⟩ := looks.rolls.harvest
  obtain ⟨toned, more, toneFloor, rolls₄, tones⟩ := rolls₃.toneFloor
  have near : (stream ++ arrived).length ≤ toned.searched - m.streamLookback + 2 * m.streamLookback := by
    obtain ⟨_, _, _, _, _, is⟩ := tones.only
    obtain ⟨_, _, _, is'⟩ := harvests.only
    rw [is.1, is']
    exact looks.near
  have waiting : ∀ p ∈ toned.pending, due m (stream ++ arrived).length p = false := by
    obtain ⟨_, _, _, _, _, is⟩ := tones.only
    obtain ⟨_, _, _, is'⟩ := harvests.only
    intro p member
    rw [is.1, is', looks.rolls.seen] at member
    simpa using (List.mem_filter.mp member).2
  obtain ⟨after, buffer, bufferStart, rows, trim, only, rolls₅, bounded⟩ := rolls₄.trim near waiting
  refine ⟨⟨r, { r with blanker, band, buffer := r.buffer ++ arrived }, searched, harvested, toned, after,
    (out ++ more).insertionSort fun a b => a.frame.start ≤ b.frame.start⟩, ?_, rfl, ?_⟩
  · simp only [StreamingReceiver.pass, entered, search, harvest, toneFloor, trim, Option.bind_eq_bind, Option.bind_some]
    rfl
  · have same : (r.buffer ++ arrived).drop r.buffer.length = arrived := List.drop_left
    refine ⟨⟨blanker, band, arrived, rfl⟩, ?_, ?_, harvests, tones, ⟨buffer, bufferStart, rows, only⟩, bounded⟩
    · show ∀ r' ∈ [_, searched, harvested, toned, after], Rolls (stream ++ (r.buffer ++ arrived).drop r.buffer.length) r'
      rw [same]
      intro r' member
      simp only [List.mem_cons, List.not_mem_nil, or_false] at member
      rcases member with rfl | rfl | rfl | rfl | rfl
      · exact rolls₁
      · exact looks.rolls
      · exact rolls₃
      · exact rolls₄
      · exact rolls₅
    · show Looks (stream ++ (r.buffer ++ arrived).drop r.buffer.length) _ searched
      rw [same]
      exact looks

/-! ### Call after call -/

/-- A receiver after calls of `feed`. -/
structure Ran (size : Nat) (history : List (Pass m)) (r : StreamingReceiver m) : Prop where
  size : r.maxBuffer = size
  rolls : Rolls (streamOf history) r
  waiting : r.pending.Perm ((foundIn history).filter fun p => !due m (streamOf history).length p)
  covered : ∀ position, position + (4 * m.symbol + m.fftOffset) ≤ (streamOf history).length → Covered history position
  recent : r.announced = (announcedIn history).rtake doneMemory
  apart : Apart doneMemory (announcedIn history)

theorem ran_new (modem : M) (tone : T) (blanker : Option (NoiseBlanker K)) (band : Fir K (Sample K)) (asked : Nat) :
    Ran (max asked m.toneKeep) [] (StreamingReceiver.new m modem tone blanker band asked) where
  size := rfl
  rolls :=
    { flows := by
        intro s is
        cases blanker with
        | none => cases is
        | some b =>
          rw [← Option.some.inj is]
          exact ⟨b, .start, [], 0, rfl, StreamingBlanker.holds_new []⟩
      buffer := rfl
      kept := Nat.zero_le _
      searched := Nat.zero_le _
      rows := by
        intro i row at_
        cases at_
      pending := by
        intro p none_
        exact absurd none_ List.not_mem_nil }
  waiting := .nil
  covered := by
    intro position short
    have wide : 0 < 4 * m.symbol := by
      unfold Modem.symbol
      cases m.air <;> decide
    simp only [streamOf, List.flatMap_nil, List.length_nil] at short
    omega
  recent := rfl
  apart := apart_nil

omit [Field K] [LinearOrder K] in
theorem due_mono {seen seen' : Nat} (grows : seen ≤ seen') {p : Pending K} (early : due m seen' p = false) :
    due m seen p = false := by
  have := of_decide_eq_false early
  exact decide_eq_false (by omega)

section
variable {size : Nat} {history : List (Pass m)} {pass : Pass m}

theorem streamOf_concat : streamOf (history ++ [pass]) = streamOf history ++ pass.arrived := by
  rw [streamOf, List.flatMap_append, List.flatMap_singleton]
  rfl

theorem foundIn_concat : foundIn (history ++ [pass]) = foundIn history ++ pass.found := by
  rw [foundIn, List.flatMap_append, List.flatMap_singleton]
  rfl

theorem announcedIn_concat : announcedIn (history ++ [pass]) = announcedIn history ++ pass.announcements.map (·.start) := by
  rw [announcedIn, List.flatMap_append, List.map_append, List.flatMap_singleton]
  rfl

namespace Staged

theorem seen {stream : List (Sample K)} (staged : Staged stream pass) : pass.seen = (stream ++ pass.arrived).length :=
  (staged.rolls pass.entered (List.mem_cons_self ..)).seen

theorem pending {stream : List (Sample K)} (staged : Staged stream pass) :
    pass.searched.pending = pass.before.pending ++ pass.found := by
  obtain ⟨_, _, _, is⟩ := staged.entered
  obtain ⟨frames, _, _, _, _, is', _⟩ := staged.searched.only
  have same : pass.entered.pending = pass.before.pending := by rw [is]
  rw [Pass.found, is']
  dsimp only
  rw [List.drop_left, same]

/-- The frames due before a call and pending since, of those found. -/
theorem taken {stream : List (Sample K)} (staged : Staged stream pass) {found : List (Pending K)}
    (waiting : pass.before.pending.Perm (found.filter fun p => !due m stream.length p)) :
    pass.taken.Perm (pass.found.filter (due m pass.seen) ++
      found.filter fun p => !due m stream.length p && due m pass.seen p) := by
  have sorted := (List.perm_insertionSort (fun p q : Pending K => p.sync.start ≤ q.sync.start) pass.searched.pending).filter
    (due m pass.seen)
  refine sorted.trans ?_
  rw [staged.pending, List.filter_append]
  refine List.perm_append_comm.trans (List.Perm.append_left _ ?_)
  refine (waiting.filter _).trans ?_
  rw [List.filter_filter]
  refine List.Perm.of_eq (List.filter_congr fun p _ => ?_)
  exact Bool.and_comm ..

theorem waiting {stream : List (Sample K)} (staged : Staged stream pass) {found : List (Pending K)}
    (waiting : pass.before.pending.Perm (found.filter fun p => !due m stream.length p)) :
    pass.after.pending.Perm ((found ++ pass.found).filter fun p => !due m pass.seen p) := by
  obtain ⟨_, _, _, after⟩ := staged.trimmed
  obtain ⟨_, _, _, _, _, toned, _⟩ := staged.toned.only
  obtain ⟨_, _, _, harvested⟩ := staged.harvested.only
  have seen : pass.searched.samplesSeen = pass.seen := by
    rw [staged.seen, (staged.rolls pass.searched (by simp [Pass.stages])).seen]
  have pending : pass.after.pending =
      (StreamingReceiver.byStart pass.searched.pending).filter fun p => !due m pass.seen p := by
    rw [after, toned, harvested, seen]
  have grows : stream.length ≤ pass.seen := by
    rw [staged.seen, List.length_append]
    exact Nat.le_add_right ..
  rw [pending]
  have sorted := (List.perm_insertionSort (fun p q : Pending K => p.sync.start ≤ q.sync.start) pass.searched.pending).filter
    fun p => !due m pass.seen p
  refine sorted.trans ?_
  rw [staged.pending, List.filter_append, List.filter_append]
  refine List.Perm.append_right _ ((waiting.filter _).trans ?_)
  rw [List.filter_filter]
  refine List.Perm.of_eq (List.filter_congr fun p _ => ?_)
  -- not due now, not due before
  cases early : due m pass.seen p with
  | true => rfl
  | false => rw [due_mono grows early]; rfl

theorem announces {stream : List (Sample K)} (staged : Staged stream pass) :
    pass.after.fresh = pass.before.fresh ++ pass.announcements ∧
      Announces pass.before.announced pass.announcements pass.after.announced := by
  obtain ⟨_, _, _, after⟩ := staged.trimmed
  obtain ⟨_, _, _, announced', fresh', toned, announces'⟩ := staged.toned.only
  obtain ⟨_, _, _, harvested⟩ := staged.harvested.only
  obtain ⟨_, announced, fresh, _, _, searched, announces, _⟩ := staged.searched.only
  obtain ⟨_, _, _, entered⟩ := staged.entered
  have all : pass.after.fresh = pass.before.fresh ++ (fresh ++ fresh') := by
    rw [after, toned, harvested, searched, entered]
    exact List.append_assoc ..
  have these : pass.announcements = fresh ++ fresh' := by
    rw [Pass.announcements, all, List.drop_left]
  have first : Announces pass.before.announced fresh pass.harvested.announced := by
    rw [harvested, searched]
    rw [entered] at announces
    exact announces
  have second : Announces pass.harvested.announced fresh' pass.after.announced := by
    rw [after, toned]
    exact announces'
  rw [these]
  exact ⟨all, first.trans second⟩

theorem maxBuffer {stream : List (Sample K)} (staged : Staged stream pass) : pass.after.maxBuffer = pass.before.maxBuffer := by
  obtain ⟨_, _, _, after⟩ := staged.trimmed
  obtain ⟨_, _, _, _, _, toned, _⟩ := staged.toned.only
  obtain ⟨_, _, _, harvested⟩ := staged.harvested.only
  obtain ⟨_, _, _, _, _, searched, _⟩ := staged.searched.only
  obtain ⟨_, _, _, entered⟩ := staged.entered
  rw [after, toned, harvested, searched, entered]

/-- What one search leaves too close to its end, the next one has, or one before it had. -/
theorem covered (staged : Staged (streamOf history) pass) (before : Rolls (streamOf history) pass.before)
    (earlier : ∀ position, position + (4 * m.symbol + m.fftOffset) ≤ (streamOf history).length → Covered history position)
    {position : Nat} (fits : position + (4 * m.symbol + m.fftOffset) ≤ pass.seen) : Covered (history ++ [pass]) position := by
  have entered := staged.rolls pass.entered (List.mem_cons_self ..)
  have length := entered.length
  have seen := staged.seen
  have old (fits : position + (4 * m.symbol + m.fftOffset) ≤ (streamOf history).length) :
      Covered (history ++ [pass]) position := by
    obtain ⟨pass', member, start, stop, region⟩ := earlier position fits
    exact ⟨pass', List.mem_append_left _ member, start, stop, region⟩
  have startIs : pass.entered.searchStart = pass.entered.searched - m.streamLookback := max_eq_right entered.kept
  have start : pass.entered.bufferStart ≤ pass.entered.searchStart := le_max_left ..
  have searched : pass.entered.searched ≤ (streamOf history).length - m.streamLookback := by
    obtain ⟨_, _, _, is⟩ := staged.entered
    have := before.searched
    rw [is]
    exact this
  have usable := m.usable_le
  by_cases earlyPlace : position < pass.entered.searchStart
  · exact old (by omega)
  · by_cases short : pass.entered.buffer.length < pass.entered.searchStart - pass.entered.bufferStart + 4 * m.symbol
    · omega
    · refine ⟨pass, List.mem_append_right _ (List.mem_singleton_self _), pass.entered.searchStart, pass.entered.samplesSeen,
        if_neg short, by omega, ?_⟩
      exact fits

end Staged

/-- One call keeps all of it. -/
theorem Ran.step {r : StreamingReceiver m} (ran : Ran size history r) (block : List (Sample K)) :
    ∃ pass, r.pass block = some pass ∧ Sound size history pass ∧ Ran size (history ++ [pass]) pass.after := by
  obtain ⟨pass, is, rfl, staged⟩ := ran.rolls.pass block
  have seen : pass.seen = (streamOf (history ++ [pass])).length := by rw [staged.seen, streamOf_concat]
  have rolls : ∀ r ∈ pass.stages, Rolls (streamOf (history ++ [pass])) r := by
    rw [streamOf_concat]
    exact staged.rolls
  obtain ⟨fresh, announces⟩ := staged.announces
  obtain ⟨recent, apart⟩ := announces _ ran.recent ran.apart
  rw [← announcedIn_concat] at recent apart
  have waiting := staged.waiting ran.waiting
  rw [← foundIn_concat] at waiting
  have covered (position : Nat) (fits : position + (4 * m.symbol + m.fftOffset) ≤ pass.seen) :=
    staged.covered ran.rolls ran.covered fits
  have searched := rolls pass.searched (by simp [Pass.stages])
  have held := staged.maxBuffer.trans ran.size
  refine ⟨pass, is, ?_, ?_⟩
  · exact
      { rolls := fun r member => ⟨(rolls r member).buffer, (rolls r member).rows⟩
        looked := by
          rw [streamOf_concat]
          exact staged.searched.looked
        taken := staged.taken ran.waiting
        waiting := waiting
        remembered := by
          obtain ⟨knowns, all, done⟩ := staged.harvested.remembers
          rw [searched.seen, ← seen] at all
          exact ⟨knowns, all, done⟩
        present := by
          intro p member
          obtain ⟨among, isDue⟩ := List.mem_filter.mp member
          refine ⟨(searched.pending p ((List.mem_insertionSort _).mp among)).1, ?_⟩
          rw [searched.length, ← seen]
          exact of_decide_eq_true isDue
        covered := covered
        announced := ⟨fresh, apart⟩
        bounded := by
          rw [← held]
          exact staged.bounded }
  · exact
      { size := held
        rolls := rolls pass.after (by simp [Pass.stages])
        waiting := by
          rw [← seen]
          exact waiting
        covered := by
          rw [← seen]
          exact covered
        recent := recent
        apart := apart }

theorem Ran.takePreambles {r : StreamingReceiver m} (ran : Ran size history r) : Ran size history r.takePreambles.1 :=
  { ran with rolls := { ran.rolls with } }

end

/-- In any order of calls each feed is sound after those before it. -/
theorem Ran.passes {size : Nat} {history : List (Pass m)} {r : StreamingReceiver m} (ran : Ran size history r)
    (calls : List (StreamingReceiver.Call K)) :
    ∃ passes, r.passes calls = some passes ∧ ∀ front pass, front ++ [pass] <+: passes →
      Sound size (history ++ front) pass := by
  induction calls generalizing history r with
  | nil =>
    refine ⟨[], rfl, ?_⟩
    intro front pass none_
    have := none_.length_le
    simp at this
  | cons call rest ih =>
    cases call with
    | takePreambles => exact ih ran.takePreambles
    | feed block =>
      obtain ⟨pass, is, sound, ran'⟩ := ran.step block
      obtain ⟨later, is', sound'⟩ := ih ran'
      refine ⟨pass :: later, ?_, ?_⟩
      · simp only [StreamingReceiver.passes, is, is', Option.bind_eq_bind, Option.bind_some]
        rfl
      · intro front pass' among
        cases front with
        | nil =>
          obtain ⟨rfl, -⟩ := List.cons_prefix_cons.mp among
          rw [List.append_nil]
          exact sound
        | cons first front =>
          obtain ⟨rfl, later'⟩ := List.cons_prefix_cons.mp among
          have here := sound' front pass' later'
          rwa [List.append_assoc] at here

/-- However a stream is cut into blocks, no call of a receiver of either air fails; its buffer and
its rows are where they are said to be, each frame pending is taken once, with the call that
brings its end and margin and with all of it there, each position is searched with room after
it, no frame is announced twice among the last remembered, and the buffer stays in its
bounds. -/
theorem StreamingReceiver.passes_sound (m : Modem K M T ρ δ) (modem : M) (tone : T) (blanker : Option (NoiseBlanker K))
    (band : Fir K (Sample K)) (asked : Nat) (calls : List (StreamingReceiver.Call K)) :
    ∃ passes, (StreamingReceiver.new m modem tone blanker band asked).passes calls = some passes ∧
      ∀ front pass, front ++ [pass] <+: passes → Sound (max asked m.toneKeep) front pass :=
  (ran_new modem tone blanker band asked).passes calls

end AetherHF.Phy.Rolling

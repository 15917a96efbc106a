import AetherHF.Link.Granted.Session

/-! What a session of two stations delivers, over every run of it: in order, once, and
nothing acknowledged that has not arrived. -/
namespace AetherHF.Link

open SelectiveRepeat (Stream Steps Inv)

/-! ### One call -/

section

variable {a b : Side} {s t : Stream Bytes}

/-- A live station at the start of a call that gives it `data`. -/
theorem Half.during (own : Half a b s) (other : Half b a t) (ready : a.Ready) (live : a.live = true)
    (others : Nat) {e : Engine} {data : Bytes} (actions : e.actions = []) (state : e.state = a.engine.state)
    (queue : e.tx = { a.engine.tx with queue := a.engine.tx.queue ++ data }) (rx : e.rx = a.engine.rx) :
    During a (a.given ++ data) others s t e s t := by
  obtain ⟨sends, given, _⟩ := own.sender live
  have sends' : Sends e.tx s := queue ▸ ⟨sends.base, sends.next, sends.records⟩
  refine ⟨.refl, .refl, own.settled, other.settled, rfl, rfl, rfl, rfl, fun _ => ?_, ?_, ?_, ?_⟩
  · refine ⟨state ▸ ready.up live, sends', rx ▸ (other.receiver live).1, ?_⟩
    rw [given, queue, List.append_assoc]
  · exact own.given.trans (List.prefix_append _ _)
  · rw [actions, ofSession, List.takeWhile_nil, List.flatMap_nil, List.append_nil]
    exact other.delivered
  · intro f member
    rw [actions] at member
    cases member

/-- What is heard of the other station is what it handed over. -/
theorem Half.tidings (own : Half a b s) (other : Half b a t) (live : a.live = true) {soft : SoftFrame}
    (hears : Hears ⟨some 240, some 112⟩ a b soft) (e : Engine) : Tidings (e.broughtBy soft) s t := by
  obtain ⟨_, _, taken⟩ := own.sender live
  obtain ⟨_, got⟩ := other.receiver live
  constructor
  · rintro payload header body ⟨container, heard⟩ read kind
    simp only [Hears, container] at hears
    obtain ⟨f, member, data, rfl, fresh⟩ := hears payload heard
    have near := fresh header body read kind 240 rfl
    exact ⟨f.mark, other.copies f member data header body read kind, by omega⟩
  · rintro ctl ⟨container, payload, heard, read⟩ kind
    simp only [Hears, container] at hears
    obtain ⟨f, member, control, rfl, fresh⟩ := hears payload heard
    have near := fresh 112 rfl
    exact ⟨f.mark, own.acks f member control ctl read kind, by omega⟩

theorem Tidings.nothing : Tidings {} s t := ⟨fun _ _ _ heard => heard.elim, fun _ told => told.elim⟩

theorem Engine.handle_unheard [Libm] {e : Engine} {input : Input} (undrained : input ≠ .drain)
    (silent : e.brings input = {}) : Once {} e (e.handle input) := silent ▸ e.handle_once input undrained

/-- A call of a live station's, whatever it hears. -/
theorem Half.called [Libm] (own : Half a b s) (other : Half b a t) (ready : a.Ready) (live : a.live = true)
    (input : Input)
    (hears : ∀ soft now, input = .frame soft now → Hears ⟨some 240, some 112⟩ a b soft) :
    ∃ s' t', During a (a.given ++ Side.givenBy input) b.taken s t (a.engine.handle input) s' t' := by
  have plain (still : Side.givenBy input = []) :
      During a (a.given ++ Side.givenBy input) b.taken s t a.engine s t := by
    rw [still]
    exact own.during other ready live _ ready.drained rfl (by simp) rfl
  cases input with
  | send data =>
    have given : During a (a.given ++ data) b.taken s t
        { a.engine with tx := { a.engine.tx with queue := a.engine.tx.queue ++ data } } s t :=
      own.during other ready live _ ready.drained rfl rfl rfl
    obtain ⟨s', later, _⟩ := given.mute (b := {}) own.inv other.inv other.taken
      (Engine.speakUp_moves _ .send) fun _ => id
    exact ⟨s', t, later⟩
  | drain =>
    exact ⟨s, t, own.during other ready live _ rfl rfl (by simp [Side.givenBy, Engine.handle, Engine.drain]) rfl⟩
  | frame soft now =>
    exact (plain rfl).once own.inv other.inv other.taken (a.engine.handle_once (.frame soft now) fun same => by cases same)
      (fun _ => id) (own.tidings other live (hears soft now rfl) _)
  | _ =>
    refine (plain rfl).once (b := {}) own.inv other.inv other.taken ?_ (fun _ => id) .nothing
    refine Engine.handle_unheard (fun same => ?_) rfl
    cases same

theorem Half.delivers {a b : Side} (half : Half a b s) : b.delivered <+: a.given := by
  rw [half.delivered]
  exact (List.IsPrefix.flatten s.passedOn_prefix).trans half.given

/-- Where both ends are in the blocks cut of what `a` was given. -/
structure Sound (a b : Side) (blocks : List Bytes) : Prop where
  given : a.given = blocks.flatten ++ a.engine.tx.queue
  delivered : b.delivered = (blocks.take b.got).flatten
  txBase : a.engine.tx.base = UInt8.ofNat a.taken
  rxBase : b.engine.rx.base = UInt8.ofNat b.got
  txNext : a.engine.tx.next = UInt8.ofNat blocks.length
  order : a.taken ≤ b.got ∧ b.got ≤ blocks.length ∧ blocks.length ≤ a.taken + 16
  acked : ∀ r ∈ a.engine.tx.records, r.acked = true → ∃ k, r.seq = UInt8.ofNat k ∧
    blocks[k]? = some r.body ∧ (k < b.got ∨ b.engine.rx.buf.get? r.seq = some r.body)

theorem Half.sound {a b : Side} (half : Half a b s) (live : a.live = true) (live' : b.live = true) :
    Sound a b s.sent := by
  obtain ⟨sends, given, taken⟩ := half.sender live
  obtain ⟨gets, got⟩ := half.receiver live'
  have inv := half.inv
  refine ⟨given, ?_, taken ▸ sends.base, got ▸ gets.base, sends.next, ?_, fun r member marked => ?_⟩
  · rw [half.delivered, got]
    rfl
  · rw [taken, got]
    exact ⟨inv.behind, inv.ahead, inv.room⟩
  · obtain ⟨k, _, record⟩ := forall₂_mem sends.records member
    refine ⟨k, record.seq, record.body, ?_⟩
    rcases inv.acked k (record.acked marked) with passed | held
    · exact .inl (got.symm ▸ passed)
    · obtain ⟨block, is⟩ := Option.isSome_iff_exists.mp held
      obtain ⟨due, copy⟩ := inv.held k block is
      have near := (inv.held_window held).2
      rw [show window = 16 from rfl] at near
      have same : block = r.body := Option.some.inj (copy.symm.trans record.body)
      right
      rw [record.seq, gets.buf k due (by omega), is, same]

/-- With nothing left to acknowledge, everything given has been delivered. -/
theorem Half.all_delivered {a b : Side} (half : Half a b s) (live : a.live = true)
    (all : a.engine.tx.allAcknowledged = true) : b.delivered = a.given := by
  obtain ⟨sends, given, _⟩ := half.sender live
  obtain ⟨empty, acked⟩ := Bool.and_eq_true_iff.mp all
  have inv := half.inv
  have every (k : Nat) (low : s.base ≤ k) (high : k < s.sent.length) : k ∈ s.acked := by
    have among := (mem_windowOf (inv.behind.trans inv.ahead)).mpr ⟨low, high⟩
    obtain ⟨r, member, record⟩ := forall₂_mem sends.records.flip among
    exact record.acked (List.all_eq_true.mp acked r member)
  have got := inv.all_acked half.settled every
  rw [half.delivered, given, List.isEmpty_iff.mp empty, List.append_nil, Stream.passedOn, got,
    List.take_length]

end

/-! ### A run -/

namespace Pair

/-- Both directions of the session are streams, `s` from `a` and `t` from `b`. -/
structure Agree (p : Pair) (s t : Stream Bytes) : Prop where
  ab : Half p.a p.b s
  ba : Half p.b p.a t
  ready : p.a.Ready ∧ p.b.Ready

def swap (p : Pair) : Pair := ⟨p.b, p.a⟩

variable {p p' : Pair} {s t : Stream Bytes}

theorem Agree.swap (agree : p.Agree s t) : p.swap.Agree t s :=
  ⟨agree.ba, agree.ab, agree.ready.symm⟩

theorem Agree.call [Libm] (agree : p.Agree s t) (input : Input)
    (hears : ∀ soft now, input = .frame soft now → Hears ⟨some 240, some 112⟩ p.a p.b soft) :
    ∃ s' t', Agree { p with a := p.a.call p.b.taken input } s' t' := by
  obtain ⟨own, other, ready, ready'⟩ := agree
  by_cases live : p.a.live = true
  · obtain ⟨s', t', during⟩ := own.called other ready live input hears
    refine ⟨s', t', during.own live own, during.other live own other, ⟨rfl, fun up => ?_⟩, ready'⟩
    have open_ : (p.a.engine.handle input).actions.any Action.ends = false := by
      simpa [Side.call, Side.take, live] using up
    exact (during.live open_).1
  · have dead : p.a.live = false := by simpa using live
    refine ⟨s, t, own.dead_sender dead _, other.dead_receiver dead _, ⟨rfl, fun up => ?_⟩, ready'⟩
    simp [Side.call, Side.take, dead] at up

theorem Agree.step [Libm] (agree : p.Agree s t) (step : Step ⟨some 240, some 112⟩ p p') :
    ∃ s' t', p'.Agree s' t' := by
  cases step with
  | a input hears => exact agree.call input hears
  | b input hears =>
    obtain ⟨t', s', agree'⟩ := agree.swap.call input hears
    exact ⟨s', t', agree'.swap⟩

theorem Agree.run [Libm] (agree : p.Agree s t) (run : Run ⟨some 240, some 112⟩ p p') :
    ∃ s' t', p'.Agree s' t' := by
  induction run with
  | refl => exact ⟨s, t, agree⟩
  | tail _ step ih =>
    obtain ⟨_, _, agree⟩ := ih
    exact agree.step step

/-- A session begins with both streams at their start. -/
theorem Half.start {a b : Engine} (blank : a.Blank) (blank' : b.Blank) :
    Half { engine := a, sends := [a.tx.queue] } { engine := b, sends := [b.tx.queue] } {} where
  inv := .start
  settled := rfl
  sender _ := by
    refine ⟨⟨blank.txBase, blank.txNext, ?_⟩, by simp [Side.given], rfl⟩
    rw [blank.records]
    exact .nil
  taken := le_rfl
  given := List.nil_prefix
  receiver _ := by
    refine ⟨⟨blank'.rxBase, fun k _ _ => ?_, fun k p _ _ found => ?_, blank'.measured⟩, rfl⟩
    · rw [blank'.buf]
      rfl
    · rw [blank'.pieces] at found
      cases found
  delivered := rfl
  copies := nofun
  acks := nofun

theorem agree_start {a b : Engine} (opened : Opened a b) : (start a b).Agree {} {} where
  ab := Half.start opened.blank.1 opened.blank.2
  ba := Half.start opened.blank.2 opened.blank.1
  ready := ⟨⟨opened.drained.1, fun _ => opened.up.1⟩, ⟨opened.drained.2, fun _ => opened.up.2⟩⟩

end Pair

/-! ### Runs on fixed inputs -/

/-- A call of a station's, or a frame heard: the other's, `back` before its last. -/
inductive Cue
  | call (input : Input)
  | hear (back : Nat) (tStart tEnd now : ℚ)

def Input.isFrame : Input → Bool
  | .frame .. => true
  | _ => false

inductive Turn
  | a (cue : Cue)
  | b (cue : Cue)

instance (bound : Option Nat) (now mark : Nat) : Decidable (within bound now mark) :=
  inferInstanceAs (Decidable (∀ limit ∈ bound, now < mark + limit))

/-- What a station hears is no later than it may be. -/
def Side.fresh (late : Lateness) (s : Side) (f : SentFrame) : Bool :=
  match f.container with
  | .data => decide (within late.data s.got (f.mark + 1))
  | .control => decide (within late.control s.taken f.mark)

def Side.play [Libm] (late : Lateness) (s other : Side) : Cue → Option Side
  | .call input => if input.isFrame then none else some (s.call other.taken input)
  | .hear back tStart tEnd now =>
    (other.sent[back]?.filter (s.fresh late)).map fun (f : SentFrame) =>
      s.call other.taken (.frame (.clear f.container f.payload tStart tEnd) now)

/-- The call of a cue. -/
theorem Side.play_call [Libm] {late : Lateness} {s other s' : Side} {cue : Cue}
    (played : s.play late other cue = some s') : ∃ input, s' = s.call other.taken input ∧
      ∀ soft now, input = .frame soft now → Hears late s other soft := by
  cases cue with
  | call input =>
    have called : (if input.isFrame = true then none else some (s.call other.taken input)) = some s' := played
    by_cases frame : input.isFrame = true
    · rw [if_pos frame] at called
      cases called
    · rw [if_neg frame] at called
      refine ⟨input, (Option.some.inj called).symm, ?_⟩
      rintro soft now rfl
      exact absurd rfl frame
  | hear back tStart tEnd now =>
    obtain ⟨f, found, rfl⟩ := Option.map_eq_some_iff.mp played
    obtain ⟨there, fresh⟩ := Option.filter_eq_some_iff.mp found
    refine ⟨_, rfl, ?_⟩
    rintro soft at_ ⟨⟩
    have member := List.mem_of_getElem? there
    unfold Side.fresh at fresh
    cases container : f.container with
    | data =>
      rw [container] at fresh
      rintro payload ⟨_, ⟨⟩⟩
      exact ⟨f, member, container, rfl, fun _ _ _ _ => of_decide_eq_true fresh⟩
    | control =>
      rw [container] at fresh
      rintro payload ⟨⟩
      exact ⟨f, member, container, rfl, of_decide_eq_true fresh⟩

namespace Pair

def play [Libm] (late : Lateness) (p : Pair) : Turn → Option Pair
  | .a cue => (p.a.play late p.b cue).map fun (a : Side) => { p with a }
  | .b cue => (p.b.play late p.a cue).map fun (b : Side) => { p with b }

def plays [Libm] (late : Lateness) : List Turn → Pair → Option Pair
  | [], p => some p
  | turn :: rest, p => (p.play late turn).bind (plays late rest)

variable {late : Lateness} {p p' : Pair}

theorem play_step [Libm] {turn : Turn} (played : p.play late turn = some p') : Step late p p' := by
  cases turn with
  | a cue =>
    obtain ⟨a, called, rfl⟩ := Option.map_eq_some_iff.mp played
    obtain ⟨input, rfl, hears⟩ := Side.play_call called
    exact .a input hears
  | b cue =>
    obtain ⟨b, called, rfl⟩ := Option.map_eq_some_iff.mp played
    obtain ⟨input, rfl, hears⟩ := Side.play_call called
    exact .b input hears

theorem plays_run [Libm] {turns : List Turn} (played : plays late turns p = some p') : Run late p p' := by
  induction turns generalizing p with
  | nil =>
    cases played
    exact .refl
  | cons turn rest ih =>
    obtain ⟨_, first, later⟩ := Option.bind_eq_some_iff.mp played
    exact .head (play_step first) (ih later)

end Pair

/-- The first frame handed over since the last call. -/
def Engine.opener (e : Engine) : Bytes := ((e.actions.flatMap Action.frames).head?.map (·.payload)).getD []

open Coarse in
/-- `AA1A` calls `BB1B`, on an air whose data frames just hold a call. -/
def ringing : Engine :=
  (Engine.new ['A', 'A', '1', 'A'] { PhyTiming.oneRung with dataCapacity := [25] } {} 1).run
    [.connect ['B', 'B', '1', 'B'] none, .tick 0]

open Coarse in
def accepting : Engine :=
  (Engine.new ['B', 'B', '1', 'B'] { PhyTiming.oneRung with dataCapacity := [25] } {} 2).run
    [.frame (.clear .data ringing.opener (1 / 10) (11 / 10)) (12 / 10), .tick 2]

open Coarse in
def caller : Engine :=
  ringing.run [.drain, .txDone (11 / 10) none,
    .frame (.clear .data accepting.opener (205 / 100) (305 / 100)) (315 / 100), .drain]

open Coarse in
def callee : Engine := accepting.run [.txDone (31 / 10) none, .drain]

def Engine.isBlank (e : Engine) : Bool :=
  e.tx.records.isEmpty && e.tx.base = 0 && e.tx.next = 0 && e.rx.base = 0 && e.rx.buf.isEmpty &&
    e.rx.pieces.isEmpty && e.rx.measured.isNone

theorem Engine.blank_of {e : Engine} (blank : e.isBlank = true) : e.Blank := by
  simp only [isBlank, Bool.and_eq_true, List.isEmpty_iff, decide_eq_true_eq, Option.isNone_iff_eq_none] at blank
  obtain ⟨⟨⟨⟨⟨⟨records, txBase⟩, txNext⟩, rxBase⟩, buf⟩, pieces⟩, measured⟩ := blank
  exact ⟨records, txBase, txNext, rxBase, buf, pieces, fun _ some_ => by rw [measured] at some_; cases some_⟩

theorem opened_caller : Opened caller callee where
  up := by decide +kernel
  session := by decide +kernel
  blank := ⟨Engine.blank_of (by decide +kernel), Engine.blank_of (by decide +kernel)⟩
  drained := ⟨List.isEmpty_iff.mp (by decide +kernel), List.isEmpty_iff.mp (by decide +kernel)⟩

/-- Six more blocks of `byte`s, and a transmission of `a`'s sent at `t`. -/
def transmission (byte : UInt8) (t : ℚ) : List Turn :=
  [.a (.call (.send (List.replicate 132 byte))), .a (.call (.tick t)), .a (.call (.txDone (t + 66 / 10) none))]

/-- `b` hears all of it, and `a` the answer. -/
def exchange (byte : UInt8) (t : ℚ) : List Turn :=
  transmission byte t ++ (.b (.hear 0 (t + 1 / 10) (t + 6 / 10) (t + 7 / 10)) ::
    (List.range 6).map fun (i : Nat) => .b (.hear (i + 1) (t + 6 / 10 + i) (t + 16 / 10 + i) (t + 17 / 10 + i))) ++
    [.a (.hear 0 (t + 73 / 10) (t + 78 / 10) (t + 79 / 10))]

/-- `b` hears nothing, and `a` an older answer of its. -/
def missed (back : Nat) (t : ℚ) : List Turn :=
  transmission 1 t ++ [.a (.hear back (t + 73 / 10) (t + 78 / 10) (t + 79 / 10))]

/-! ### What a session delivers -/

namespace Pair

variable {p : Pair}

/-- Whatever is lost, late or twice, each station delivers a prefix of what the other
was given. -/
theorem run_delivers [Libm] {a b : Engine} (opened : Opened a b)
    (run : Run ⟨some 240, some 112⟩ (start a b) p) :
    p.b.delivered <+: p.a.given ∧ p.a.delivered <+: p.b.given := by
  obtain ⟨s, t, agree⟩ := (agree_start opened).run run
  exact ⟨agree.ab.delivers, agree.ba.delivers⟩

open Coarse in
/-- Six blocks, and their acknowledgement. -/
theorem run_delivers_exchange : ∃ p, plays ⟨some 240, some 112⟩ (exchange 0 5) (start caller callee) = some p ∧
    p.b.delivered <+: p.a.given ∧ p.a.delivered <+: p.b.given := by
  obtain ⟨p, played⟩ := Option.isSome_iff_exists.mp
    (by decide +kernel : (plays ⟨some 240, some 112⟩ (exchange 0 5) (start caller callee)).isSome = true)
  exact ⟨p, played, run_delivers opened_caller (plays_run played)⟩

/-- The first transmission lost but for its header, 22 heard, and 42 lost and
acknowledged by answers made long before: the first of all, then one made after 20 of
the 22, then the last. The next block heard is 256 past the one due. -/
def staleAnswers : List Turn :=
  transmission 0 5 ++
    [.b (.hear 0 (51 / 10) (56 / 10) (57 / 10)), .b (.call (.tick (123 / 10))),
      .a (.hear 0 (123 / 10) (128 / 10) (129 / 10))] ++
    ((List.range 22).flatMap fun (i : Nat) => exchange 0 (10 * i + 15)) ++
    ((List.range 42).flatMap fun (i : Nat) =>
      missed (if i < 20 then 22 else if i < 40 then 2 else 0) (10 * i + 235)) ++
    [.a (.call (.tick 655)), .b (.hear 5 (6596 / 10) (6606 / 10) (6607 / 10))]

/-- The byte delivered at a place is not the one given there. -/
def differsAt (p : Pair) (i : Nat) : Bool :=
  match p.b.delivered[i]?, p.a.given[i]? with
  | some x, some y => x ≠ y
  | _, _ => false

theorem not_prefix_of_differsAt {i : Nat} (differs : p.differsAt i = true) : ¬p.b.delivered <+: p.a.given := by
  rintro ⟨more, longer⟩
  unfold differsAt at differs
  split at differs
  · rename_i x y delivered given
    rw [← longer, List.getElem?_append_left (List.getElem?_eq_some_iff.mp delivered).1, delivered] at given
    cases given
    simp at differs
  · cases differs

open Coarse in
/-- With answers read however late, blocks are skipped and others taken for them. -/
theorem staleAnswers_disorder : ∃ p, Opened caller callee ∧ Run ⟨some 240, none⟩ (start caller callee) p ∧
    ¬p.b.delivered <+: p.a.given := by
  have played : (plays ⟨some 240, none⟩ staleAnswers (start caller callee)).any (·.differsAt 2904) = true := by
    decide +kernel
  obtain ⟨p, played, differs⟩ := (Option.any_eq_true _ _).mp played
  exact ⟨p, opened_caller, plays_run played, not_prefix_of_differsAt differs⟩

/-- What is acknowledged has arrived, whatever of the acknowledgements is lost, late or
out of order. -/
theorem run_acknowledges [Libm] {a b : Engine} (opened : Opened a b)
    (run : Run ⟨some 240, some 112⟩ (start a b) p) :
    (p.a.live = true → p.b.live = true →
      (∃ blocks, Sound p.a p.b blocks) ∧ ∃ blocks, Sound p.b p.a blocks) ∧
    (p.a.live = true → p.a.engine.tx.allAcknowledged = true → p.b.delivered = p.a.given) ∧
    (p.b.live = true → p.b.engine.tx.allAcknowledged = true → p.a.delivered = p.b.given) := by
  obtain ⟨s, t, agree⟩ := (agree_start opened).run run
  exact ⟨fun live live' => ⟨⟨_, agree.ab.sound live live'⟩, ⟨_, agree.ba.sound live' live⟩⟩,
    agree.ab.all_delivered, agree.ba.all_delivered⟩

open Coarse in
theorem run_acknowledges_exchange : ∃ p,
    plays ⟨some 240, some 112⟩ (exchange 0 5) (start caller callee) = some p ∧
    (∃ blocks, Sound p.a p.b blocks) ∧ ∃ blocks, Sound p.b p.a blocks := by
  have played : (plays ⟨some 240, some 112⟩ (exchange 0 5) (start caller callee)).any
      (fun p => p.a.live && p.b.live) = true := by decide +kernel
  obtain ⟨p, played, both⟩ := (Option.any_eq_true _ _).mp played
  obtain ⟨live, live'⟩ := Bool.and_eq_true_iff.mp both
  exact ⟨p, played, (run_acknowledges opened_caller (plays_run played)).1 live live'⟩

/-- 258 blocks heard and acknowledged, and then a copy of the third. -/
def staleCopy : List Turn :=
  ((List.range 43).flatMap fun (i : Nat) => exchange 0 (10 * i + 5)) ++ [.b (.hear 297 500 501 502)]

open Coarse in
/-- With a copy heard however late, the receiver passes what the sender has cut. -/
theorem staleCopy_passes : ∃ p, Opened caller callee ∧ Run ⟨none, some 112⟩ (start caller callee) p ∧
    p.a.live = true ∧ p.b.live = true ∧ ¬∃ blocks, Sound p.a p.b blocks := by
  have played : (plays ⟨none, some 112⟩ staleCopy (start caller callee)).any (fun p => p.a.live && p.b.live &&
      p.a.taken = 258 && p.a.engine.tx.next = 2 && p.b.got = 259) = true := by decide +kernel
  obtain ⟨p, played, here⟩ := (Option.any_eq_true _ _).mp played
  simp only [Bool.and_eq_true, decide_eq_true_eq] at here
  obtain ⟨⟨⟨⟨live, live'⟩, taken⟩, next⟩, got⟩ := here
  refine ⟨p, opened_caller, plays_run played, live, live', fun ⟨blocks, sound⟩ => ?_⟩
  have order := sound.order
  have number := congrArg UInt8.toNat (next.symm.trans sound.txNext)
  rw [toNat_ofNat] at number
  have two : (2 : UInt8).toNat = 2 := rfl
  omega

end Pair

end AetherHF.Link

import Mathlib.Algebra.BigOperators.Group.List.Basic
import Mathlib.Algebra.Order.Group.Multiset
import AetherHF.Radio.Answered

/-! A client hears once of each datagram it named. -/
namespace AetherHF.Radio

variable {P : Type}

namespace Outgoing

/-- A datagram's burst: its reference, and whether it is the last. -/
def burst? : Outgoing → Option (Option Text × Bool)
  | .datagram _ reference last => some (reference, last)
  | _ => none

end Outgoing

/-- A datagram named when it was taken is reported once. Where the watchdog trips or the card drops
a transmission no datagram is among what is lost, a last burst can be rendered, and datagrams
are cleared while no burst of one waits. -/
def reporting : Monitor (Multiset Text) Entry where
  expects _ entry := match entry with
    | .rendered _ audio => audio ≠ []
    | .unrendered next => ∀ burst ∈ next.burst?, burst.2 = false
    | .tripped test datagram => test = false ∧ datagram = false
    | .cardDropped datagram => datagram = false
    | .cleared waiting => waiting = false
    | _ => True
  permits owed entry := match entry with
    | .reported reference _ => reference ∈ owed
    | _ => True
  enter owed entry := match entry with
    | .accepted reference => reference ::ₘ owed
    | .reported reference _ => owed.erase reference
    | _ => owed

/-- Told of no datagram, and expected. -/
def Entry.noDatagram : Entry → Bool
  | .rendered .. | .unrendered _ | .tripped .. | .cardDropped _ | .accepted _ | .reported .. | .cleared _ => false
  | _ => true

namespace Desk

/-- A datagram counts by the name its client gave it. -/
def named : Option Text → Multiset Text
  | none => 0
  | some reference => {reference}

/-- The bursts in the transmit queue. -/
def bursts (d : Desk P) : List (Option Text × Bool) := d.pending.filterMap Outgoing.burst?

/-- The names of the datagrams not reported: on the air, a last burst queued, and waiting. -/
def outstanding (d : Desk P) : Multiset Text :=
  named d.onAir.join + ((d.bursts.map fun burst => if burst.2 then named burst.1 else 0).sum +
    (d.queue.map fun datagram => named datagram.reference).sum)

/-- The account of names is right, and `C`. -/
def Told (C : Prop) (d : Desk P) : Prop := reporting.Keeps (fun owed => C ∧ owed = d.outstanding) 0 d.log

section
variable {C C' : Prop} {d d' b : Desk P}

theorem Told.mono (told : d.Told C) (weaker : C → C') : d.Told C' := Monitor.Keeps.mono told fun _ ⟨c, is⟩ => ⟨weaker c, is⟩

theorem Told.next {l : List Entry} (told : d.Told C) (log : d'.log = d.log ++ l)
    (then_ : C → reporting.Keeps (fun owed => C' ∧ owed = d'.outstanding) d.outstanding l) : d'.Told C' := by
  unfold Told
  rw [log]
  exact Monitor.Keeps.trans told fun owed ⟨c, is⟩ => is ▸ then_ c

theorem Told.quietly (told : d.Told C) (adds : d.Adds (fun e => e.noDatagram = true) d')
    (same : C → d'.outstanding = d.outstanding) : d'.Told C := by
  obtain ⟨entries, log, each⟩ := adds
  refine told.next log fun c => ?_
  rw [← same c]
  clear log
  induction entries with
  | nil => exact ⟨c, rfl⟩
  | cons e rest ih =>
    have first := each e List.mem_cons_self
    have ih := ih fun e member => each e (List.mem_cons_of_mem _ member)
    cases e with
    | rendered | unrendered | tripped | cardDropped | accepted | reported | cleared => cases first
    | _ => exact fun _ => ⟨trivial, ih⟩

theorem Told.report {reference : Option Text} (told : d.Told C) (log : b.log = d.log)
    (less : C → d.outstanding = named reference + b.outstanding) (sent : Bool) : (b.report reference sent).Told C := by
  cases reference with
  | none =>
    refine told.quietly (.nothing log) fun c => ?_
    rw [less c]
    exact (zero_add b.outstanding).symm
  | some reference =>
    refine told.next (l := [.reported reference sent]) (congrArg (· ++ _) log) fun c => fun _ => ?_
    rw [less c]
    exact ⟨Multiset.mem_cons_self .., c, Multiset.erase_cons_head ..⟩

theorem outstanding_same (onAir : d'.onAir = d.onAir) (bursts : d'.bursts = d.bursts) (queue : d'.queue = d.queue) :
    d'.outstanding = d.outstanding := by
  unfold outstanding
  rw [onAir, bursts, queue]

theorem Told.land (told : d.Told C) (sent : Bool) : (d.land sent).Told C := by
  unfold Desk.land
  split
  · exact told
  · rename_i reference on
    refine told.report (b := { d with onAir := none }) rfl (fun _ => ?_) sent
    unfold outstanding
    rw [on]
    exact congrArg (named reference + ·) (zero_add (_ + _ : Multiset Text)).symm

theorem land_onAir (d : Desk P) (sent : Bool) : (d.land sent).onAir = none := by
  unfold land
  split
  · assumption
  · rename_i reference on
    cases reference <;> rfl

theorem report_queue (d : Desk P) (reference : Option Text) (sent : Bool) :
    (d.report reference sent).queue = d.queue ∧ (d.report reference sent).onAir = d.onAir := by
  cases reference <;> exact ⟨rfl, rfl⟩

theorem land_queue (d : Desk P) (sent : Bool) : (d.land sent).queue = d.queue := by
  unfold land
  split
  · rfl
  · exact (report_queue ..).1

theorem outstanding_pop {front : QueuedDatagram} {rest : List QueuedDatagram} (queue : d.queue = front :: rest) :
    d.outstanding = named front.reference + outstanding { d with queue := rest } := by
  unfold outstanding
  rw [queue, List.map_cons, List.sum_cons, add_left_comm _ (named front.reference), add_left_comm _ (named front.reference)]
  rfl

theorem outstanding_shift {reference : Option Text} {last : Bool} {p : List Outgoing}
    (bursts : d.bursts = (reference, last) :: p.filterMap Outgoing.burst?) :
    d.outstanding = (if last then named reference else 0) + outstanding { d with pending := p } := by
  unfold outstanding
  rw [bursts, List.map_cons, List.sum_cons, add_assoc, add_left_comm]
  rfl

/-- A burst given up, with what is left of its datagram. -/
theorem Told.refuseBurst {reference : Option Text} {last : Bool} (told : d.Told C) (log : b.log = d.log)
    (less : d.outstanding = (if last then named reference else 0) + b.outstanding) (queued : C → last = false → b.queue ≠ []) :
    (b.refuseBurst reference last).Told C := by
  unfold Desk.refuseBurst
  cases last with
  | true => exact told.report log (fun _ => less) false
  | false =>
    rw [if_neg Bool.false_ne_true]
    have less : d.outstanding = b.outstanding := less.trans (zero_add _)
    split
    · rename_i front others queue
      exact told.report (b := { b with queue := others }) log (fun _ => less.trans (outstanding_pop queue)) false
    · rename_i empty
      exact told.report log (fun c => absurd empty (queued c rfl)) false

theorem Told.reportAll {queue : List QueuedDatagram} (told : Told C { d with queue }) (empty : d.queue = []) :
    (d.reportAll queue).Told C := by
  induction queue generalizing d with
  | nil =>
    have same : { d with queue := [] } = d := by rw [← empty]
    exact same ▸ told
  | cons datagram rest ih =>
    have popped := outstanding_pop (d := { d with queue := datagram :: rest }) rfl
    refine ih (d := d.report datagram.reference false) ?_ ((report_queue ..).1.trans empty)
    have told := told.report (b := { d with queue := rest }) rfl (fun _ => popped) false
    cases is : datagram.reference <;> rw [is] at told <;> exact told

theorem refuseBurst_frame (d : Desk P) (reference : Option Text) (last : Bool) :
    (∀ datagram ∈ (d.refuseBurst reference last).queue, datagram ∈ d.queue) ∧ (d.refuseBurst reference last).onAir = d.onAir := by
  unfold refuseBurst
  split
  · exact ⟨fun _ member => (report_queue d ..).1 ▸ member, (report_queue d ..).2⟩
  · split
    · rename_i front rest queue
      obtain ⟨same, onAir⟩ := report_queue ({ d with queue := rest } : Desk P) front.reference false
      rw [queue]
      exact ⟨fun _ member => List.mem_cons_of_mem _ (same.subst (motive := (_ ∈ ·)) member), onAir⟩
    · exact ⟨fun _ member => (report_queue d ..).1 ▸ member, (report_queue d ..).2⟩

theorem refuseAll_frame (d : Desk P) (dropped : List Outgoing) :
    (∀ datagram ∈ (d.refuseAll dropped).queue, datagram ∈ d.queue) ∧ (d.refuseAll dropped).onAir = d.onAir := by
  induction dropped generalizing d with
  | nil => exact ⟨fun _ => id, rfl⟩
  | cons next rest ih =>
    cases next with
    | datagram frames reference last =>
      obtain ⟨first, onAir⟩ := d.refuseBurst_frame reference last
      obtain ⟨later, onAir'⟩ := ih (d.refuseBurst reference last)
      exact ⟨fun q member => first q (later q member), onAir'.trans onAir⟩
    | _ => exact ih d

theorem reportAll_frame (d : Desk P) (queue : List QueuedDatagram) :
    (d.reportAll queue).queue = d.queue ∧ (d.reportAll queue).onAir = d.onAir := by
  induction queue generalizing d with
  | nil => exact ⟨rfl, rfl⟩
  | cons datagram rest ih =>
    obtain ⟨queue, onAir⟩ := d.report_queue datagram.reference false
    exact ⟨(ih _).1.trans queue, (ih _).2.trans onAir⟩

theorem refuseBurst_pending (d : Desk P) (reference : Option Text) (last : Bool) (pending : List Outgoing) :
    { d.refuseBurst reference last with pending } = Desk.refuseBurst { d with pending } reference last := by
  obtain ⟨waiting, playback, transmitting, playingTest, keying, authorized, queue, onAir, ptt, failed, log⟩ := d
  cases last with
  | true => cases reference <;> rfl
  | false =>
    cases queue with
    | nil => cases reference <;> rfl
    | cons front rest =>
      obtain ⟨named, bursts, waitForClear, persistence, slotS⟩ := front
      cases named <;> rfl

/-- At most one burst is queued, and an earlier one has the rest of its datagram behind it. -/
def Few (bursts : List (Option Text × Bool)) (queue : List QueuedDatagram) : Prop :=
  bursts = [] ∨ ∃ reference last, bursts = [(reference, last)] ∧ (last = false → queue ≠ [])

theorem Few.alone {reference : Option Text} {last : Bool} {more : List (Option Text × Bool)} {queue : List QueuedDatagram}
    (few : Few ((reference, last) :: more) queue) : more = [] ∧ (last = false → queue ≠ []) := by
  rcases few with none_ | ⟨_, _, one, queued⟩
  · cases none_
  · obtain ⟨is, nothing⟩ := List.cons.inj one
    cases is
    exact ⟨nothing, queued⟩

theorem Told.refuseAll {dropped : List Outgoing} (told : Told C { d with pending := dropped }) (empty : d.pending = [])
    (few : C → Few (dropped.filterMap Outgoing.burst?) d.queue) : (d.refuseAll dropped).Told C := by
  induction dropped generalizing d with
  | nil =>
    have same : { d with pending := [] } = d := by rw [← empty]
    exact same ▸ told
  | cons next rest ih =>
    have other (none_ : next.burst? = none) (is : d.refuseAll (next :: rest) = d.refuseAll rest) : (d.refuseAll (next :: rest)).Told C := by
      rw [is]
      refine ih (told.quietly (.nothing rfl) fun _ => outstanding_same rfl (filterMap_head rfl none_) rfl) empty fun c => ?_
      have few := few c
      rwa [List.filterMap_cons_none none_] at few
    cases next with
    | datagram frames reference last =>
      have alone (c : C) : rest.filterMap Outgoing.burst? = [] ∧ (last = false → d.queue ≠ []) := (few c).alone
      have refused : Told C (Desk.refuseBurst { d with pending := rest } reference last) :=
        told.refuseBurst rfl (outstanding_shift rfl) fun c => (alone c).2
      have pending : (d.refuseBurst reference last).pending = [] := by
        rw [(d.reports_refuseBurst reference last).frame]
        exact empty
      exact ih (d := d.refuseBurst reference last) (refuseBurst_pending d reference last rest ▸ refused) pending fun c =>
        .inl (alone c).1
    | _ => exact other rfl rfl

/-! ### Acts -/

/-- The datagrams a desk holds, apart from their names. -/
structure Sound (d : Desk P) : Prop where
  queued : ∀ datagram ∈ d.queue, datagram.bursts ≠ []
  few : Few d.bursts d.queue
  onAir : d.onAir.isSome = true →
    d.keying = false ∧ d.playingTest = false ∧ (d.transmitting = true ∨ d.playback ≠ [] ∨ d.failed = true)

theorem Sound.moved (sound : d.Sound) (queue : d'.queue = d.queue) (bursts : d'.bursts = d.bursts)
    (onAir : d'.onAir.isSome = true → d'.keying = false ∧ d'.playingTest = false ∧
      (d'.transmitting = true ∨ d'.playback ≠ [] ∨ d'.failed = true)) : d'.Sound where
  queued := queue ▸ sound.queued
  few := by
    rw [bursts, queue]
    exact sound.few
  onAir := onAir

theorem Sound.same (sound : d.Sound) (queue : d'.queue = d.queue) (bursts : d'.bursts = d.bursts) (onAir : d'.onAir = d.onAir)
    (keying : d'.keying = d.keying) (test : d'.playingTest = d.playingTest) (transmitting : d'.transmitting = d.transmitting)
    (playback : d'.playback = d.playback) (failed : d'.failed = d.failed) : d'.Sound := by
  refine sound.moved queue bursts ?_
  rw [onAir, keying, test, transmitting, playback, failed]
  exact sound.onAir

/-- At rest no datagram is on the air. -/
theorem Resting.landed (resting : d.Resting) (sound : d.Sound) : d.onAir = none := by
  by_contra on
  exact resting.nothing (sound.onAir (Option.isSome_iff_ne_none.mpr on)).2.2

theorem Sound.landed (sound : d.Sound) (other : d.keying = true ∨ d.playingTest = true) : d.onAir = none := by
  by_contra on
  obtain ⟨keying, test, -⟩ := sound.onAir (Option.isSome_iff_ne_none.mpr on)
  rw [keying, test] at other
  rcases other with other | other <;> cases other

/-- With no datagram on the air. -/
theorem Sound.off (sound : d.Sound) (queue : d'.queue = d.queue) (bursts : d'.bursts = d.bursts) (onAir : d'.onAir = none) : d'.Sound :=
  sound.moved queue bursts fun on => by
    rw [onAir] at on
    cases on

theorem Told.become (told : d.Told C) (adds : d.Adds (fun e => e.noDatagram = true) d') (queue : d'.queue = d.queue)
    (bursts : d'.bursts = d.bursts) (onAir : d'.onAir = d.onAir) (sound : C → d'.Sound) : d'.Told d'.Sound :=
  (told.quietly adds fun _ => outstanding_same onAir bursts queue).mono sound

theorem answer_adds (d : Desk P) (outcome : Outcome) : d.Adds (fun e => e.noDatagram = true) (d.answer outcome) := by
  unfold answer
  split
  · exact .one rfl rfl
  · exact .nothing rfl

theorem dropLinks_adds (d : Desk P) : d.Adds (fun e => e.noDatagram = true) d.dropLinks := by
  refine ⟨_, rfl, fun e member => ?_⟩
  obtain ⟨tx, -, rfl⟩ := List.mem_map.mp member
  rfl

theorem bursts_dropLinks (d : Desk P) : d.dropLinks.bursts = d.bursts := by
  change (d.pending.filter fun next => !next.isLink).filterMap Outgoing.burst? = d.pending.filterMap Outgoing.burst?
  rw [List.filterMap_filter]
  refine List.filterMap_congr fun next _ => ?_
  cases next <;> rfl

/-- The datagrams are where they were. -/
structure Holds (d d' : Desk P) : Prop where
  queue : d'.queue = d.queue
  bursts : d'.bursts = d.bursts
  onAir : d'.onAir = d.onAir

theorem Holds.trans {d d' d'' : Desk P} (first : d.Holds d') (next : d'.Holds d'') : d.Holds d'' :=
  ⟨next.queue.trans first.queue, next.bursts.trans first.bursts, next.onAir.trans first.onAir⟩

/-- From a desk that differs elsewhere. -/
theorem Holds.after {d d' d'' : Desk P} (next : d'.Holds d'') (first : d.Holds d') : d.Holds d'' := first.trans next

theorem answer_holds (d : Desk P) (outcome : Outcome) : d.Holds (d.answer outcome) := by
  rw [answer_frame]
  exact ⟨rfl, rfl, rfl⟩

theorem dropLinks_holds (d : Desk P) : d.Holds d.dropLinks := ⟨rfl, d.bursts_dropLinks, rfl⟩

theorem burst_own (next : Outgoing) (own : next.own = true) : next.burst? = none := by
  cases next with
  | datagram frames reference last => cases own
  | _ => rfl

theorem burst_link {next : Outgoing} (link : next.isLink = true) : next.burst? = none := by
  cases next with
  | datagram frames reference last => cases link
  | _ => rfl

/-- What a transmission taken leaves queued. -/
theorem bursts_head {frames : List Link.TxFrame} {reference : Option Text} {last : Bool} {rest : List Outgoing}
    (head : d.pending = .datagram frames reference last :: rest) :
    d.bursts = (reference, last) :: rest.filterMap Outgoing.burst? := congrArg (List.filterMap Outgoing.burst?) head

theorem Sound.alone {frames : List Link.TxFrame} {reference : Option Text} {last : Bool} {rest : List Outgoing} (sound : d.Sound)
    (head : d.pending = .datagram frames reference last :: rest) :
    rest.filterMap Outgoing.burst? = [] ∧ (last = false → d.queue ≠ []) := by
  have few := sound.few
  rw [bursts_head head] at few
  exact few.alone

/-- An earlier burst counts for nothing. -/
theorem outstanding_earlier {frames : List Link.TxFrame} {reference : Option Text} {rest : List Outgoing}
    (head : d.pending = .datagram frames reference false :: rest) (onAir : d'.onAir = d.onAir)
    (bursts : d'.bursts = rest.filterMap Outgoing.burst?) (queue : d'.queue = d.queue) : d'.outstanding = d.outstanding := by
  have shift := outstanding_shift (p := rest) (bursts_head head)
  rw [shift, outstanding_same (d := { d with pending := rest }) onAir bursts queue]
  exact (zero_add (outstanding _)).symm

/-- A transmission of a datagram rendered. -/
theorem Told.take {leave : Leave} {next : Outgoing} {rest : List Outgoing} (told : d.Told (d.Fit ∧ d.Sound)) (resting : d.Resting)
    (head : d.pending = next :: rest) {audio : List ℚ} {keying test : Bool}
    (keys : keying = true → next.isLink = true ∨ d.keying = true) (datagramTest : next.isDatagram = true → test = false)
    (is : d' = (({ d.take next rest with playback := audio, keying, playingTest := test } : Desk P).tell [.judged leave]).tell
      [.rendered next audio]) : d'.Told d'.Sound := by
  subst is
  refine told.next (l := [.judged leave, .rendered next audio]) (List.append_assoc ..) fun ⟨fit, sound⟩ => fun _ =>
    ⟨trivial, fun sounds => ⟨trivial, ?_⟩⟩
  have landed := resting.landed sound
  have other (none_ : next.burst? = none) (same : (d.take next rest).onAir = d.onAir) :=
    have bursts := filterMap_head head none_
    have quiet : Sound ((({ d.take next rest with playback := audio, keying, playingTest := test } : Desk P).tell
      [.judged leave]).tell [.rendered next audio]) := sound.off rfl bursts (same.trans landed)
    And.intro quiet (outstanding_same (d := d) same bursts rfl).symm
  cases next with
  | datagram frames reference last =>
    have alone := sound.alone head
    have off := resting.keying fit
    have quiet : keying = false := by
      cases keying with
      | false => rfl
      | true =>
        rcases keys rfl with link | keys
        · cases link
        · exact (off.symm.trans keys).symm
    refine ⟨⟨sound.queued, .inl alone.1, fun _ => ⟨quiet, datagramTest rfl, .inr (.inl sounds)⟩⟩, ?_⟩
    change d.outstanding = _
    cases last with
    | false => exact Eq.symm (outstanding_earlier head rfl rfl rfl)
    | true =>
      rw [outstanding_shift (p := rest) (bursts_head head)]
      unfold outstanding
      rw [landed]
      exact congrArg (named reference + ·) (zero_add (_ + _ : Multiset Text))
  | _ => exact other rfl rfl

end

end Desk

/-- Each act reports in turn what it gives up. -/
theorem Act.told [Ptt P] {d d' : Desk P} (act : Act d d') (told : d.Told (d.Fit ∧ d.Sound)) : d'.Told d'.Sound := by
  cases act with
  | hand tx =>
    exact told.become (.one rfl rfl) rfl (Desk.filterMap_put rfl) rfl fun ⟨_, sound⟩ =>
      sound.same rfl (Desk.filterMap_put rfl) rfl rfl rfl rfl rfl rfl
  | put next own =>
    have same := Desk.filterMap_put (l := d.pending) (Desk.burst_own next own)
    exact told.become (.nothing rfl) rfl same rfl fun ⟨_, sound⟩ => sound.same rfl same rfl rfl rfl rfl rfl rfl
  | prune keep keeps =>
    have same := Desk.filterMap_kept Desk.burst_own keeps
    exact told.become (.nothing rfl) rfl same rfl fun ⟨_, sound⟩ => sound.same rfl same rfl rfl rfl rfl rfl rfl
  | await head deadline =>
    have same : d.bursts = _ := congrArg (List.filterMap Outgoing.burst?) head
    exact told.become (.nothing rfl) rfl same.symm rfl fun ⟨_, sound⟩ => sound.same rfl same.symm rfl rfl rfl rfl rfl rfl
  | resume head =>
    have same := Desk.filterMap_head (f := Outgoing.burst?) head (by rfl)
    exact told.become (.nothing rfl) rfl same rfl fun ⟨_, sound⟩ => sound.same rfl same rfl rfl rfl rfl rfl rfl
  | refuse resting head own =>
    have same := Desk.filterMap_head head (Desk.burst_own _ own)
    exact told.become (.one rfl rfl) rfl same rfl fun ⟨_, sound⟩ => sound.off rfl same (resting.landed sound)
  | refuseLink resting head =>
    have same := Desk.filterMap_head (f := Outgoing.burst?) head (by rfl)
    exact told.become (.two (List.append_assoc ..) rfl rfl) rfl same rfl fun ⟨_, sound⟩ =>
      sound.off rfl same (resting.landed sound)
  | refuseDatagram resting head =>
    rename_i frames reference last rest
    have refused : Desk.Told (d.Fit ∧ d.Sound) (d.tell [.refused (.datagram frames reference last)]) :=
      told.quietly (.one rfl rfl) fun _ => rfl
    have reports := Desk.reports_refuseBurst (({ d with pending := rest, authorized := false } : Desk P).tell
      [.refused (.datagram frames reference last)]) reference last
    have frame := Desk.refuseBurst_frame (({ d with pending := rest, authorized := false } : Desk P).tell
      [.refused (.datagram frames reference last)]) reference last
    have gone : Desk.Told (d.Fit ∧ d.Sound) ((({ d with pending := rest, authorized := false } : Desk P).tell
        [.refused (.datagram frames reference last)]).refuseBurst reference last) :=
      refused.refuseBurst rfl (Desk.outstanding_shift (d := d) (p := rest) (Desk.bursts_head head)) fun ⟨_, sound⟩ =>
        (sound.alone head).2
    refine gone.mono fun ⟨_, sound⟩ => ⟨fun datagram member => sound.queued _ (frame.1 _ member), .inl ?_, fun on => ?_⟩
    · rw [reports.frame]
      exact (sound.alone head).1
    · rw [frame.2] at on
      exact absurd on (by rw [show d.onAir = none from resting.landed sound]; exact Bool.false_ne_true)
  | dropLinks free =>
    exact told.become d.dropLinks_adds rfl d.bursts_dropLinks rfl fun ⟨_, sound⟩ =>
      sound.same rfl d.bursts_dropLinks rfl rfl rfl rfl rfl rfl
  | render resting leave head audio keying test sounds keys link linkTest datagramTest =>
    exact told.take resting head keys datagramTest rfl
  | unrendered resting leave head other =>
    generalize leave.next = next at head other ⊢
    refine told.next (l := [.judged leave, .unrendered next]) (List.append_assoc ..) fun ⟨_, sound⟩ => fun _ =>
      ⟨trivial, fun earlier => ⟨trivial, ?_⟩⟩
    have landed := resting.landed sound
    cases next with
    | link tx => cases other
    | datagram frames reference last =>
      obtain rfl : last = false := earlier _ rfl
      exact ⟨⟨sound.queued, .inl (sound.alone head).1, fun on => absurd (on.symm.trans (congrArg Option.isSome landed)) nofun⟩,
        show d.outstanding = _ from Eq.symm (Desk.outstanding_earlier head rfl rfl rfl)⟩
    | _ =>
      have bursts := Desk.filterMap_head (f := Outgoing.burst?) head (by rfl)
      exact ⟨sound.off rfl bursts landed, show d.outstanding = _ from Eq.symm (Desk.outstanding_same rfl bursts rfl)⟩
  | unrenderedLink resting leave is head outcome =>
    have same := Desk.filterMap_head (f := Outgoing.burst?) head (by rfl)
    refine told.next (l := [.judged leave, .unrendered (.link _), .answered (some _) outcome])
      ((congrArg (· ++ _) (List.append_assoc ..)).trans (List.append_assoc ..)) fun ⟨_, sound⟩ => fun _ => ⟨trivial, fun _ =>
        ⟨trivial, fun _ => ⟨trivial, sound.off rfl same (resting.landed sound), ?_⟩⟩⟩
    exact show d.outstanding = _ from Eq.symm (Desk.outstanding_same rfl same rfl)
  | keyUp waiting now radiatesAt latest obeyed inTime =>
    exact told.become (.one rfl rfl) rfl rfl rfl fun ⟨_, sound⟩ =>
      sound.moved rfl rfl fun on => ⟨(sound.onAir on).1, (sound.onAir on).2.1, .inl rfl⟩
  | keyLate waiting keys now radiatesAt latest obeyed late_ =>
    have gone : Desk.Told (d.Fit ∧ d.Sound) (((d.keyAt now).tell [.keyed radiatesAt latest]).release.fallSilent) :=
      told.quietly (.two (List.append_assoc ..) rfl rfl) fun _ => rfl
    have frame := Desk.answer_frame (((d.keyAt now).tell [.keyed radiatesAt latest]).release.fallSilent) .dropped
    refine gone.become (Desk.answer_adds ..) ?_ ?_ ?_ fun ⟨_, sound⟩ => ?_ <;> rw [frame]
    · rfl
    · exact sound.off rfl rfl (sound.landed (.inl keys))
  | keyStuck waiting now radiatesAt latest obeyed late_ =>
    exact told.become (.two (List.append_assoc ..) rfl rfl) rfl rfl rfl fun ⟨_, sound⟩ =>
      sound.moved rfl rfl fun on => ⟨(sound.onAir on).1, (sound.onAir on).2.1, .inr (.inr rfl)⟩
  | keyRefused waiting now =>
    exact told.become (.one rfl rfl) rfl rfl rfl fun ⟨_, sound⟩ =>
      sound.moved rfl rfl fun on => ⟨(sound.onAir on).1, (sound.onAir on).2.1, .inr (.inr rfl)⟩
  | play on_ well count =>
    exact told.become (.one rfl rfl) rfl rfl rfl fun ⟨_, sound⟩ =>
      sound.moved rfl rfl fun on => ⟨(sound.onAir on).1, (sound.onAir on).2.1, .inl on_⟩
  | finish on silent sent =>
    have released : Desk.Told (d.Fit ∧ d.Sound) d.finished.release := told.quietly (.one rfl rfl) fun _ => rfl
    have frame := (d.finished.release.land sent).answer_frame .done
    have reports := Desk.reports_land d.finished.release sent
    have bursts : (d.finished.release.land sent).bursts = d.bursts := by
      rw [reports.frame]
      rfl
    refine (released.land sent).become (Desk.answer_adds ..) ?_ ?_ ?_ fun ⟨_, sound⟩ => ?_ <;> rw [frame]
    · rfl
    · exact sound.off (Desk.land_queue ..) bursts (Desk.land_onAir ..)
  | finishStuck on_ silent =>
    exact told.become (.one rfl rfl) rfl rfl rfl fun ⟨_, sound⟩ =>
      sound.moved rfl rfl fun on => ⟨(sound.onAir on).1, rfl, .inr (.inr rfl)⟩
  | cut on_ test outcome =>
    have holds : d.Holds (d.fallSilent.answer outcome).dropLinks :=
      ((d.fallSilent.answer_holds outcome).trans (Desk.dropLinks_holds _)).after ⟨rfl, rfl, rfl⟩
    have frame := d.fallSilent.answer_frame outcome
    refine told.become ((Desk.Adds.nothing rfl).trans ((Desk.answer_adds d.fallSilent outcome).trans (Desk.dropLinks_adds _)))
      holds.queue holds.bursts holds.onAir fun ⟨_, sound⟩ => sound.moved holds.queue holds.bursts fun _ =>
        ⟨Desk.answer_keying .., ?_, .inl ?_⟩
    · change (d.fallSilent.answer outcome).playingTest = false
      rw [frame]
      exact test
    · change (d.fallSilent.answer outcome).transmitting = true
      rw [frame]
      exact on_
  | discard quiet keys =>
    have holds : d.Holds (d.fallSilent.answer .dropped) := (d.fallSilent.answer_holds .dropped).after ⟨rfl, rfl, rfl⟩
    exact told.become ((Desk.Adds.nothing rfl).trans (Desk.answer_adds d.fallSilent .dropped)) holds.queue holds.bursts holds.onAir
      fun ⟨_, sound⟩ => sound.off holds.queue holds.bursts (holds.onAir.trans (sound.landed (.inl keys)))
  | pollStuck now =>
    exact told.become (.one rfl rfl) rfl rfl rfl fun ⟨_, sound⟩ =>
      sound.moved rfl rfl fun on => ⟨(sound.onAir on).1, (sound.onAir on).2.1, .inr (.inr rfl)⟩
  | trip now outcome =>
    let polled : Desk P := { d with ptt := (d.ptt.poll now).2 }.tell [.released true]
    let tripped := polled.tell [.tripped d.playingTest (d.onAir.isSome || d.pending.any Outgoing.isDatagram)]
    have first : Desk.Told (d.Fit ∧ d.Sound) polled := told.quietly (.one rfl rfl) fun _ => rfl
    have next : Desk.Told (d.Sound ∧ (d.onAir.isSome || d.pending.any Outgoing.isDatagram) = false) tripped.fallSilent :=
      first.next rfl fun ⟨_, sound⟩ => fun expected => ⟨trivial, ⟨sound, expected.2⟩, rfl⟩
    have holds : d.Holds (tripped.fallSilent.answer outcome).dropLinks :=
      ((tripped.fallSilent.answer_holds outcome).trans (Desk.dropLinks_holds _)).after ⟨rfl, rfl, rfl⟩
    have queue : (d.trip now outcome).queue = d.queue := holds.queue
    have onAir : (d.trip now outcome).onAir = d.onAir := holds.onAir
    have empty (none_ : (d.onAir.isSome || d.pending.any Outgoing.isDatagram) = false) : (d.trip now outcome).bursts = d.bursts := by
      refine Eq.symm (List.filterMap_eq_nil_iff.mpr fun next member => ?_)
      have other := List.any_eq_false.mp (Bool.or_eq_false_iff.mp none_).2 next member
      cases next with
      | datagram frames reference last => exact absurd rfl other
      | _ => rfl
    have gone : Desk.Told (d.Sound ∧ (d.onAir.isSome || d.pending.any Outgoing.isDatagram) = false) (d.trip now outcome) :=
      next.quietly ((Desk.answer_adds _ outcome).trans ((Desk.dropLinks_adds _).trans (.one rfl rfl))) fun ⟨_, none_⟩ =>
        Desk.outstanding_same (d := tripped.fallSilent) onAir (empty none_) queue
    refine gone.mono fun ⟨sound, none_⟩ => sound.off queue (empty none_) (onAir.trans ?_)
    exact Option.isNone_iff_eq_none.mp (Option.isSome_eq_false_iff.mp (Bool.or_eq_false_iff.mp none_).1)
  | cardDrop on =>
    have first : Desk.Told (d.Sound ∧ d.onAir.isSome = false) (d.tell [.cardDropped d.onAir.isSome]) :=
      told.next rfl fun ⟨_, sound⟩ => fun expected => ⟨trivial, ⟨sound, expected⟩, rfl⟩
    have answered := (d.tell [.cardDropped d.onAir.isSome]).answer_holds .dropped
    have holds : d.Holds d.cardDrop := ⟨answered.queue, answered.bursts, answered.onAir⟩
    refine first.become ((Desk.answer_adds _ .dropped).trans (.one rfl rfl)) holds.queue holds.bursts holds.onAir fun ⟨sound, none_⟩ =>
      sound.off holds.queue holds.bursts (holds.onAir.trans ?_)
    exact Option.isNone_iff_eq_none.mp (Option.isSome_eq_false_iff.mp none_)
  | abandon outcome =>
    let begun : Desk P := { d with failed := false }
    have first : Desk.Told (d.Fit ∧ d.Sound) begun := told.quietly (.nothing rfl) fun _ => rfl
    have dropped := (begun.answer_holds outcome).trans (Desk.dropLinks_holds _)
    have holds : d.Holds (begun.answer outcome).dropLinks.fallSilent := ⟨dropped.queue, dropped.bursts, dropped.onAir⟩
    have silent : Desk.Told (d.Fit ∧ d.Sound) (begun.answer outcome).dropLinks.fallSilent :=
      first.quietly ((Desk.answer_adds begun outcome).trans ((Desk.dropLinks_adds _).trans (.nothing rfl))) fun _ =>
        Desk.outstanding_same holds.onAir holds.bursts holds.queue
    have landed := silent.land false
    have reports := (begun.answer outcome).dropLinks.fallSilent.reports_land false
    have waiting := (begun.answer outcome).dropLinks.fallSilent.land_queue false
    have off := (begun.answer outcome).dropLinks.fallSilent.land_onAir false
    have pending : ((begun.answer outcome).dropLinks.fallSilent.land false).bursts = d.bursts := by
      rw [reports.frame]
      exact holds.bursts
    have whole : Desk.abandon { d with failed := false } outcome = (Desk.refuseAll
        { (begun.answer outcome).dropLinks.fallSilent.land false with pending := [] }
        ((begun.answer outcome).dropLinks.fallSilent.land false).pending).finished.release := rfl
    generalize (begun.answer outcome).dropLinks.fallSilent.land false = l at landed waiting off pending whole
    have refused : Desk.Told (d.Fit ∧ d.Sound) (Desk.refuseAll { l with pending := [] } l.pending) := by
      refine Desk.Told.refuseAll (d := { l with pending := [] }) (landed.quietly (.nothing rfl) fun _ => rfl) rfl fun ⟨_, sound⟩ => ?_
      change Desk.Few l.bursts l.queue
      rw [pending, waiting, holds.queue]
      exact sound.few
    have all := Desk.refuseAll_frame { l with pending := [] } l.pending
    have reports := Desk.reports_refuseAll { l with pending := [] } l.pending
    rw [whole]
    have gone : Desk.Told (d.Fit ∧ d.Sound) (Desk.refuseAll { l with pending := [] } l.pending).finished.release :=
      refused.quietly (.one rfl rfl) fun _ => rfl
    refine gone.mono fun ⟨_, sound⟩ => ⟨fun datagram member => sound.queued datagram ?_, .inl ?_, fun on => ?_⟩
    · exact (waiting.trans holds.queue) ▸ all.1 datagram member
    · change (Desk.refuseAll { l with pending := [] } l.pending).bursts = []
      rw [reports.frame]
      rfl
    · have none_ : (Desk.refuseAll { l with pending := [] } l.pending).onAir = none := all.2.trans off
      change (Desk.refuseAll { l with pending := [] } l.pending).onAir.isSome = true at on
      rw [none_] at on
      cases on
  | unjudged sounds quiet none_ well =>
    exact told.become (.nothing rfl) rfl rfl rfl fun ⟨fit, _⟩ =>
      absurd (none_.symm.trans (fit.leave well quiet sounds)) Bool.false_ne_true
  | stopTest test =>
    exact told.become (.nothing rfl) rfl rfl rfl fun ⟨_, sound⟩ => sound.off rfl rfl (sound.landed (.inr test))
  | accept datagram bursts =>
    have more : (d.accept datagram).outstanding = Desk.named datagram.reference + d.outstanding := by
      change Desk.named d.onAir.join + (_ + ((d.queue ++ [datagram]).map fun datagram => Desk.named datagram.reference).sum) = _
      rw [List.map_append, List.sum_append, List.map_singleton, List.sum_singleton, ← add_assoc, ← add_assoc, add_comm]
      unfold Desk.outstanding
      rw [add_assoc (Desk.named d.onAir.join)]
      rfl
    have sounds (sound : d.Sound) : (d.accept datagram).Sound := by
      refine ⟨fun other member => ?_, ?_, sound.onAir⟩
      · rcases List.mem_append.mp member with member | member
        · exact sound.queued other member
        · exact List.mem_singleton.mp member ▸ bursts
      · rcases sound.few with none_ | ⟨reference, last, one, -⟩
        · exact .inl none_
        · exact .inr ⟨reference, last, one, fun _ nothing => by cases (List.append_eq_nil_iff.mp nothing).2⟩
    refine told.next rfl fun ⟨_, sound⟩ => ?_
    cases is : datagram.reference with
    | none =>
      rw [is] at more
      exact ⟨sounds sound, (more.trans (zero_add d.outstanding)).symm⟩
    | some reference =>
      rw [is] at more
      exact fun _ => ⟨trivial, sounds sound, more.symm⟩
  | feed resting empty queued =>
    rename_i front rest
    have shift := Desk.outstanding_pop queued
    unfold Desk.feed
    split
    · rename_i nothing
      exact told.next (l := []) (List.append_nil _).symm fun ⟨_, sound⟩ =>
        absurd nothing (sound.queued front (queued ▸ List.mem_cons_self))
    · rename_i burst bursts is
      refine told.next (l := []) (List.append_nil _).symm fun ⟨_, sound⟩ => ?_
      have landed := resting.landed sound
      have later (datagram : QueuedDatagram) (member : datagram ∈ rest) : datagram.bursts ≠ [] :=
        sound.queued datagram (queued ▸ List.mem_cons_of_mem _ member)
      have none_ (on : d.onAir.isSome = true) : False := by
        rw [landed] at on
        cases on
      rw [shift]
      cases bursts with
      | nil =>
        refine ⟨⟨later, ?_, fun on => (none_ on).elim⟩, ?_⟩
        · exact .inr ⟨front.reference, true, congrArg (fun pending => (pending ++ [_]).filterMap Outgoing.burst?) empty, nofun⟩
        · simp [Desk.outstanding, Desk.bursts, empty, Outgoing.burst?, add_left_comm]
      | cons next more =>
        refine ⟨⟨fun datagram member => ?_, ?_, fun on => (none_ on).elim⟩, ?_⟩
        · rcases List.mem_cons.mp member with rfl | member
          · exact List.cons_ne_nil next more
          · exact later datagram member
        · exact .inr ⟨front.reference, false, congrArg (fun pending => (pending ++ [_]).filterMap Outgoing.burst?) empty,
            fun _ => List.cons_ne_nil _ _⟩
        · simp [Desk.outstanding, Desk.bursts, empty, Outgoing.burst?, add_left_comm]
  | clear =>
    have cleared : Desk.Told (d.Sound ∧ d.pending.any Outgoing.earlier = false)
        (({ d with log := d.log ++ [.cleared (d.pending.any Outgoing.earlier)] }) : Desk P) :=
      told.next rfl fun ⟨_, sound⟩ => fun expected => ⟨trivial, ⟨sound, expected⟩, rfl⟩
    have gone : Desk.Told (d.Sound ∧ d.pending.any Outgoing.earlier = false) d.clear :=
      Desk.Told.reportAll (d := ({ d with queue := [] } : Desk P).tell [.cleared (d.pending.any Outgoing.earlier)]) cleared rfl
    have reports := Desk.reports_reportAll (({ d with queue := [] } : Desk P).tell [.cleared (d.pending.any Outgoing.earlier)]) d.queue
    have frame := Desk.reportAll_frame (({ d with queue := [] } : Desk P).tell [.cleared (d.pending.any Outgoing.earlier)]) d.queue
    refine gone.mono fun ⟨sound, none_⟩ => ?_
    unfold Desk.clear
    have bursts : (Desk.reportAll (({ d with queue := [] } : Desk P).tell [.cleared (d.pending.any Outgoing.earlier)]) d.queue).bursts =
        d.bursts := by
      rw [reports.frame]
      rfl
    refine ⟨fun datagram member => ?_, ?_, fun on => ?_⟩
    · rw [frame.1] at member
      cases member
    · rw [bursts]
      rcases sound.few with nothing | ⟨reference, last, one, -⟩
      · exact .inl nothing
      · refine .inr ⟨reference, last, one, fun earlier => ?_⟩
        subst earlier
        obtain ⟨next, member, is⟩ := List.mem_filterMap.mp (one ▸ List.mem_cons_self : (reference, false) ∈ d.bursts)
        have other := List.any_eq_false.mp none_ next member
        cases next with
        | datagram frames named last =>
          cases is
          exact absurd rfl other
        | _ => cases is
    · rw [frame.2] at on
      rw [reports.frame]
      exact sound.onAir on

/-! ### Runs -/

/-- What the reports expect, the answers expect too. -/
theorem reporting_expects (owed : Multiset Text) (owed' : Owed) (entry : Entry) (expected : reporting.expects owed entry) :
    answering.expects owed' entry := by
  cases entry with
  | rendered next audio => exact expected
  | tripped test datagram => exact expected.1
  | _ => trivial

section
variable [Ptt P] [Libm] (config : StationConfig) (engine : Link.Engine) (ptt : P) (policy : Regulatory.Policy)
  (occupancy : Option Regulatory.AirOccupancy) (seed : UInt64)

omit [Libm] in
theorem Acts.told {d d' : Desk P} (acts : Acts d d') (kept : d.Kept d.Fit) (told : d.Told d.Sound) : d'.Told d'.Sound := by
  refine (acts.keep (I := fun d => d.Kept d.Fit ∧ d.Told d.Sound) (fun d d' act ⟨kept, told⟩ => ⟨act.kept kept, ?_⟩) ⟨kept, told⟩).2
  have fits : answering.Keeps (fun _ => d.Fit) {} d.log := Monitor.Keeps.mono kept fun _ holds => holds.1
  exact act.told (Monitor.Keeps.mono (Monitor.Keeps.along told fits reporting_expects) fun _ ⟨⟨sound, is⟩, fit⟩ => ⟨⟨fit, sound⟩, is⟩)

end

end AetherHF.Radio

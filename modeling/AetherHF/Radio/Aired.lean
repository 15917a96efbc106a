import AetherHF.Base.Monitor
import AetherHF.Radio.Runs

/-! What goes out is what the rules gave leave for, once. -/
namespace AetherHF.Radio

variable {P : Type}

/-! ### Told beside the transmission -/

/-- Told the engine or a client, or of the queue. -/
def Entry.aside : Entry → Bool
  | .judged _ | .rendered .. | .keyed .. | .keyRefused | .released _ | .played _ => false
  | _ => true

def Entry.isReleased : Entry → Bool
  | .released _ => true
  | _ => false

namespace Desk

/-- What is said from one desk to another. -/
def Adds (said : Entry → Prop) (d d' : Desk P) : Prop := ∃ entries, d'.log = d.log ++ entries ∧ ∀ e ∈ entries, said e

theorem Adds.nothing {said : Entry → Prop} {d d' : Desk P} (same : d'.log = d.log) : d.Adds said d' :=
  ⟨[], by rw [same, List.append_nil], fun _ member => absurd member List.not_mem_nil⟩

theorem Adds.one {said : Entry → Prop} {d d' : Desk P} {e : Entry} (log : d'.log = d.log ++ [e]) (does : said e) : d.Adds said d' :=
  ⟨[e], log, fun _ member => List.mem_singleton.mp member ▸ does⟩

theorem Adds.two {said : Entry → Prop} {d d' : Desk P} {e f : Entry} (log : d'.log = d.log ++ [e, f]) (first : said e)
    (second : said f) : d.Adds said d' := by
  refine ⟨[e, f], log, fun g member => ?_⟩
  rcases List.mem_cons.mp member with rfl | member
  · exact first
  · exact List.mem_singleton.mp member ▸ second

theorem Adds.trans {said : Entry → Prop} {d d' d'' : Desk P} (first : d.Adds said d') (next : d'.Adds said d'') :
    d.Adds said d'' := by
  obtain ⟨xs, log, each⟩ := first
  obtain ⟨ys, log', each'⟩ := next
  refine ⟨xs ++ ys, by rw [log', log, List.append_assoc], fun e member => ?_⟩
  rcases List.mem_append.mp member with member | member
  · exact each e member
  · exact each' e member

theorem Adds.mono {said said' : Entry → Prop} {d d' : Desk P} (adds : d.Adds said d') (weaker : ∀ e, said e → said' e) :
    d.Adds said' d' := by
  obtain ⟨entries, log, each⟩ := adds
  exact ⟨entries, log, fun e member => weaker e (each e member)⟩

/-- The transmission, its leave and the key are as they were. -/
structure Aside (d d' : Desk P) : Prop where
  playback : d'.playback = d.playback
  transmitting : d'.transmitting = d.transmitting
  authorized : d'.authorized = d.authorized
  failed : d'.failed = d.failed
  ptt : d'.ptt = d.ptt
  adds : d.Adds (fun e => e.aside = true) d'

theorem Aside.refl (d : Desk P) : d.Aside d := ⟨rfl, rfl, rfl, rfl, rfl, .nothing rfl⟩

theorem Aside.trans {d d' d'' : Desk P} (first : d.Aside d') (next : d'.Aside d'') : d.Aside d'' where
  playback := next.playback.trans first.playback
  transmitting := next.transmitting.trans first.transmitting
  authorized := next.authorized.trans first.authorized
  failed := next.failed.trans first.failed
  ptt := next.ptt.trans first.ptt
  adds := first.adds.trans next.adds

variable (d : Desk P)

theorem aside_tell {entries : List Entry} (each : ∀ e ∈ entries, e.aside = true) : d.Aside (d.tell entries) :=
  ⟨rfl, rfl, rfl, rfl, rfl, entries, rfl, each⟩

theorem aside_tell_one {entry : Entry} (told : entry.aside = true) : d.Aside (d.tell [entry]) :=
  d.aside_tell fun _ member => List.mem_singleton.mp member ▸ told

theorem aside_answer (outcome : Outcome) : d.Aside (d.answer outcome) := by
  unfold answer
  split
  · exact ⟨rfl, rfl, rfl, rfl, rfl, .one rfl rfl⟩
  · exact .refl d

theorem aside_dropLinks : d.Aside d.dropLinks := by
  have moved : d.Aside { d with pending := d.pending.filter fun next => !next.isLink } := ⟨rfl, rfl, rfl, rfl, rfl, .nothing rfl⟩
  refine moved.trans (aside_tell _ fun e member => ?_)
  obtain ⟨tx, -, rfl⟩ := List.mem_map.mp member
  rfl

/-- Datagrams reported, and nothing else. -/
structure Reports (d d' : Desk P) : Prop where
  frame : d' = { d with queue := d'.queue, onAir := d'.onAir, log := d'.log }
  adds : d.Adds (fun e => ∃ reference sent, e = .reported reference sent) d'

theorem Reports.trans {d d' d'' : Desk P} (first : d.Reports d') (next : d'.Reports d'') : d.Reports d'' where
  frame := next.frame.trans (congrArg (fun d : Desk P => { d with queue := d''.queue, onAir := d''.onAir, log := d''.log }) first.frame)
  adds := first.adds.trans next.adds

theorem Reports.aside {d d' : Desk P} (reports : d.Reports d') : d.Aside d' where
  playback := by rw [reports.frame]
  transmitting := by rw [reports.frame]
  authorized := by rw [reports.frame]
  failed := by rw [reports.frame]
  ptt := by rw [reports.frame]
  adds := reports.adds.mono fun _ ⟨_, _, is⟩ => is ▸ rfl

theorem reports_report (reference : Option Text) (sent : Bool) : d.Reports (d.report reference sent) := by
  cases reference with
  | none => exact ⟨rfl, .nothing rfl⟩
  | some reference => exact ⟨rfl, _, rfl, fun _ member => ⟨reference, sent, List.mem_singleton.mp member⟩⟩

theorem reports_land (sent : Bool) : d.Reports (d.land sent) := by
  unfold land
  split
  · exact ⟨rfl, .nothing rfl⟩
  · have moved : d.Reports { d with onAir := none } := ⟨rfl, .nothing rfl⟩
    exact moved.trans (reports_report _ _ _)

theorem reports_refuseBurst (reference : Option Text) (last : Bool) : d.Reports (d.refuseBurst reference last) := by
  unfold refuseBurst
  split
  · exact d.reports_report _ _
  · split
    · rename_i front rest queue
      have moved : d.Reports { d with queue := rest } := ⟨rfl, .nothing rfl⟩
      exact moved.trans (reports_report _ _ _)
    · exact d.reports_report _ _

theorem reports_refuseAll (dropped : List Outgoing) : d.Reports (d.refuseAll dropped) := by
  induction dropped generalizing d with
  | nil => exact ⟨rfl, .nothing rfl⟩
  | cons next rest ih =>
    cases next with
    | datagram frames reference last => exact (d.reports_refuseBurst reference last).trans (ih _)
    | _ => exact ih d

theorem reports_reportAll (queue : List QueuedDatagram) : d.Reports (d.reportAll queue) := by
  induction queue generalizing d with
  | nil => exact ⟨rfl, .nothing rfl⟩
  | cons datagram rest ih => exact (d.reports_report datagram.reference false).trans (ih _)

theorem aside_feed (front : QueuedDatagram) (rest : List QueuedDatagram) : d.Aside (d.feed front rest) := by
  unfold feed
  split <;> exact ⟨rfl, rfl, rfl, rfl, rfl, .nothing rfl⟩

theorem aside_accept (datagram : QueuedDatagram) : d.Aside (d.accept datagram) := by
  have moved : d.Aside { d with queue := d.queue ++ [datagram] } := ⟨rfl, rfl, rfl, rfl, rfl, .nothing rfl⟩
  refine moved.trans (aside_tell _ fun e member => ?_)
  obtain ⟨reference, -, rfl⟩ := Option.map_eq_some_iff.mp (Option.mem_toList.mp member)
  rfl

theorem aside_clear : d.Aside d.clear := by
  have emptied : d.Aside { d with queue := [] } := ⟨rfl, rfl, rfl, rfl, rfl, .nothing rfl⟩
  exact (emptied.trans (aside_tell_one _ rfl)).trans (reports_reportAll _ _).aside

end Desk

/-! ### What is on the air -/

/-- What goes out, as told. -/
inductive OnAir where
  | quiet
  | judged (leave : Leave)
  | ready (leave : Leave) (audio : List ℚ)
  | keyed (leave : Leave) (rest : List ℚ)
  /-- Keyed too late to be played. -/
  | late

/-- A transmission is judged while none is on the air, rendered once judged, keyed once rendered,
and played as rendered; a leave keys the radio once. -/
def airing : Monitor OnAir Entry where
  expects _ _ := True
  permits on entry := match entry with
    | .judged _ => match on with
      | .keyed .. | .late => False
      | _ => True
    | .rendered next _ => ∃ leave, on = .judged leave ∧ leave.next = next
    | .keyed .. => ∃ leave audio, on = .ready leave audio ∧ audio ≠ []
    | .played samples => ∃ leave rest, on = .keyed leave rest ∧ samples <+: rest
    | _ => True
  enter on entry := match entry, on with
    | .judged leave, _ => .judged leave
    | .rendered _ audio, .judged leave => .ready leave audio
    | .keyed radiatesAt latest, .ready leave audio =>
      if latest.any fun l => decide (l + Station.micro < radiatesAt) then .late else .keyed leave audio
    | .played samples, .keyed leave rest => .keyed leave (rest.drop samples.length)
    | .released _, _ | .keyRefused, _ => .quiet
    | _, _ => on

/-- The desk is where what it told says. -/
structure Desk.At (d : Desk P) (on : OnAir) : Prop where
  keyed : d.transmitting = true → ∃ leave rest, on = .keyed leave rest ∧ (d.playback = rest ∨ d.playback = [])
  ready : d.transmitting = false → d.playback ≠ [] → d.authorized = true → ∃ leave, on = .ready leave d.playback
  quiet : d.transmitting = false → ∀ leave, airing.permits on (.judged leave)
  leave : d.transmitting = false → d.playback ≠ [] → d.authorized = true

/-- Until the radio fails, and again once the transmission is given up. -/
def Desk.Aired (d : Desk P) : Prop := airing.Keeps (fun on => d.failed = false → d.At on) .quiet d.log

section
variable {d d' : Desk P}

theorem airing_aside {entries : List Entry} (each : ∀ e ∈ entries, e.aside = true) {Q : OnAir → Prop} {on : OnAir} (holds : Q on) :
    airing.Keeps Q on entries := by
  induction entries with
  | nil => exact holds
  | cons e rest ih =>
    have aside := each e List.mem_cons_self
    have ih := ih fun e member => each e (List.mem_cons_of_mem _ member)
    cases e with
    | judged | rendered | keyed | keyRefused | released | played => cases aside
    | _ => exact fun _ => ⟨trivial, ih⟩

/-- The desk is where it was told to be, whatever entry is next. -/
theorem Desk.Aired.next {l : List Entry} (aired : d.Aired) (log : d'.log = d.log ++ l)
    (kept : ∀ on, (d.failed = false → d.At on) → airing.Keeps (fun on => d'.failed = false → d'.At on) on l) : d'.Aired := by
  unfold Aired
  rw [log]
  exact aired.trans kept

/-- Where the desk changes and nothing is told. -/
theorem Desk.Aired.same (aired : d.Aired) (log : d'.log = d.log)
    (kept : ∀ on, (d.failed = false → d.At on) → d'.failed = false → d'.At on) : d'.Aired :=
  aired.next (l := []) (log.trans (List.append_nil _).symm) kept

theorem Desk.Aired.aside (aired : d.Aired) (aside : d.Aside d') : d'.Aired := by
  obtain ⟨playback, transmitting, authorized, failed, -, entries, log, each⟩ := aside
  refine aired.next log fun on at_ => airing_aside each fun well => ?_
  obtain ⟨keyed, ready, quiet, leave⟩ := at_ (failed ▸ well)
  refine ⟨?_, ?_, ?_, ?_⟩ <;> rw [transmitting]
  · rw [playback]
    exact keyed
  · rw [playback, authorized]
    exact ready
  · exact quiet
  · rw [playback, authorized]
    exact leave

theorem Desk.At.silent (transmitting : d.transmitting = false) (playback : d.playback = []) : d.At .quiet where
  keyed on := by rw [transmitting] at on; cases on
  ready _ sounds := absurd playback sounds
  quiet _ _ := trivial
  leave _ sounds := absurd playback sounds

/-- Once the key is let go and nothing is rendered, nothing is on the air. -/
theorem Desk.Aired.let_go (aired : d.Aired) {b : Desk P} {obeyed : Bool}
    (said : d.Adds (fun e => e.aside = true ∨ e.isReleased = true) b) (log : d'.log = b.log ++ [.released obeyed])
    (transmitting : d'.transmitting = false) (playback : d'.playback = []) : d'.Aired := by
  obtain ⟨entries, middle_log, each⟩ := said
  rw [middle_log, List.append_assoc] at log
  refine aired.next log fun on at_ => ?_
  clear at_ log middle_log
  induction entries generalizing on with
  | nil => exact fun _ => ⟨trivial, fun _ => .silent transmitting playback⟩
  | cons e rest ih =>
    have free := each e List.mem_cons_self
    have ih := ih fun e member => each e (List.mem_cons_of_mem _ member)
    cases e with
    | judged | rendered | keyed | keyRefused | played => rcases free with free | free <;> cases free
    | _ => exact fun _ => ⟨trivial, ih _⟩

/-- What is rendered is given up. -/
theorem Desk.Aired.silenced (aired : d.Aired) (log : d'.log = d.log) (playback : d'.playback = [])
    (transmitting : d'.transmitting = d.transmitting) (failed : d'.failed = d.failed) : d'.Aired := by
  refine aired.same log fun on at_ well => ?_
  obtain ⟨keyed, -, quiet, -⟩ := at_ (failed ▸ well)
  refine ⟨fun up => ?_, fun _ sounds => absurd playback sounds, fun down => quiet (transmitting ▸ down),
    fun _ sounds => absurd playback sounds⟩
  obtain ⟨leave, rest, is, -⟩ := keyed (transmitting ▸ up)
  exact ⟨leave, rest, is, .inr playback⟩

end

/-! ### Acts -/

section
variable {d d' : Desk P}

theorem Desk.Aired.pending (aired : d.Aired) (pending : List Outgoing) : Desk.Aired { d with pending } :=
  aired.aside ⟨rfl, rfl, rfl, rfl, rfl, .nothing rfl⟩

/-- A transmission judged. -/
theorem Desk.Aired.judges (aired : d.Aired) (resting : d.Resting) (leave : Leave) (next : Outgoing) (rest : List Outgoing) :
    ((d.take next rest).tell [.judged leave]).Aired := by
  refine aired.next rfl fun on at_ => fun _ => ⟨(at_ resting.well).quiet resting.quiet leave, fun _ => ⟨fun up => ?_,
    fun _ sounds => absurd resting.silent sounds, fun _ _ => trivial, fun _ sounds => absurd resting.silent sounds⟩⟩
  exact absurd (resting.quiet.symm.trans up) Bool.false_ne_true

theorem Desk.Aired.renders (aired : d.Aired) (resting : d.Resting) (leave : Leave) (rest : List Outgoing) (audio : List ℚ)
    (keying test : Bool) :
    ((({ d.take leave.next rest with playback := audio, keying, playingTest := test } : Desk P).tell [.judged leave]).tell
      [.rendered leave.next audio]).Aired := by
  refine aired.next (List.append_assoc ..) fun on at_ => fun _ => ⟨(at_ resting.well).quiet resting.quiet leave, fun _ =>
    ⟨⟨leave, rfl, rfl⟩, fun _ => ⟨fun up => ?_, fun _ _ _ => ⟨leave, rfl⟩, fun _ _ => trivial, fun _ _ => rfl⟩⟩⟩
  exact absurd (resting.quiet.symm.trans up) Bool.false_ne_true

theorem Desk.Aired.keys (aired : d.Aired) (waiting : d.Waiting) (radiatesAt : ℚ) (latest : Option ℚ) {Q : OnAir → Prop}
    (late_ : late radiatesAt latest → Q .late) (inTime : ¬ late radiatesAt latest → ∀ leave, Q (.keyed leave d.playback)) :
    airing.Keeps Q .quiet (d.log ++ [.keyed radiatesAt latest]) := by
  refine aired.trans fun on at_ => fun _ => ?_
  obtain ⟨leave, rfl⟩ := (at_ waiting.well).ready waiting.quiet waiting.sounds waiting.leave
  refine ⟨⟨leave, d.playback, rfl, waiting.sounds⟩, ?_⟩
  change Q (if latest.any fun l => decide (l + Station.micro < radiatesAt) then .late else .keyed leave d.playback)
  split
  · rename_i over_
    exact late_ ((Station.late_iff _ _).mp over_)
  · rename_i within_
    exact inTime (mt (Station.late_iff _ _).mpr within_) leave

theorem Desk.fallSilent_adds {said : Entry → Prop} (d : Desk P) : d.Adds said d.fallSilent := .nothing rfl

theorem Desk.Aside.free (aside : d.Aside d') : d.Adds (fun e => e.aside = true ∨ e.isReleased = true) d' :=
  aside.adds.mono fun _ => .inl

variable [Ptt P]

/-- What a trip says before the key is let go again. -/
theorem Desk.trip_said (d : Desk P) (now : ℚ) (outcome : Outcome) : ∃ middle : Desk P,
    d.trip now outcome = middle.letGo ∧ d.Adds (fun e => e.aside = true ∨ e.isReleased = true) middle ∧
      middle.transmitting = false ∧ middle.playback = [] ∧ middle.ptt = (d.ptt.poll now).2 := by
  let polled : Desk P := { d with ptt := (d.ptt.poll now).2 }.tell [.released true]
  let told := polled.tell [.tripped d.playingTest (d.onAir.isSome || d.pending.any Outgoing.isDatagram)]
  have first : d.Adds (fun e => e.aside = true ∨ e.isReleased = true) polled :=
    ⟨[.released true], rfl, fun _ member => List.mem_singleton.mp member ▸ .inr rfl⟩
  have next := (told.fallSilent.aside_answer outcome).trans (Desk.aside_dropLinks _)
  refine ⟨_, rfl, ?_, rfl, next.playback, next.ptt⟩
  exact ((first.trans (polled.aside_tell_one rfl).free).trans told.fallSilent_adds).trans (next.free.trans (.nothing rfl))

theorem Desk.cardDrop_said (d : Desk P) : ∃ middle : Desk P,
    d.cardDrop = middle.letGo ∧ d.Adds (fun e => e.aside = true ∨ e.isReleased = true) middle ∧
      middle.transmitting = false ∧ middle.playback = [] ∧ middle.ptt = d.ptt := by
  have first : d.Aside (d.tell [.cardDropped d.onAir.isSome]) := d.aside_tell_one rfl
  have told := first.trans (Desk.aside_answer _ .dropped)
  exact ⟨_, rfl, told.free.trans (.nothing rfl), rfl, rfl, told.ptt⟩

theorem Desk.abandon_said (d : Desk P) (outcome : Outcome) : ∃ middle : Desk P,
    d.abandon outcome = middle.release ∧ d.Adds (fun e => e.aside = true ∨ e.isReleased = true) middle ∧
      middle.transmitting = false ∧ middle.playback = [] ∧ middle.ptt = d.ptt := by
  have first := (d.aside_answer outcome).trans (Desk.aside_dropLinks _)
  have landed := (Desk.reports_land (d.answer outcome).dropLinks.fallSilent false).aside
  have refused := (Desk.reports_refuseAll { (d.answer outcome).dropLinks.fallSilent.land false with pending := [] }
    ((d.answer outcome).dropLinks.fallSilent.land false).pending).aside
  refine ⟨_, rfl, ?_, rfl, refused.playback.trans landed.playback, (refused.ptt.trans landed.ptt).trans first.ptt⟩
  exact ((first.free.trans (Desk.fallSilent_adds _)).trans landed.free).trans
    (Desk.Adds.trans (.nothing rfl) (refused.free.trans (.nothing rfl)))

/-- Each act keeps to what was judged. -/
theorem Act.aired (act : Act d d') (aired : d.Aired) : d'.Aired := by
  cases act with
  | hand tx => exact (aired.pending _).aside (Desk.aside_tell_one _ rfl)
  | put next own => exact aired.pending _
  | prune keep kept => exact aired.pending _
  | await head deadline => exact aired.pending _
  | resume head => exact aired.pending _
  | refuse resting head own =>
    rename_i next rest
    have silent : Desk.Aired { d with pending := rest, authorized := false } := aired.silenced rfl resting.silent rfl rfl
    exact silent.aside (Desk.aside_tell_one _ rfl)
  | refuseLink resting head =>
    rename_i tx rest
    have silent : Desk.Aired { d with pending := rest, authorized := false } := aired.silenced rfl resting.silent rfl rfl
    exact (silent.aside (Desk.aside_tell_one _ rfl)).aside (Desk.aside_tell_one _ rfl)
  | refuseDatagram resting head =>
    rename_i frames reference last rest
    have silent : Desk.Aired { d with pending := rest, authorized := false } := aired.silenced rfl resting.silent rfl rfl
    exact (silent.aside (Desk.aside_tell_one _ rfl)).aside (Desk.reports_refuseBurst _ _ _).aside
  | dropLinks free => exact aired.aside d.aside_dropLinks
  | render resting leave head audio keying test => exact aired.renders resting leave _ audio keying test
  | unrendered resting leave head other => exact (aired.judges resting leave _ _).aside (Desk.aside_tell_one _ rfl)
  | unrenderedLink resting leave is head outcome =>
    exact ((aired.judges resting leave _ _).aside (Desk.aside_tell_one _ rfl)).aside (Desk.aside_tell_one _ rfl)
  | keyUp waiting now radiatesAt latest obeyed inTime =>
    exact aired.keys waiting radiatesAt latest (absurd · inTime) fun _ leave _ =>
      ⟨fun _ => ⟨leave, d.playback, rfl, .inl rfl⟩, nofun, nofun, nofun⟩
  | keyLate waiting keys now radiatesAt latest obeyed late_ =>
    have released : ((d.keyAt now).tell [.keyed radiatesAt latest]).release.fallSilent.Aired := by
      unfold Desk.Aired
      have keyed := aired.keys waiting radiatesAt latest (Q := fun on => on = .late) (fun _ => rfl) (absurd late_)
      exact keyed.trans fun on _ _ => ⟨trivial, fun _ => .silent waiting.quiet rfl⟩
    exact released.aside (Desk.aside_answer _ _)
  | keyStuck waiting now radiatesAt latest obeyed late_ =>
    have keyed := aired.keys waiting radiatesAt latest (Q := fun on => on = .late) (fun _ => rfl) (absurd late_)
    exact keyed.trans fun on _ _ => ⟨trivial, nofun⟩
  | keyRefused waiting now => exact aired.next rfl fun _ _ _ => ⟨trivial, nofun⟩
  | play on well count =>
    refine aired.next rfl fun on_ at_ => fun _ => ?_
    obtain ⟨leave, rest, rfl, is⟩ := (at_ well).keyed on
    have short : (d.playback.take count).length = min count d.playback.length := List.length_take
    refine ⟨⟨leave, rest, rfl, ?_⟩, fun _ => ⟨fun _ => ⟨leave, _, rfl, ?_⟩, ?_, ?_, ?_⟩⟩
    · rcases is with rfl | nothing
      · exact List.take_prefix ..
      · rw [nothing, List.take_nil]
        exact List.nil_prefix
    · rcases is with rfl | nothing
      · refine .inl ?_
        change d.playback.drop count = d.playback.drop (d.playback.take count).length
        rcases Nat.le_total count d.playback.length with within_ | beyond
        · rw [short, Nat.min_eq_left within_]
        · rw [short, Nat.min_eq_right beyond, List.drop_of_length_le beyond, List.drop_length]
      · refine .inr ?_
        change d.playback.drop count = []
        rw [nothing, List.drop_nil]
    all_goals exact fun down => absurd (down.symm.trans on) Bool.false_ne_true
  | finish on silent sent =>
    have released : d.finished.release.Aired := aired.let_go (b := d.finished) (.nothing rfl) rfl rfl silent
    exact (released.aside (Desk.reports_land _ sent).aside).aside (Desk.aside_answer _ _)
  | finishStuck on silent =>
    exact aired.next rfl fun _ _ _ => ⟨trivial, nofun⟩
  | cut on test outcome =>
    have silent : d.fallSilent.Aired := aired.silenced rfl rfl rfl rfl
    exact (silent.aside (Desk.aside_answer _ outcome)).aside (Desk.aside_dropLinks _)
  | discard quiet keys =>
    have silent : d.fallSilent.Aired := aired.silenced rfl rfl rfl rfl
    exact silent.aside (Desk.aside_answer _ .dropped)
  | pollStuck now => exact aired.next rfl fun _ _ _ => ⟨trivial, nofun⟩
  | trip now outcome =>
    obtain ⟨middle, is, said, quiet, silent, -⟩ := d.trip_said now outcome
    rw [is]
    exact aired.let_go said rfl quiet silent
  | cardDrop on =>
    obtain ⟨middle, is, said, quiet, silent, -⟩ := d.cardDrop_said
    rw [is]
    exact aired.let_go said rfl quiet silent
  | abandon outcome =>
    obtain ⟨middle, is, said, quiet, silent, -⟩ := Desk.abandon_said { d with failed := false } outcome
    rw [is]
    exact aired.let_go said rfl quiet silent
  | unjudged sounds quiet none_ well => exact aired.silenced rfl rfl rfl rfl
  | stopTest test => exact aired.silenced rfl rfl rfl rfl
  | accept datagram bursts => exact aired.aside (d.aside_accept datagram)
  | feed resting empty queued => exact aired.aside (d.aside_feed _ _)
  | clear => exact aired.aside d.aside_clear

end

/-! ### Runs -/

section
variable [Ptt P] {d d' : Desk P}

/-- What every act keeps holds at every run's end. -/
theorem Acts.keep {I : Desk P → Prop} (kept : ∀ d d', Act d d' → I d → I d') (acts : Acts d d') (first : I d) : I d' := by
  induction acts with
  | refl => exact first
  | tail _ act ih => exact kept _ _ act ih

variable [Libm] (config : StationConfig) (engine : Link.Engine) (ptt : P) (policy : Regulatory.Policy)
  (occupancy : Option Regulatory.AirOccupancy) (seed : UInt64)

omit [Ptt P] [Libm] in
theorem Station.new_aired : (Station.new config engine ptt policy occupancy seed).desk.Aired := fun _ => .silent rfl rfl

/-- Whatever a station is told and hears: no transmission is judged while another is on the air,
what is rendered was just judged, the radio is keyed for what was rendered, once, and what goes
to the card is that audio, in order. -/
theorem Station.aired_as_judged (steps : List Step) :
    airing.Keeps (((Station.new config engine ptt policy occupancy seed).run steps).desk.At) .quiet
      ((Station.new config engine ptt policy occupancy seed).run steps).log :=
  Monitor.Keeps.mono (Acts.keep (fun _ _ => Act.aired) (Station.run_acts steps) (Station.new_aired config engine ptt policy occupancy seed))
    fun _ at_ => at_ rfl

end

end AetherHF.Radio

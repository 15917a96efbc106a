import AetherHF.Radio.Aired

/-! The engine hears once of each of its transmissions, in the order it handed them over. -/
namespace AetherHF.Radio

variable {P : Type}

/-- The engine's transmissions it has not been told of: queued, and rendered. -/
structure Owed where
  waiting : List LinkTx := []
  rendered : Option LinkTx := none

/-- The engine is told of the transmission rendered, else of the one handed over first. The card
gives what it renders some length, and no test is marked playing when the watchdog trips. -/
def answering : Monitor Owed Entry where
  expects _ entry := match entry with
    | .rendered _ audio => audio ≠ []
    | .tripped test _ => test = false
    | _ => True
  permits owed entry := match entry with
    | .rendered (.link tx) _ | .answered (some tx) _ => owed.rendered = none ∧ owed.waiting.head? = some tx
    | .answered none _ => owed.rendered.isSome = true
    | _ => True
  enter owed entry := match entry with
    | .handed tx => { owed with waiting := owed.waiting ++ [tx] }
    | .rendered (.link tx) _ => ⟨owed.waiting.tail, some tx⟩
    | .answered (some _) _ => { owed with waiting := owed.waiting.tail }
    | .answered none _ => { owed with rendered := none }
    | _ => owed

/-- Neither handed over, rendered nor answered. -/
def Entry.elsewhere : Entry → Bool
  | .handed _ | .rendered .. | .answered .. | .tripped .. => false
  | _ => true

namespace Desk

/-- What is owed is what is queued, and what is rendered or on the air. -/
structure Books (d : Desk P) (owed : Owed) : Prop where
  waiting : d.pending.filterMap Outgoing.link? = owed.waiting
  rendered : d.keying = owed.rendered.isSome

/-- The books are in order, and `C`. -/
def Kept (C : Prop) (d : Desk P) : Prop := answering.Keeps (fun owed => C ∧ d.Books owed) {} d.log

section
variable {C C' : Prop} {d d' : Desk P}

theorem Kept.mono (kept : d.Kept C) (weaker : C → C') : d.Kept C' := Monitor.Keeps.mono kept fun _ ⟨c, books⟩ => ⟨weaker c, books⟩

theorem Kept.next {l : List Entry} (kept : d.Kept C) (log : d'.log = d.log ++ l)
    (then_ : ∀ owed, C → d.Books owed → answering.Keeps (fun owed => C' ∧ d'.Books owed) owed l) : d'.Kept C' := by
  unfold Kept
  rw [log]
  exact Monitor.Keeps.trans kept fun owed ⟨c, books⟩ => then_ owed c books

/-- Told of something else, with the books as they were. -/
theorem Kept.elsewhere (kept : d.Kept C) (adds : d.Adds (fun e => e.elsewhere = true) d')
    (pending : d'.pending.filterMap Outgoing.link? = d.pending.filterMap Outgoing.link?) (keying : d'.keying = d.keying) :
    d'.Kept C := by
  obtain ⟨entries, log, each⟩ := adds
  refine kept.next log fun owed c books => ?_
  have books : d'.Books owed := ⟨pending.trans books.waiting, keying.trans books.rendered⟩
  clear log
  induction entries with
  | nil => exact ⟨c, books⟩
  | cons e rest ih =>
    have first := each e List.mem_cons_self
    have ih := ih fun e member => each e (List.mem_cons_of_mem _ member)
    cases e with
    | handed | rendered | answered | tripped => cases first
    | _ => exact fun _ => ⟨trivial, ih⟩

theorem Kept.same (kept : d.Kept C) (log : d'.log = d.log)
    (pending : d'.pending.filterMap Outgoing.link? = d.pending.filterMap Outgoing.link?) (keying : d'.keying = d.keying) :
    d'.Kept C := kept.elsewhere (.nothing log) pending keying

theorem Kept.tells (kept : d.Kept C) {entry : Entry} (told : entry.elsewhere = true) : (d.tell [entry]).Kept C :=
  kept.elsewhere ⟨_, rfl, fun _ member => List.mem_singleton.mp member ▸ told⟩ rfl rfl

theorem Kept.reports (kept : d.Kept C) (reports : d.Reports d') : d'.Kept C := by
  refine kept.elsewhere (reports.adds.mono fun _ ⟨_, _, is⟩ => is ▸ rfl) ?_ ?_ <;> rw [reports.frame]

theorem Kept.answer (kept : d.Kept C) (outcome : Outcome) : (d.answer outcome).Kept C := by
  unfold Desk.answer
  split
  · rename_i keys
    exact kept.next rfl fun owed c books => fun _ => ⟨books.rendered.symm.trans keys, c, books.waiting, rfl⟩
  · exact kept

theorem answer_keying (d : Desk P) (outcome : Outcome) : (d.answer outcome).keying = false := by
  unfold answer
  split
  · rfl
  · rename_i quiet
    exact Bool.not_eq_true _ |>.mp quiet

/-- Told of each, in order. -/
theorem keeps_dropped {Q : Owed → Prop} (txs : List LinkTx) (holds : Q {}) :
    answering.Keeps Q ⟨txs, none⟩ (txs.map fun tx => .answered (some tx) .dropped) := by
  induction txs with
  | nil => exact holds
  | cons tx rest ih => exact fun _ => ⟨⟨rfl, rfl⟩, ih⟩

theorem filterMap_notLinks (pending : List Outgoing) :
    (pending.filter fun next => !next.isLink).filterMap Outgoing.link? = [] := by
  refine List.filterMap_eq_nil_iff.mpr fun next member => ?_
  have other := (List.mem_filter.mp member).2
  cases next with
  | link tx => cases other
  | _ => rfl

theorem Kept.dropLinks (kept : d.Kept C) (quiet : C → d.keying = false) : d.dropLinks.Kept C := by
  refine kept.next rfl fun owed c books => ?_
  obtain ⟨waiting, rendered⟩ := owed
  obtain ⟨is, keying⟩ := books
  dsimp only at is keying
  have none_ : rendered = none := Option.isSome_eq_false_iff.mp (keying.symm.trans (quiet c)) |> Option.isNone_iff_eq_none.mp
  subst is none_
  exact keeps_dropped _ ⟨c, filterMap_notLinks d.pending, quiet c⟩

end

/-! ### Acts -/

/-- What is rendered or tested is on its way out. -/
structure Fit (d : Desk P) : Prop where
  busy : d.keying = true ∨ d.playingTest = true → d.transmitting = true ∨ d.playback ≠ [] ∨ d.failed = true
  test : d.playingTest = true → d.keying = false
  leave : d.failed = false → d.transmitting = false → d.playback ≠ [] → d.authorized = true

variable {d d' : Desk P}

theorem Resting.nothing (resting : d.Resting) (out : d.transmitting = true ∨ d.playback ≠ [] ∨ d.failed = true) : False := by
  rcases out with up | sounds | failed
  · exact absurd (resting.quiet.symm.trans up) Bool.false_ne_true
  · exact sounds resting.silent
  · exact absurd (resting.well.symm.trans failed) Bool.false_ne_true

theorem Resting.keying (resting : d.Resting) (fit : d.Fit) : d.keying = false := by
  by_contra keys
  exact resting.nothing (fit.busy (.inl (Bool.not_eq_false _ |>.mp keys)))

theorem Resting.noTest (resting : d.Resting) (fit : d.Fit) : d.playingTest = false := by
  by_contra test
  exact resting.nothing (fit.busy (.inr (Bool.not_eq_false _ |>.mp test)))

theorem Fit.noTest (fit : d.Fit) (keys : d.keying = true) : d.playingTest = false := by
  by_contra test
  exact absurd ((fit.test (Bool.not_eq_false _ |>.mp test)).symm.trans keys) Bool.false_ne_true

/-- Nothing is rendered or tested. -/
theorem Fit.idle (keying : d.keying = false) (test : d.playingTest = false)
    (leave : d.failed = false → d.transmitting = false → d.playback ≠ [] → d.authorized = true) : d.Fit where
  busy out := by
    rw [keying, test] at out
    rcases out with out | out <;> cases out
  test _ := keying
  leave := leave

theorem Fit.same (fit : d.Fit) (playback : d'.playback = d.playback) (transmitting : d'.transmitting = d.transmitting)
    (keying : d'.keying = d.keying) (test : d'.playingTest = d.playingTest) (authorized : d'.authorized = d.authorized)
    (failed : d'.failed = d.failed) : d'.Fit := by
  obtain ⟨busy, test_, leave⟩ := fit
  refine ⟨?_, ?_, ?_⟩
  · rw [keying, test, transmitting, playback, failed]
    exact busy
  · rw [keying, test]
    exact test_
  · rw [failed, transmitting, playback, authorized]
    exact leave

theorem Fit.failed (fit : d.Fit) (keying : d'.keying = d.keying) (test : d'.playingTest = d.playingTest)
    (failed : d'.failed = true) : d'.Fit where
  busy _ := .inr (.inr failed)
  test on := keying.trans (fit.test (test.symm.trans on))
  leave well := absurd (well.symm.trans failed) Bool.false_ne_true

/-- Silenced with nothing of the engine's rendered. -/
theorem Fit.silent (keying : d.keying = false) (test : d.playingTest = false) (playback : d.playback = []) : d.Fit :=
  .idle keying test fun _ _ sounds => absurd playback sounds

section
variable {β : Type} {f : Outgoing → Option β}

theorem filterMap_kept (none_ : ∀ next, next.own = true → f next = none) {pending : List Outgoing} {keep : Outgoing → Bool}
    (kept : ∀ next ∈ pending, next.own = false → keep next = true) : (pending.filter keep).filterMap f = pending.filterMap f := by
  induction pending with
  | nil => rfl
  | cons next rest ih =>
    have ih := ih fun other member => kept other (List.mem_cons_of_mem _ member)
    rw [List.filter_cons]
    split
    · rw [List.filterMap_cons, List.filterMap_cons, ih]
    · rename_i dropped
      have own : next.own = true := Bool.not_eq_false _ |>.mp fun other => dropped (kept next List.mem_cons_self other)
      rw [ih, List.filterMap_cons_none (none_ next own)]

theorem filterMap_head {pending rest : List Outgoing} {next : Outgoing} (head : pending = next :: rest) (other : f next = none) :
    rest.filterMap f = pending.filterMap f := by
  rw [head, List.filterMap_cons_none other]

theorem filterMap_put {l : List Outgoing} {next : Outgoing} (other : f next = none) :
    (l ++ [next]).filterMap f = l.filterMap f := by
  rw [List.filterMap_append, List.filterMap_cons_none other]
  exact List.append_nil _

end

theorem link_own (next : Outgoing) (own : next.own = true) : next.link? = none := by
  cases next with
  | link tx => cases own
  | _ => rfl

theorem link_other {next : Outgoing} (other : next.isLink = false) : next.link? = none := by
  cases next with
  | link tx => cases other
  | _ => rfl

theorem answer_frame (d : Desk P) (outcome : Outcome) : d.answer outcome =
    { d with keying := false, log := (d.answer outcome).log } := by
  unfold answer
  split
  · rfl
  · rename_i quiet
    have quiet : d.keying = false := Bool.not_eq_true _ |>.mp quiet
    rw [← quiet]

/-- A transmission of the engine's refused or not rendered. -/
theorem Kept.unsent {C : Prop} (kept : d.Kept C) {tx : LinkTx} {rest : List Outgoing} (head : d.pending = .link tx :: rest)
    (quiet : C → d.keying = false) (pending : d'.pending = rest) (keying : d'.keying = d.keying) (outcome : Outcome)
    {l : List Entry} (log : d'.log = d.log ++ l ++ [.answered (some tx) outcome])
    (each : ∀ e ∈ l, e.elsewhere = true) : d'.Kept C := by
  have first : Kept C ({ d with log := d.log ++ l } : Desk P) := kept.elsewhere ⟨l, rfl, each⟩ rfl rfl
  refine first.next log fun owed c books => ?_
  obtain ⟨waiting, rendered⟩ := books
  dsimp only at waiting rendered
  rw [head] at waiting
  have none_ : owed.rendered = none := Option.isNone_iff_eq_none.mp (Option.isSome_eq_false_iff.mp (rendered.symm.trans (quiet c)))
  refine fun _ => ⟨⟨none_, ?_⟩, c, ?_, ?_⟩
  · rw [← waiting]
    rfl
  · rw [pending]
    change _ = owed.waiting.tail
    rw [← waiting]
    rfl
  · exact keying.trans rendered

/-- The desk as it becomes, told of something else. -/
theorem Kept.become (kept : d.Kept d.Fit) (adds : d.Adds (fun e => e.elsewhere = true) d')
    (pending : d'.pending.filterMap Outgoing.link? = d.pending.filterMap Outgoing.link?) (keying : d'.keying = d.keying)
    (fit : d.Fit → d'.Fit) : d'.Kept d'.Fit := (kept.elsewhere adds pending keying).mono fit

/-- A transmission taken and rendered. -/
theorem Kept.take {leave : Leave} {next : Outgoing} {rest : List Outgoing} (kept : d.Kept d.Fit) (resting : d.Resting)
    (head : d.pending = next :: rest) {audio : List ℚ} {keying test : Bool}
    (keys : keying = true → next.isLink = true ∨ d.keying = true) (link : next.isLink = true → keying = true)
    (linkTest : next.isLink = true → test = true → d.playingTest = true)
    (is : d' = (({ d.take next rest with playback := audio, keying, playingTest := test } : Desk P).tell [.judged leave]).tell
      [.rendered next audio]) : d'.Kept d'.Fit := by
  refine kept.next (l := [.judged leave, .rendered next audio]) (by rw [is]; exact List.append_assoc ..)
    fun owed fit books => fun _ => ⟨trivial, fun sounds => ?_⟩
  have off := resting.keying fit
  have noTest := resting.noTest fit
  have fits (apart : test = true → keying = false) : d'.Fit := by
    rw [is]
    exact ⟨fun _ => .inr (.inl sounds), apart, fun _ _ _ => rfl⟩
  obtain ⟨waiting, rendered⟩ := books
  rw [head] at waiting
  have none_ : owed.rendered = none := Option.isNone_iff_eq_none.mp (Option.isSome_eq_false_iff.mp (rendered.symm.trans off))
  obtain ⟨queued, current⟩ := owed
  dsimp only at waiting none_
  subst waiting none_ is
  cases next with
  | link tx =>
    obtain rfl := link rfl
    have untested : test = false := by
      cases test with
      | false => rfl
      | true => exact (noTest.symm.trans (linkTest rfl rfl)).symm
    exact ⟨⟨rfl, rfl⟩, fits (fun on => absurd (untested.symm.trans on) Bool.false_ne_true), rfl, rfl⟩
  | _ =>
    have quiet : keying = false := by
      cases keying with
      | false => rfl
      | true =>
        rcases keys rfl with link | keys
        · cases link
        · exact (off.symm.trans keys).symm
    exact ⟨trivial, fits fun _ => quiet, rfl, quiet⟩

end Desk

/-- Each act answers the engine in turn. -/
theorem Act.kept [Ptt P] {d d' : Desk P} (act : Act d d') (kept : d.Kept d.Fit) : d'.Kept d'.Fit := by
  cases act with
  | hand tx =>
    refine kept.next rfl fun owed fit books => fun _ => ⟨trivial, fit.same rfl rfl rfl rfl rfl rfl, ?_, books.rendered⟩
    change (d.pending ++ [Outgoing.link tx]).filterMap Outgoing.link? = owed.waiting ++ [tx]
    rw [List.filterMap_append, books.waiting]
    rfl
  | put next own =>
    exact kept.become (.nothing rfl) (Desk.filterMap_put (Desk.link_own next own)) rfl fun fit => fit.same rfl rfl rfl rfl rfl rfl
  | prune keep keeps => exact kept.become (.nothing rfl) (Desk.filterMap_kept Desk.link_own keeps) rfl fun fit => fit.same rfl rfl rfl rfl rfl rfl
  | await head deadline =>
    refine kept.become (.nothing rfl) ?_ rfl fun fit => fit.same rfl rfl rfl rfl rfl rfl
    rw [head]
    rfl
  | resume head => exact kept.become (.nothing rfl) (Desk.filterMap_head head (by rfl)) rfl fun fit => fit.same rfl rfl rfl rfl rfl rfl
  | refuse resting head own =>
    exact kept.become (.one rfl rfl) (Desk.filterMap_head head (Desk.link_own _ own)) rfl fun fit =>
      .silent (resting.keying fit) (resting.noTest fit) resting.silent
  | refuseLink resting head =>
    rename_i tx rest
    have sent : Desk.Kept d.Fit ((({ d with pending := rest, authorized := false } : Desk P).tell [.refused (.link tx)]).tell
        [.answered (some tx) .dropped]) := kept.unsent head resting.keying rfl rfl .dropped rfl fun _ member =>
      List.mem_singleton.mp member ▸ rfl
    exact sent.mono fun fit => .silent (resting.keying fit) (resting.noTest fit) resting.silent
  | refuseDatagram resting head =>
    rename_i frames reference last rest
    have reports := Desk.reports_refuseBurst (({ d with pending := rest, authorized := false } : Desk P).tell
      [.refused (.datagram frames reference last)]) reference last
    have first : Desk.Kept d.Fit (({ d with pending := rest, authorized := false } : Desk P).tell
      [.refused (.datagram frames reference last)]) := kept.elsewhere (.one rfl rfl) (Desk.filterMap_head head (by rfl)) rfl
    refine (first.reports reports).mono fun fit => Desk.Fit.silent ?_ ?_ ?_ <;> rw [reports.frame]
    · exact resting.keying fit
    · exact resting.noTest fit
    · exact resting.silent
  | dropLinks free =>
    refine (kept.dropLinks fun fit => ?_).mono fun fit => fit.same rfl rfl rfl rfl rfl rfl
    rcases free with resting | quiet | ⟨-, test⟩
    · exact resting.keying fit
    · exact quiet
    · exact fit.test test
  | render resting leave head audio keying test sounds keys link linkTest datagramTest =>
    exact kept.take resting head keys link linkTest rfl
  | unrendered resting leave head other =>
    exact kept.become (.two (List.append_assoc ..) rfl rfl) (Desk.filterMap_head head (Desk.link_other other)) rfl fun fit =>
      .silent (resting.keying fit) (resting.noTest fit) resting.silent
  | unrenderedLink resting leave is head outcome =>
    rename_i rest tx
    have sent : Desk.Kept d.Fit ((((d.take (.link tx) rest).tell [.judged leave]).tell [.unrendered (.link tx)]).tell
        [.answered (some tx) outcome]) := by
      refine kept.unsent head resting.keying rfl rfl outcome (l := [.judged leave, .unrendered (.link tx)]) ?_ fun e member => ?_
      · exact congrArg (· ++ _) (List.append_assoc ..)
      · rcases List.mem_cons.mp member with rfl | member
        · rfl
        · exact List.mem_singleton.mp member ▸ rfl
    exact sent.mono fun fit => .silent (resting.keying fit) (resting.noTest fit) resting.silent
  | keyUp waiting now radiatesAt latest obeyed inTime =>
    exact kept.become (.one rfl rfl) rfl rfl fun fit => ⟨fun _ => .inl rfl, fit.test, nofun⟩
  | keyLate waiting keys now radiatesAt latest obeyed late_ =>
    have told : Desk.Kept d.Fit ((d.keyAt now).tell [.keyed radiatesAt latest]) := kept.elsewhere (.one rfl rfl) rfl rfl
    have gone : Desk.Kept d.Fit (((d.keyAt now).tell [.keyed radiatesAt latest]).release.fallSilent) :=
      told.elsewhere (.one rfl rfl) rfl rfl
    refine (gone.answer .dropped).mono fun fit => Desk.Fit.silent (Desk.answer_keying ..) ?_ ?_ <;> rw [Desk.answer_frame]
    · exact fit.noTest keys
    · rfl
  | keyStuck waiting now radiatesAt latest obeyed late_ =>
    have told : Desk.Kept d.Fit ((d.keyAt now).tell [.keyed radiatesAt latest]) := kept.elsewhere (.one rfl rfl) rfl rfl
    have gone : Desk.Kept d.Fit { ((d.keyAt now).tell [.keyed radiatesAt latest]).release with failed := true } :=
      told.elsewhere (.one rfl rfl) rfl rfl
    exact gone.mono fun fit => fit.failed rfl rfl rfl
  | keyRefused waiting now => exact kept.become (.one rfl rfl) rfl rfl fun fit => fit.failed rfl rfl rfl
  | play on well count =>
    exact kept.become (.one rfl rfl) rfl rfl fun fit =>
      ⟨fun _ => .inl on, fit.test, fun _ down => absurd (down.symm.trans on) Bool.false_ne_true⟩
  | finish on silent sent =>
    have released : Desk.Kept d.Fit d.finished.release := kept.elsewhere (.one rfl rfl) rfl rfl
    have reports := Desk.reports_land d.finished.release sent
    refine ((released.reports reports).answer .done).mono fun fit => Desk.Fit.silent (Desk.answer_keying ..) ?_ ?_ <;>
      rw [Desk.answer_frame, reports.frame]
    · rfl
    · exact silent
  | finishStuck on silent =>
    exact kept.become (.one rfl rfl) rfl rfl fun fit => ⟨fun _ => .inr (.inr rfl), nofun, nofun⟩
  | cut on test outcome =>
    have silent : Desk.Kept d.Fit d.fallSilent := kept.same rfl rfl rfl
    refine ((silent.answer outcome).dropLinks fun _ => Desk.answer_keying ..).mono fun fit =>
      Desk.Fit.silent (Desk.answer_keying ..) ?_ ?_
    · change (d.fallSilent.answer outcome).playingTest = false
      rw [Desk.answer_frame]
      exact test
    · change (d.fallSilent.answer outcome).playback = []
      rw [Desk.answer_frame]
      rfl
  | discard quiet keys =>
    have silent : Desk.Kept d.Fit d.fallSilent := kept.same rfl rfl rfl
    refine (silent.answer .dropped).mono fun fit => Desk.Fit.silent (Desk.answer_keying ..) ?_ ?_ <;> rw [Desk.answer_frame]
    · exact fit.noTest keys
    · rfl
  | pollStuck now => exact kept.become (.one rfl rfl) rfl rfl fun fit => fit.failed rfl rfl rfl
  | trip now outcome =>
    let polled : Desk P := { d with ptt := (d.ptt.poll now).2 }.tell [.released true]
    let told := polled.tell [.tripped d.playingTest (d.onAir.isSome || d.pending.any Outgoing.isDatagram)]
    have first : Desk.Kept d.Fit polled := kept.elsewhere (.one rfl rfl) rfl rfl
    have tripped : Desk.Kept (d.playingTest = false) told.fallSilent :=
      first.next rfl fun owed _ books => fun test => ⟨trivial, test, books.waiting, books.rendered⟩
    have dropped := (tripped.answer outcome).dropLinks fun _ => Desk.answer_keying ..
    have gone : Desk.Kept (d.playingTest = false) (d.trip now outcome) :=
      dropped.elsewhere (.one rfl rfl) (Desk.filterMap_notLinks _).symm rfl
    have frame := told.fallSilent.answer_frame outcome
    refine gone.mono fun test => Desk.Fit.silent (Desk.answer_keying told.fallSilent outcome) ?_ ?_
    · change (told.fallSilent.answer outcome).playingTest = false
      rw [frame]
      exact test
    · change (told.fallSilent.answer outcome).playback = []
      rw [frame]
      rfl
  | cardDrop on =>
    have told : Desk.Kept d.Fit (d.tell [.cardDropped d.onAir.isSome]) := kept.tells rfl
    have gone : Desk.Kept d.Fit d.cardDrop := (told.answer .dropped).elsewhere (.one rfl rfl) rfl rfl
    exact gone.mono fun _ => .silent (Desk.answer_keying (d.tell [.cardDropped d.onAir.isSome]) .dropped) rfl rfl
  | abandon outcome =>
    have begun : Desk.Kept d.Fit ({ d with failed := false } : Desk P) := kept.same rfl rfl rfl
    have dropped := (begun.answer outcome).dropLinks fun _ => Desk.answer_keying ..
    have silent : Desk.Kept d.Fit (Desk.answer { d with failed := false } outcome).dropLinks.fallSilent :=
      dropped.same rfl rfl rfl
    have landed := Desk.reports_land (Desk.answer { d with failed := false } outcome).dropLinks.fallSilent false
    have emptied : Desk.Kept d.Fit
        { (Desk.answer { d with failed := false } outcome).dropLinks.fallSilent.land false with pending := [] } := by
      refine (silent.reports landed).same rfl ?_ rfl
      rw [landed.frame]
      exact (Desk.filterMap_notLinks _).symm
    have refused := Desk.reports_refuseAll
      { (Desk.answer { d with failed := false } outcome).dropLinks.fallSilent.land false with pending := [] }
      ((Desk.answer { d with failed := false } outcome).dropLinks.fallSilent.land false).pending
    have gone : Desk.Kept d.Fit (Desk.abandon { d with failed := false } outcome) :=
      (emptied.reports refused).elsewhere (.one rfl rfl) rfl rfl
    have keying := Desk.answer_keying { d with failed := false } outcome
    refine gone.mono fun _ => Desk.Fit.silent ?_ rfl ?_
    · change (Desk.refuseAll _ _).keying = false
      rw [refused.frame]
      change (Desk.land _ _).keying = false
      rw [landed.frame]
      exact keying
    · change (Desk.refuseAll _ _).playback = []
      rw [refused.frame]
      change (Desk.land _ _).playback = []
      rw [landed.frame]
      rfl
  | unjudged sounds quiet none_ well =>
    exact kept.become (.nothing rfl) rfl rfl fun fit =>
      absurd (none_.symm.trans (fit.leave well quiet sounds)) Bool.false_ne_true
  | stopTest test => exact kept.become (.nothing rfl) rfl rfl fun fit => .silent (fit.test test) rfl rfl
  | accept datagram bursts =>
    refine kept.become ⟨_, rfl, fun e member => ?_⟩ rfl rfl fun fit => fit.same rfl rfl rfl rfl rfl rfl
    obtain ⟨reference, -, rfl⟩ := Option.map_eq_some_iff.mp (Option.mem_toList.mp member)
    rfl
  | feed resting empty queued =>
    unfold Desk.feed
    split
    · exact kept.become (.nothing rfl) rfl rfl fun fit => fit.same rfl rfl rfl rfl rfl rfl
    · exact kept.become (.nothing rfl) (Desk.filterMap_put rfl) rfl fun fit => fit.same rfl rfl rfl rfl rfl rfl
  | clear =>
    have told : Desk.Kept d.Fit (({ d with queue := [] } : Desk P).tell [.cleared (d.pending.any Outgoing.earlier)]) :=
      kept.elsewhere (.one rfl rfl) rfl rfl
    have reports := Desk.reports_reportAll (({ d with queue := [] } : Desk P).tell [.cleared (d.pending.any Outgoing.earlier)]) d.queue
    refine (told.reports reports).mono fun fit => ?_
    unfold Desk.clear
    rw [reports.frame]
    exact fit.same rfl rfl rfl rfl rfl rfl

/-! ### Runs -/

section
variable [Ptt P] [Libm] (config : StationConfig) (engine : Link.Engine) (ptt : P) (policy : Regulatory.Policy)
  (occupancy : Option Regulatory.AirOccupancy) (seed : UInt64)

omit [Ptt P] [Libm] in
theorem Station.new_kept : let d := (Station.new config engine ptt policy occupancy seed).desk; d.Kept d.Fit :=
  ⟨.silent rfl rfl rfl, rfl, rfl⟩

/-- Whatever a station is told and hears, the engine is told once of each transmission it handed
over, in that order; what it was not told of is still queued, or rendered and on its way out. -/
theorem Station.answered_in_turn (steps : List Step) :
    let s := (Station.new config engine ptt policy occupancy seed).run steps
    answering.Keeps (fun owed => s.linksPending = owed.waiting ∧ s.keying.isSome = owed.rendered.isSome ∧
      (owed.rendered.isSome = true → s.transmitting = true ∨ s.playback ≠ [])) {} s.log := by
  intro s
  have kept := Acts.keep (I := fun d => d.Kept d.Fit) (fun _ _ => Act.kept) (Station.run_acts steps)
    (Station.new_kept config engine ptt policy occupancy seed)
  refine Monitor.Keeps.mono kept fun owed ⟨fit, books⟩ => ⟨books.waiting, books.rendered, fun current => ?_⟩
  rcases fit.busy (.inl (books.rendered.trans current)) with on | sounds | failed
  · exact .inl on
  · exact .inr sounds
  · cases failed

end

end AetherHF.Radio

import Mathlib.Data.List.Induction
import AetherHF.Link.Assembly
import AetherHF.Link.Granted.StreamHandle

/-! What a station is given to send goes to the station it was given for: the bytes of
every data frame are of those given since the last session ended, and those are all
for the station of the session, as long as no other station's call is taken while
bytes for the one being called are waiting. -/
namespace AetherHF.Link

/-! ### What is seen of a station -/

/-- Bytes given a station, under the station they were given for if there was one, and
what it does. -/
inductive Seen where
  | given (for_ : Option Text) (data : Bytes)
  | did (action : Action)
  deriving DecidableEq

namespace Seen

def held (before : List (UInt8 × Option Text)) : Seen → List (UInt8 × Option Text)
  | .given for_ data => before ++ data.map fun byte => (byte, for_)
  | .did (.event (.disconnected _)) => []
  | .did _ => before

def peer (before : Option Text) : Seen → Option Text
  | .did (.event (.connected remote _)) => some remote
  | .did (.event (.disconnected _)) => none
  | _ => before

end Seen

/-- The bytes given since the last session ended, each under the station it was for. -/
def given (seen : List Seen) : List (UInt8 × Option Text) := seen.foldl Seen.held []

/-- The other station of the session that is up. -/
def partner (seen : List Seen) : Option Text := seen.foldl Seen.peer none

/-- The data frames of a transmission carry bytes given before it, and all bytes given
since the last session are for the station of this one, or for none. -/
def SentTo (seen : List Seen) (t : Transmit) : Prop :=
  ∀ f ∈ t.frames, f.container = .data → ∀ header body, decodeData f.payload = .ok (header, body) →
    header.kind = .data → ∃ who, partner seen = some who ∧ body <:+: (given seen).map Prod.fst ∧
      ∀ p ∈ given seen, p.2 = none ∨ p.2 = some who

/-- So does every transmission seen. -/
def Addressed (seen : List Seen) : Prop :=
  ∀ before t after, seen = before ++ .did (.transmit t) :: after → SentTo before t

/-- A station, and what was seen of it. -/
structure Station where
  engine : Engine
  seen : List Seen := []

/-- The station bytes given now are for. -/
def Engine.calls (e : Engine) : Option Text := if e.state = .idle then none else some e.remoteCall

namespace Station

def givenBy (e : Engine) : Input → List Seen
  | .send data => [.given e.calls data]
  | _ => []

/-- One call of the engine's, and its actions taken. -/
def call [Libm] (s : Station) (input : Input) : Station :=
  let (actions, engine) := (s.engine.handle input).drain
  { engine, seen := s.seen ++ givenBy s.engine input ++ actions.map .did }

def run [Libm] (s : Station) (inputs : List Input) : Station := inputs.foldl call s

def new (myCall : Text) (timing : PhyTiming) (config : GrantConfig) (seed : UInt64) : Station :=
  { engine := .new myCall timing config seed }

/-- No other station's call is taken while bytes for the station being called wait. -/
def KeepsCall (s : Station) (input : Input) : Prop :=
  ∀ was who, (s.engine.brings input).caller was who → who = was ∨ ∀ p ∈ given s.seen, p.2 = none

/-- Nor is it in any step of a run. -/
def KeepsCalls [Libm] : Station → List Input → Prop
  | _, [] => True
  | s, input :: rest => s.KeepsCall input ∧ (s.call input).KeepsCalls rest

end Station

/-! ### What is seen, step by step -/

section

variable (seen : List Seen)

@[simp] theorem given_snoc (x : Seen) : given (seen ++ [x]) = x.held (given seen) := by
  simp [given, List.foldl_append]

@[simp] theorem partner_snoc (x : Seen) : partner (seen ++ [x]) = x.peer (partner seen) := by
  simp [partner, List.foldl_append]

/-- Something seen that neither gives bytes nor turns a session. -/
def Seen.Still (x : Seen) : Prop := (∀ before, x.held before = before) ∧ ∀ before, x.peer before = before

theorem Seen.still_event {event : Event} (other : event.turns = false) :
    (Seen.did (.event event)).Still := by
  cases event <;> first | exact ⟨fun _ => rfl, fun _ => rfl⟩ | cases other

theorem given_still {new : List Seen} (still : ∀ x ∈ new, x.Still) : given (seen ++ new) = given seen := by
  induction new using List.reverseRecOn with
  | nil => rw [List.append_nil]
  | append_singleton new x ih =>
    rw [← List.append_assoc, given_snoc, (still x (by simp)).1]
    exact ih fun y member => still y (by simp [member])

theorem partner_still {new : List Seen} (still : ∀ x ∈ new, x.Still) :
    partner (seen ++ new) = partner seen := by
  induction new using List.reverseRecOn with
  | nil => rw [List.append_nil]
  | append_singleton new x ih =>
    rw [← List.append_assoc, partner_snoc, (still x (by simp)).2]
    exact ih fun y member => still y (by simp [member])

/-- What a station does gives it no bytes. -/
theorem given_did (actions : List Action) : ∀ p ∈ given (seen ++ actions.map .did), p ∈ given seen := by
  induction actions using List.reverseRecOn with
  | nil => simp
  | append_singleton actions action ih =>
    intro p member
    rw [List.map_append, ← List.append_assoc, List.map_singleton, given_snoc] at member
    cases action with
    | event event =>
      cases event with
      | disconnected => cases member
      | _ => exact ih p member
    | _ => exact ih p member

theorem addressed_snoc {x : Seen} (addressed : Addressed seen)
    (sent : ∀ t, x = .did (.transmit t) → SentTo seen t) : Addressed (seen ++ [x]) := by
  intro before t after split
  rcases List.eq_nil_or_concat after with rfl | ⟨after', y, rfl⟩
  · obtain ⟨rfl, here⟩ := List.append_inj' split rfl
    exact sent t (by simpa using here)
  · have apart : seen ++ [x] = before ++ .did (.transmit t) :: after' ++ [y] := by simpa using split
    obtain ⟨rfl, _⟩ := List.append_inj' apart rfl
    exact addressed before t after' (by simp)

theorem addressed_event {event : Event} (addressed : Addressed seen) :
    Addressed (seen ++ [.did (.event event)]) :=
  addressed_snoc _ addressed fun _ same => absurd same (by simp)

theorem addressed_append {new : List Seen} (addressed : Addressed seen)
    (none_ : ∀ t, Seen.did (.transmit t) ∉ new) : Addressed (seen ++ new) := by
  induction new using List.reverseRecOn with
  | nil => rwa [List.append_nil]
  | append_singleton new x ih =>
    rw [← List.append_assoc]
    refine addressed_snoc _ (ih fun t member => none_ t (by simp [member])) ?_
    rintro t rfl
    exact absurd (by simp) (none_ t)

end

/-! ### The invariant -/

/-- The records and the queue hold bytes given since the last session ended, and those
are for the station of the call or session there is. -/
structure Keeps (e : Engine) (seen : List Seen) : Prop where
  owned : ∀ p ∈ given seen, p.2 = none ∨ e.state ≠ .idle ∧ p.2 = some e.remoteCall
  met : e.state.inSession = true → partner seen = some e.remoteCall
  queue : e.tx.queue <:+ (given seen).map Prod.fst
  records : ∀ r ∈ e.tx.records, r.body <:+: (given seen).map Prod.fst
  parts : ∀ r ∈ e.tx.records, ∀ parts, r.pieces = some parts → ∀ p ∈ parts, p.2 <:+: r.body
  addressed : Addressed seen

theorem SplitOf.part_inside {room start : Nat} {body : Bytes} {parts : List (Piece × Bytes)}
    (split : SplitOf room start body parts) : ∀ p ∈ parts, p.2 <:+: body := by
  intro p member
  rw [← split.joined]
  exact List.infix_of_mem_flatten (List.mem_map_of_mem member)

theorem Reworked.part_inside {r r' : TxRecord} (again : r.Reworked r')
    (parts : ∀ parts, r.pieces = some parts → ∀ p ∈ parts, p.2 <:+: r.body) :
    ∀ parts, r'.pieces = some parts → ∀ p ∈ parts, p.2 <:+: r'.body := by
  rw [again.body]
  intro found here
  rcases again.pieces with same | none_ | ⟨capacity, made, split, is⟩
  · exact parts found (same ▸ here)
  · rw [none_] at here
    cases here
  · rw [is] at here
    cases here
    exact (pieces_splitOf split).part_inside

theorem forall₂_mem_right {α β : Type*} {R : α → β → Prop} {xs : List α} {ys : List β}
    (all : List.Forall₂ R xs ys) {y : β} (member : y ∈ ys) : ∃ x ∈ xs, R x y := by
  obtain ⟨x, inside, related⟩ := forall₂_mem all.flip member
  exact ⟨x, inside, related⟩

namespace Keeps

variable {e e' : Engine} {seen : List Seen}

/-- The frames handed over say what the invariant says of the records. -/
theorem sentTo (keeps : Keeps e seen) {t : Transmit} (frames : ∀ f ∈ t.frames, FrameOf e f) :
    SentTo seen t := by
  intro f member container header body read kind
  cases frames f member with
  | acknowledging control => rw [container] at control; cases control
  | closing control => rw [container] at control; cases control
  | opening _ kinds encoded =>
    rw [decodeData_of_encodeData encoded] at read
    cases read
    exact absurd kind kinds.1
  | data _ up data =>
    refine ⟨e.remoteCall, keeps.met up, ?_, fun p given => (keeps.owned p given).imp_right And.right⟩
    cases data with
    | whole member encoded =>
      rw [decodeData_of_encodeData encoded] at read
      cases read
      exact keeps.records _ member
    | piece member split part encoded =>
      rw [decodeData_of_encodeData encoded] at read
      cases read
      exact (keeps.parts _ member _ split _ part).trans (keeps.records _ member)
    | measurement encoded =>
      rw [decodeData_of_encodeData encoded] at read
      cases read
      cases kind

/-- The streams as they were. -/
theorem kept (keeps : Keeps e seen) (kept : Kept e e') {new : List Seen}
    (same : given (seen ++ new) = given seen)
    (owned : ∀ p : UInt8 × Option Text, p.2 = none ∨ e.state ≠ .idle ∧ p.2 = some e.remoteCall →
      p.2 = none ∨ e'.state ≠ .idle ∧ p.2 = some e'.remoteCall)
    (met : e'.state.inSession = true → partner (seen ++ new) = some e'.remoteCall)
    (addressed : Addressed (seen ++ new)) : Keeps e' (seen ++ new) where
  owned p member := owned p (keeps.owned p (same ▸ member))
  met := met
  queue := by
    rw [same, kept.queue]
    exact keeps.queue
  records r member := by
    obtain ⟨q, inside, again⟩ := forall₂_mem_right kept.records member
    rw [same, again.body]
    exact keeps.records q inside
  parts r member := by
    obtain ⟨q, inside, again⟩ := forall₂_mem_right kept.records member
    exact Reworked.part_inside again (keeps.parts q inside)
  addressed := addressed

/-- Nor does anything seen say of bytes or sessions. -/
theorem still (keeps : Keeps e seen) (still : Still e e') {new : List Seen} (news : ∀ x ∈ new, x.Still)
    (addressed : Addressed (seen ++ new)) : Keeps e' (seen ++ new) := by
  refine keeps.kept still.toKept (given_still _ news) (fun p owned => ?_) (fun up => ?_) addressed
  · exact owned.imp_right fun owned =>
      ⟨fun idle => owned.1 (still.idle.mp idle), still.remote ▸ owned.2⟩
  · rw [partner_still _ news, still.remote]
    exact keeps.met (still.inSession ▸ up)

/-- A stream begun anew, with the bytes that waited for it. -/
theorem blank (keeps : Keeps e seen) (blank : e'.Blank) (queue : e'.tx.queue = e.tx.queue)
    (owned : ∀ p ∈ given seen, p.2 = none ∨ e'.state ≠ .idle ∧ p.2 = some e'.remoteCall)
    {new : List Seen} (same : given (seen ++ new) = given seen)
    (met : e'.state.inSession = true → partner (seen ++ new) = some e'.remoteCall)
    (addressed : Addressed (seen ++ new)) : Keeps e' (seen ++ new) where
  owned := same ▸ owned
  met := met
  queue := by
    rw [same, queue]
    exact keeps.queue
  records r member := by
    rw [blank.records] at member
    cases member
  parts r member := by
    rw [blank.records] at member
    cases member
  addressed := addressed

theorem leave {reason : Reason} (keeps : Keeps e seen) (idle : e'.state = .idle) (queue : e'.tx.queue = [])
    (blank : e'.Blank) : Keeps e' (seen ++ [.did (.event (.disconnected reason))]) where
  owned p member := by
    rw [given_snoc] at member
    cases member
  met up := absurd idle (inSession_busy up)
  queue := by
    rw [queue]
    exact List.nil_suffix
  records r member := by
    rw [blank.records] at member
    cases member
  parts r member := by
    rw [blank.records] at member
    cases member
  addressed := addressed_event _ keeps.addressed

theorem cut (keeps : Keeps e seen) (rung take : Nat) : Keeps { e with tx := e.tx.cut rung take } seen where
  owned := keeps.owned
  met := keeps.met
  queue := (List.drop_suffix take _).trans keeps.queue
  records r member := by
    rcases List.mem_append.mp member with old | new
    · exact keeps.records r (List.mem_of_mem_filter old)
    · cases List.mem_singleton.mp new
      exact (List.take_prefix take _).isInfix.trans keeps.queue.isInfix
  parts r member := by
    rcases List.mem_append.mp member with old | new
    · exact keeps.parts r (List.mem_of_mem_filter old)
    · cases List.mem_singleton.mp new
      exact fun _ none_ => by cases none_
  addressed := keeps.addressed

theorem ack (keeps : Keeps e seen) (ctl : GrantFrame) : Keeps (e.applyAck ctl) seen where
  owned := keeps.owned
  met := keeps.met
  queue := by
    rw [e.applyAck_queue]
    exact keeps.queue
  records r member := by
    obtain ⟨q, inside, body, _⟩ := e.applyAck_records member
    rw [body]
    exact keeps.records q inside
  parts r member := by
    obtain ⟨q, inside, body, pieces⟩ := e.applyAck_records member
    rw [body, pieces]
    exact keeps.parts q inside
  addressed := keeps.addressed

theorem delivers (keeps : Keeps e seen) {ready : List Bytes} (delivers : Engine.Delivers e e' ready) :
    Keeps e' (seen ++ (ready.map Action.deliver).map .did) := by
  have news : ∀ x ∈ (ready.map Action.deliver).map Seen.did, x.Still ∧ ∀ t, x ≠ .did (.transmit t) := by
    intro x member
    obtain ⟨data, _, rfl⟩ := List.mem_map.mp (List.map_map ▸ member)
    exact ⟨⟨fun _ => rfl, fun _ => rfl⟩, nofun⟩
  have still : ∀ x ∈ (ready.map Action.deliver).map Seen.did, x.Still := fun x member => (news x member).1
  refine ⟨?_, ?_, ?_, ?_, ?_, addressed_append _ keeps.addressed fun t member => (news _ member).2 t rfl⟩
  · rw [given_still _ still, delivers.state, delivers.remote]
    exact keeps.owned
  · rw [partner_still _ still, delivers.state, delivers.remote]
    exact keeps.met
  · rw [given_still _ still, delivers.tx]
    exact keeps.queue
  · rw [given_still _ still, delivers.tx]
    exact keeps.records
  · rw [delivers.tx]
    exact keeps.parts

theorem micro {b : Brought} (keeps : Keeps e (seen ++ e.actions.map .did)) (step : Micro b e e')
    (nothing : ∀ data, ¬b.bytes data)
    (kept : ∀ was who, b.caller was who → who = was ∨ ∀ p ∈ given seen, p.2 = none) :
    Keeps e' (seen ++ e'.actions.map .did) := by
  cases step with
  | quiet quiet =>
    rw [quiet.actions]
    have later := keeps.still quiet.toStill (List.forall_mem_nil _) (by simpa using keeps.addressed)
    rwa [List.append_nil] at later
  | tell still event other actions =>
    rw [actions, List.map_append, ← List.append_assoc, List.map_singleton]
    refine keeps.still still (fun x member => ?_) (addressed_event _ keeps.addressed)
    cases List.mem_singleton.mp member
    exact Seen.still_event other
  | transmit still t frames actions =>
    rw [actions, List.map_append, ← List.append_assoc, List.map_singleton]
    refine keeps.still still (fun x member => ?_) (addressed_snoc _ keeps.addressed ?_)
    · cases List.mem_singleton.mp member
      exact ⟨fun _ => rfl, fun _ => rfl⟩
    · rintro t' same
      cases same
      exact keeps.sentTo frames
  | give data given => exact absurd given (nothing data)
  | cut rung take => exact keeps.cut rung take
  | ack ctl => exact keeps.ack ctl
  | accept payload header body late =>
    obtain ⟨ready, delivers⟩ := e.acceptData_delivers header body late
    rw [delivers.actions, List.map_append, ← List.append_assoc]
    exact keeps.delivers delivers
  | leave reason idle remote queue blank _ actions =>
    rw [actions, List.map_append, ← List.append_assoc, List.map_singleton]
    exact keeps.leave idle queue blank
  | call idle calling queue blank _ actions =>
    rw [actions]
    have later := keeps.blank blank queue (fun p member => ?_) (congrArg given (List.append_nil _))
      (fun up => by rw [calling] at up; cases up) (by simpa using keeps.addressed)
    · rwa [List.append_nil] at later
    · exact .inl ((keeps.owned p member).resolve_right fun owned => owned.1 idle)
  | up moved calling up role actions =>
    rw [actions, List.map_append, ← List.append_assoc, List.map_singleton]
    have busy : e.state ≠ .idle := by simp [calling]
    refine keeps.kept moved (given_snoc _ _) (fun p owned => ?_) (fun _ => partner_snoc _ _)
      (addressed_event _ keeps.addressed)
    exact owned.imp_right fun owned => ⟨inSession_busy up, moved.remote ▸ owned.2⟩
  | called outside while_ up queue blank _ role actions =>
    rw [actions, List.map_append, ← List.append_assoc, List.map_singleton]
    refine keeps.blank blank queue (fun p member => ?_) (given_snoc _ _) (fun _ => partner_snoc _ _)
      (addressed_event _ keeps.addressed)
    rcases keeps.owned p member with none_ | ⟨busy, owned⟩
    · exact .inl none_
    · have calling : e.state = .connecting := by
        cases state : e.state with
        | connecting => rfl
        | idle => exact absurd state busy
        | connected => rw [state] at outside; cases outside
        | disconnecting => rw [state] at outside; cases outside
      rcases kept _ _ (while_ calling) with same | none_
      · exact .inr ⟨inSession_busy up, same ▸ owned⟩
      · exact .inl (none_ p (given_did _ _ p member))

theorem moves {b : Brought} (keeps : Keeps e (seen ++ e.actions.map .did)) (moves : Moves b e e')
    (nothing : ∀ data, ¬b.bytes data)
    (kept : ∀ was who, b.caller was who → who = was ∨ ∀ p ∈ given seen, p.2 = none) :
    Keeps e' (seen ++ e'.actions.map .did) := by
  induction moves with
  | refl => exact keeps
  | tail _ step ih => exact ih.micro step nothing kept

theorem drained (keeps : Keeps e seen) : Keeps e.drain.2 seen :=
  ⟨keeps.owned, keeps.met, keeps.queue, keeps.records, keeps.parts, keeps.addressed⟩

/-- Bytes given are for the station of the call or session there is. -/
theorem give (keeps : Keeps e seen) (data : Bytes) :
    Keeps { e with tx := { e.tx with queue := e.tx.queue ++ data } } (seen ++ [.given e.calls data]) where
  owned p member := by
    rw [given_snoc] at member
    rcases List.mem_append.mp member with old | new
    · exact keeps.owned p old
    · obtain ⟨byte, _, rfl⟩ := List.mem_map.mp new
      by_cases idle : e.state = .idle
      · exact .inl (if_pos idle)
      · exact .inr ⟨idle, if_neg idle⟩
  met up := by
    rw [partner_snoc]
    exact keeps.met up
  queue := by
    obtain ⟨before, split⟩ := keeps.queue
    refine ⟨before, ?_⟩
    rw [given_snoc]
    simp [Seen.held, ← split, List.map_map, Function.comp_def]
  records r member := by
    obtain ⟨before, after, split⟩ := keeps.records r member
    refine ⟨before, after ++ data, ?_⟩
    rw [given_snoc]
    simp [Seen.held, ← split, List.map_map, Function.comp_def]
  parts := keeps.parts
  addressed := addressed_snoc _ keeps.addressed fun _ same => absurd same (by simp)

end Keeps

theorem Engine.drain_fst (e : Engine) : e.drain.1 = e.actions := rfl

namespace Station

theorem keeps_new (myCall : Text) (timing : PhyTiming) (config : GrantConfig) (seed : UInt64) :
    Keeps (new myCall timing config seed).engine (new myCall timing config seed).seen where
  owned _ member := by cases member
  met up := by cases up
  queue := List.nil_suffix
  records _ member := by cases member
  parts _ member := by cases member
  addressed before t after split := by
    cases before <;> cases split

section

variable [Libm]

theorem keeps_call {s : Station} (drained : s.engine.actions = []) (keeps : Keeps s.engine s.seen)
    {input : Input} (kept : s.KeepsCall input) : Keeps (s.call input).engine (s.call input).seen := by
  have start : Keeps s.engine (s.seen ++ s.engine.actions.map .did) := by simpa [drained] using keeps
  have others (nothing : givenBy s.engine input = []) (undrained : input ≠ .drain)
      (bytes : ∀ data, ¬(s.engine.brings input).bytes data) :
      Keeps (s.call input).engine (s.call input).seen := by
    have done := start.moves (s.engine.handle_moves input undrained) bytes kept
    simpa [call, nothing, Engine.drain_fst] using done.drained
  cases input with
  | send data =>
    have given := start.give data
    have spoken : Moves {} { s.engine with tx := { s.engine.tx with queue := s.engine.tx.queue ++ data } }
        (s.engine.send data) := Engine.speakUp_moves _ _
    have empty : (s.seen ++ s.engine.actions.map Seen.did) = s.seen := by simp [drained]
    rw [empty] at given
    have before : Keeps { s.engine with tx := { s.engine.tx with queue := s.engine.tx.queue ++ data } }
        ((s.seen ++ [.given s.engine.calls data]) ++ s.engine.actions.map .did) := by
      simpa [drained] using given
    have done := before.moves spoken (fun _ none_ => none_) (fun _ _ none_ => none_.elim)
    simpa [call, givenBy, Engine.handle, Engine.drain_fst] using done.drained
  | drain => simpa [call, givenBy, Engine.handle, Engine.drain] using keeps.drained
  | _ => exact others rfl nofun fun _ none_ => none_

theorem call_drained (s : Station) (input : Input) : (s.call input).engine.actions = [] := rfl

theorem keeps_run {s : Station} (drained : s.engine.actions = []) (keeps : Keeps s.engine s.seen)
    {inputs : List Input} (kept : s.KeepsCalls inputs) : Keeps (s.run inputs).engine (s.run inputs).seen := by
  induction inputs generalizing s with
  | nil => exact keeps
  | cons input rest ih => exact ih (s.call_drained input) (keeps_call drained keeps kept.1) kept.2

/-- Bytes given for one station never go to another, in every run in which no other
station's call is taken while bytes for the one being called wait. -/
theorem run_addressed (myCall : Text) (timing : PhyTiming) (config : GrantConfig) (seed : UInt64)
    (inputs : List Input) (kept : (new myCall timing config seed).KeepsCalls inputs) :
    Addressed ((new myCall timing config seed).run inputs).seen :=
  (keeps_run rfl (keeps_new _ _ _ _) kept).addressed

end

open Coarse in
/-- Bytes are given while a call is out, and no call is taken: they go nowhere else. -/
theorem run_addressed_calling :
    Addressed ((new ['A', 'A', '1', 'A'] .oneRung {} 1).run
      [.connect ['C', 'C', '1', 'C'] none, .send [1, 2, 3], .tick 60]).seen :=
  run_addressed _ _ _ _ _ ⟨fun _ _ none_ => none_.elim, fun _ _ none_ => none_.elim,
    fun _ _ none_ => none_.elim, trivial⟩

/-! ### A call taken while another is out -/

/-- The `i`th thing seen is a data frame of a session with a station that some of the
bytes given were not for. -/
def strays (seen : List Seen) (i : Nat) : Bool :=
  match seen[i]? with
  | some (.did (.transmit t)) =>
    t.frames.any (fun f => f.container = .data &&
      match decodeData f.payload with
      | .ok (header, _) => header.kind = .data
      | .error _ => false) &&
    (partner (seen.take i)).any fun who => (given (seen.take i)).any fun p => p.2.any (· ≠ who)
  | _ => false

theorem strays_not_addressed {seen : List Seen} {i : Nat} (astray : strays seen i = true) :
    ¬Addressed seen := by
  intro addressed
  unfold strays at astray
  split at astray
  · rename_i t here
    obtain ⟨inside, there⟩ := List.getElem?_eq_some_iff.mp here
    have apart : seen = seen.take i ++ .did (.transmit t) :: seen.drop (i + 1) := by
      rw [← there, List.cons_getElem_drop_succ, List.take_append_drop]
    obtain ⟨frames, others⟩ := Bool.and_eq_true_iff.mp astray
    obtain ⟨f, member, data⟩ := List.any_eq_true.mp frames
    obtain ⟨container, read⟩ := Bool.and_eq_true_iff.mp data
    obtain ⟨who, met, wrong⟩ := (Option.any_eq_true _ _).mp others
    obtain ⟨p, among, other⟩ := List.any_eq_true.mp wrong
    obtain ⟨for_, named, differs⟩ := (Option.any_eq_true _ _).mp other
    split at read
    · rename_i header body decoded
      obtain ⟨who', met', _, owned⟩ := addressed _ t _ apart f member (by simpa using container) header
        body decoded (by simpa using read)
      cases met.symm.trans met'
      have other : for_ ≠ who := by simpa using differs
      rcases owned p among with none_ | same
      · exact absurd (named.symm.trans none_) (Option.some_ne_none _)
      · exact other (Option.some.inj (named.symm.trans same))
    · cases read
  · cases astray

/-- A call from `BB1B` to `AA1A`, and the header of its session granting a frame. -/
def strangersCall : Bytes :=
  [33, 0, 7, 0, 19, 8, 39, 2, 0, 0, 0, 0, 4, 23, 1, 0, 0, 0, 0, 0, 12, 127] ++ List.replicate 18 0

def strangersHeader : GrantFrame := { kind := .header, session := 7, n := 1 }

/-- `AA1A` calls `CC1C`, is given bytes, and is called by `BB1B` before an answer. -/
def strayRun : List Input :=
  [.connect ['C', 'C', '1', 'C'] none, .send [1, 2, 3],
    .frame (.clear .data strangersCall 100 101) (1011 / 10),
    .frame (.clear .control strangersHeader.encode 105 (211 / 2)) (1056 / 10)]

open Coarse in
theorem strayRun_not_addressed :
    ¬Addressed ((new ['A', 'A', '1', 'A'] .oneRung {} 1).run strayRun).seen :=
  strays_not_addressed (i := 5) (by decide +kernel)

end Station

end AetherHF.Link

import Mathlib.Data.List.Induction
import Mathlib.Data.List.Forall2
import AetherHF.Base.Stream
import AetherHF.Base.Text

/-! KISS framing: `FEND`, the type byte, the data, `FEND`, with the delimiters inside a
frame escaped. The decoder keeps its state between reads. -/
namespace AetherHF.Kiss

/-- Frame end: delimits frames. -/
def fend : UInt8 := 0xC0
/-- Frame escape: the next byte is a transposed `fend` or `fesc`. -/
def fesc : UInt8 := 0xDB
def tfend : UInt8 := 0xDC
def tfesc : UInt8 := 0xDD

/-- The whole type byte of the command that leaves KISS mode. -/
def Command.return : UInt8 := 0xFF

/-- One frame as the client sent it. -/
structure KissFrame where
  port : UInt8
  command : UInt8
  data : Bytes
  deriving DecidableEq, Repr

/-- Why a frame was dropped. -/
inductive Malformed where
  | badEscape (byte : UInt8)
  | danglingEscape
  | tooLong
  deriving DecidableEq, Repr

/-- What a stream of bytes turned out to hold. -/
inductive Decoded where
  | frame (frame : KissFrame)
  | malformed (reason : Malformed)
  deriving DecidableEq, Repr

/-- Frames out of a byte stream that arrives in pieces. -/
structure Decoder where
  /-- The longest frame taken, type byte included, after unescaping. -/
  limit : Nat
  inFrame : Bool
  /-- The last byte was `fesc`. -/
  escaped : Bool
  /-- This frame is dropped already, and its bytes are skipped. -/
  condemned : Option Malformed
  buffer : Bytes
  deriving DecidableEq, Repr

namespace Decoder

def new (limit : Nat) : Decoder := ⟨limit, false, false, none, []⟩

/-- The frame a type byte and data are. -/
def frameOf (kind : UInt8) (data : Bytes) : KissFrame :=
  if kind = Command.return then ⟨0, Command.return, data⟩ else ⟨kind >>> 4, kind &&& 0x0F, data⟩

/-- The frame that just ended: what it was, or why it is dropped, or nothing if empty. -/
def finish (d : Decoder) : Decoder × Option Decoded :=
  let ended := { d with condemned := none, escaped := false, buffer := [] }
  match d.condemned with
  | some reason => (ended, some (.malformed reason))
  | none =>
    if d.escaped then (ended, some (.malformed .danglingEscape))
    else match d.buffer with
      | [] => (ended, none)
      | kind :: data => (ended, some (.frame (frameOf kind data)))

/-- One more byte of the frame. -/
def keep (d : Decoder) (value : UInt8) : Decoder :=
  if d.limit ≤ d.buffer.length then { d with condemned := some .tooLong, buffer := [] }
  else { d with buffer := d.buffer ++ [value] }

/-- One byte of the stream. -/
def take (d : Decoder) (byte : UInt8) : Decoder × List Decoded :=
  if byte = fend then
    let (d, out) := if d.inFrame then d.finish else (d, none)
    ({ d with inFrame := true }, out.toList)
  else if !d.inFrame || d.condemned.isSome then (d, [])
  else if d.escaped then
    let d := { d with escaped := false }
    if byte = tfend then (d.keep fend, [])
    else if byte = tfesc then (d.keep fesc, [])
    else ({ d with condemned := some (.badEscape byte) }, [])
  else if byte = fesc then ({ d with escaped := true }, [])
  else (d.keep byte, [])

/-- Take the next piece of the stream; every frame it completed, in order. -/
def push (d : Decoder) (bytes : Bytes) : Decoder × List Decoded := Stream.run take d bytes

@[simp] theorem push_nil (d : Decoder) : d.push [] = (d, []) := rfl

theorem push_cons (d : Decoder) (byte : UInt8) (rest : Bytes) :
    d.push (byte :: rest) = (((d.take byte).1.push rest).1, (d.take byte).2 ++ ((d.take byte).1.push rest).2) := rfl

theorem push_append (d : Decoder) (a b : Bytes) :
    d.push (a ++ b) = (((d.push a).1.push b).1, (d.push a).2 ++ ((d.push a).1.push b).2) :=
  Stream.run_append take d a b

end Decoder

def escapeByte (byte : UInt8) : Bytes :=
  if byte = fend then [fesc, tfend] else if byte = fesc then [fesc, tfesc] else [byte]

/-- One frame for the wire, the type byte escaped as well. -/
def encode (port command : UInt8) (data : Bytes) : Bytes :=
  let kind := if command = Command.return then Command.return else ((port &&& 0x0F) <<< 4) ||| (command &&& 0x0F)
  fend :: (kind :: data).flatMap escapeByte ++ [fend]

/-! ### What a run stands for -/

/-- The bytes a run escapes; `none` where an escape is not one. -/
def unescape : Bytes → Option Bytes
  | [] => some []
  | byte :: rest =>
    if byte = fesc then
      match rest with
      | [] => none
      | code :: rest =>
        if code = tfend then (unescape rest).map (fend :: ·)
        else if code = tfesc then (unescape rest).map (fesc :: ·)
        else none
    else (unescape rest).map (byte :: ·)

/-- What a run between two delimiters comes out as. -/
inductive Judged (limit : Nat) (run : Bytes) : Decoded → Prop
  | frame {kind : UInt8} {data : Bytes} : unescape run = some (kind :: data) → 1 + data.length ≤ limit →
      Judged limit run (.frame (Decoder.frameOf kind data))
  | malformed (reason : Malformed) : (∀ bytes, unescape run = some bytes → limit < bytes.length) →
      Judged limit run (.malformed reason)

theorem unescape_plain {byte : UInt8} (plain : byte ≠ fesc) (rest : Bytes) :
    unescape (byte :: rest) = (unescape rest).map (byte :: ·) := by
  rw [unescape.eq_def]
  exact if_neg plain

theorem unescape_append {run bytes : Bytes} (reads : unescape run = some bytes) (more : Bytes) :
    unescape (run ++ more) = (unescape more).map (bytes ++ ·) := by
  fun_induction unescape run generalizing bytes with
  | case1 =>
    obtain rfl := Option.some.inj reads
    simp
  | case2 => cases reads
  | case3 rest ih =>
    obtain ⟨inner, reads', rfl⟩ := Option.map_eq_some_iff.mp reads
    simp [unescape, ih reads', Function.comp_def]
  | case4 rest _ ih =>
    obtain ⟨inner, reads', rfl⟩ := Option.map_eq_some_iff.mp reads
    simp [unescape, ih reads', Function.comp_def, show tfesc ≠ tfend by decide]
  | case5 => cases reads
  | case6 byte rest plain ih =>
    obtain ⟨inner, reads', rfl⟩ := Option.map_eq_some_iff.mp reads
    simp [unescape_plain plain, ih reads', Function.comp_def]

/-- An escape in the middle of a run. -/
theorem unescape_escape {run bytes : Bytes} (reads : unescape run = some bytes) (code : UInt8) (more : Bytes) :
    unescape (run ++ fesc :: code :: more) = if code = tfend then (unescape more).map (bytes ++ fend :: ·)
      else if code = tfesc then (unescape more).map (bytes ++ fesc :: ·) else none := by
  rw [unescape_append reads]
  simp only [unescape, if_true]
  split
  · simp [Function.comp_def]
  · split <;> simp [Function.comp_def]

theorem unescape_escapeByte (byte : UInt8) (rest : Bytes) :
    unescape (escapeByte byte ++ rest) = (unescape rest).map (byte :: ·) := by
  unfold escapeByte
  by_cases end_ : byte = fend
  · rw [if_pos end_, end_]
    simp [unescape]
  · by_cases escape : byte = fesc
    · rw [if_neg end_, if_pos escape, escape]
      simp [unescape, show tfesc ≠ tfend by decide]
    · rw [if_neg end_, if_neg escape]
      exact unescape_plain escape rest

theorem unescape_escaped (bytes : Bytes) : unescape (bytes.flatMap escapeByte) = some bytes := by
  induction bytes with
  | nil => rfl
  | cons byte rest ih => rw [List.flatMap_cons, unescape_escapeByte, ih, Option.map_some]

theorem fend_not_mem_escapeByte (byte : UInt8) : fend ∉ escapeByte byte := by
  unfold escapeByte
  by_cases end_ : byte = fend
  · rw [if_pos end_]
    decide
  · by_cases escape : byte = fesc
    · rw [if_neg end_, if_pos escape]
      decide
    · rw [if_neg end_, if_neg escape]
      simpa using Ne.symm end_

/-! ### What the decoder holds of a run -/

/-- A decoder that has read a run since the last delimiter. -/
inductive Reads (limit : Nat) : Bytes → Decoder → Prop
  | reading {run buffer : Bytes} : unescape run = some buffer → buffer.length ≤ limit →
      Reads limit run ⟨limit, true, false, none, buffer⟩
  | escaped {run buffer : Bytes} : unescape run = some buffer → buffer.length ≤ limit →
      Reads limit (run ++ [fesc]) ⟨limit, true, true, none, buffer⟩
  | condemned {run buffer : Bytes} (reason : Malformed) :
      (∀ more bytes, unescape (run ++ more) = some bytes → limit < bytes.length) → buffer.length ≤ limit → run ≠ [] →
      Reads limit run ⟨limit, true, false, some reason, buffer⟩

variable {limit : Nat} {run : Bytes} {d : Decoder}

theorem Reads.start (limit : Nat) : Reads limit [] ⟨limit, true, false, none, []⟩ := .reading rfl (Nat.zero_le _)

theorem Reads.buffer_le (reads : Reads limit run d) : d.buffer.length ≤ limit := by
  cases reads <;> assumption

/-- One more byte, kept or one too many. -/
theorem Reads.keep {run' buffer : Bytes} {value : UInt8} (some_ : run' ≠ [])
    (reads : ∀ more, unescape (run' ++ more) = (unescape more).map (buffer ++ value :: ·)) (fits : buffer.length ≤ limit) :
    Reads limit run' (Decoder.keep ⟨limit, true, false, none, buffer⟩ value) := by
  unfold Decoder.keep
  by_cases full : limit ≤ buffer.length
  · rw [if_pos full]
    refine .condemned _ (fun more bytes whole => ?_) (Nat.zero_le _) some_
    rw [reads] at whole
    obtain ⟨rest, _, rfl⟩ := Option.map_eq_some_iff.mp whole
    simp only [List.length_append, List.length_cons]
    omega
  · rw [if_neg full]
    refine .reading ?_ ?_
    · simpa [unescape] using reads []
    · simp only [List.length_append, List.length_singleton]
      omega

/-- A byte inside a run puts nothing out. -/
theorem Reads.take (reads : Reads limit run d) {byte : UInt8} (inside : byte ≠ fend) :
    Reads limit (run ++ [byte]) (d.take byte).1 ∧ (d.take byte).2 = [] := by
  unfold Decoder.take
  rw [if_neg inside]
  cases reads with
  | @reading _ buffer whole fits =>
    by_cases escape : byte = fesc
    · subst escape
      exact ⟨.escaped whole fits, rfl⟩
    · have appended (more : Bytes) : unescape (run ++ [byte] ++ more) = (unescape more).map (buffer ++ byte :: ·) := by
        rw [List.append_assoc, unescape_append whole, List.singleton_append, unescape_plain escape, Option.map_map]
        rfl
      simp only [Bool.not_true, Option.isSome_none, Bool.or_self, Bool.false_eq_true, if_false, if_neg escape, and_true]
      exact .keep (by simp) appended fits
  | @escaped run buffer whole fits =>
    have appended (more : Bytes) : unescape (run ++ [fesc] ++ [byte] ++ more) =
        if byte = tfend then (unescape more).map (buffer ++ fend :: ·)
        else if byte = tfesc then (unescape more).map (buffer ++ fesc :: ·) else none := by
      rw [← unescape_escape whole]
      simp
    simp only [Bool.not_true, Option.isSome_none, Bool.or_self, Bool.false_eq_true, if_false, if_true]
    by_cases end_ : byte = tfend
    · simp only [if_pos end_, and_true] at appended ⊢
      exact .keep (by simp) appended fits
    · by_cases escape : byte = tfesc
      · simp only [if_neg end_, if_pos escape, and_true] at appended ⊢
        exact .keep (by simp) appended fits
      · simp only [if_neg end_, if_neg escape, and_true] at appended ⊢
        exact .condemned _ (fun more bytes all => by rw [appended] at all; cases all) fits (by simp)
  | condemned reason never fits some_ =>
    simp only [Bool.not_true, Option.isSome_some, Bool.false_or, if_true, and_true]
    exact .condemned reason (fun more bytes all => never ([byte] ++ more) bytes (by rwa [← List.append_assoc])) fits
      (by simp)

/-- A delimiter ends the run: it is judged, unless there is nothing in it. -/
theorem Reads.end (reads : Reads limit run d) :
    (d.take fend).1 = ⟨limit, true, false, none, []⟩ ∧
      (run = [] ∧ (d.take fend).2 = [] ∨ run ≠ [] ∧ ∃ out, Judged limit run out ∧ (d.take fend).2 = [out]) := by
  cases reads with
  | @reading _ buffer whole fits =>
    refine ⟨by cases buffer <;> rfl, ?_⟩
    cases buffer with
    | nil =>
      have nothing : run = [] := by
        cases run with
        | nil => rfl
        | cons byte rest =>
          unfold unescape at whole
          repeat' split at whole
          all_goals simp at whole
      exact .inl ⟨nothing, rfl⟩
    | cons kind data =>
      have some_ : run ≠ [] := by
        rintro rfl
        cases whole
      exact .inr ⟨some_, _, .frame whole (by rw [Nat.add_comm]; exact fits), rfl⟩
  | @escaped run _ whole _ =>
    refine ⟨rfl, .inr ⟨by simp, _, .malformed .danglingEscape fun bytes all => ?_, rfl⟩⟩
    rw [unescape_append whole] at all
    cases all
  | condemned reason never _ some_ =>
    exact ⟨rfl, .inr ⟨some_, _, .malformed reason fun bytes all => never [] bytes (by simpa using all), rfl⟩⟩

theorem Reads.push (reads : Reads limit run d) {bytes : Bytes} (inside : fend ∉ bytes) :
    Reads limit (run ++ bytes) (d.push bytes).1 ∧ (d.push bytes).2 = [] :=
  Stream.run_silent Decoder.take (R := Reads limit) (p := (· ≠ fend)) (fun reads inside => reads.take inside) reads
    fun _ member end_ => inside (end_ ▸ member)

/-! ### Whole streams -/

/-- From inside a run on, what comes out is the runs ended, judged one by one. -/
theorem Reads.outputs (reads : Reads limit run d) (plain : fend ∉ run) (bytes : Bytes) :
    List.Forall₂ (Judged limit) ((((run ++ bytes).splitOn fend).dropLast).filter (· ≠ [])) (d.push bytes).2 := by
  induction bytes generalizing run d with
  | nil => simp [List.splitOn_eq_singleton plain, Decoder.push]
  | cons byte rest ih =>
    by_cases ends : byte = fend
    · subst ends
      obtain ⟨fresh, ended⟩ := reads.end
      have later := ih (fresh ▸ Reads.start limit) (by simp)
      rw [List.nil_append] at later
      rw [Stream.dropLast_splitOn plain, Decoder.push_cons]
      rcases ended with ⟨rfl, silent⟩ | ⟨some_, out, judged, put⟩
      · rw [silent, List.filter_cons_of_neg (by simp)]
        exact later
      · rw [put, List.filter_cons_of_pos (by simpa using some_)]
        exact .cons judged later
    · obtain ⟨next, silent⟩ := reads.take ends
      have later := ih next (by simpa using ⟨plain, Ne.symm ends⟩)
      rw [Decoder.push_cons, silent]
      simpa using later

theorem new_take {byte : UInt8} (noise : byte ≠ fend) : (Decoder.new limit).take byte = (Decoder.new limit, []) := by
  simp [Decoder.take, Decoder.new, noise]

/-- Before the first delimiter nothing is read. -/
theorem new_push {bytes : Bytes} (noise : fend ∉ bytes) : (Decoder.new limit).push bytes = (Decoder.new limit, []) := by
  induction bytes with
  | nil => rfl
  | cons byte rest ih =>
    obtain ⟨first, later⟩ := not_or.mp (fun either => noise (List.mem_cons.mpr either))
    rw [Decoder.push_cons, new_take (Ne.symm first), ih later]
    rfl

theorem new_end : (Decoder.new limit).take fend = (⟨limit, true, false, none, []⟩, []) := rfl

/-- What comes out of a stream is the runs between its delimiters, judged one by one. -/
theorem push_judged (limit : Nat) (bytes : Bytes) :
    List.Forall₂ (Judged limit) ((Stream.between fend bytes).filter (· ≠ [])) ((Decoder.new limit).push bytes).2 := by
  by_cases synchronised : fend ∈ bytes
  · obtain ⟨noise, rest, rfl, before⟩ := List.eq_append_cons_of_mem synchronised
    have outputs := Reads.outputs (Reads.start limit) (by simp) rest
    rw [Stream.between_cons before, Decoder.push_append, new_push before, Decoder.push_cons, new_end]
    exact outputs
  · rw [Stream.between_nil synchronised, new_push synchronised]
    exact .nil

/-- A decoder has read nothing yet, or a run since the last delimiter. -/
theorem push_reads (limit : Nat) (bytes : Bytes) :
    ((Decoder.new limit).push bytes).1 = Decoder.new limit ∨
      ∃ run, Reads limit run ((Decoder.new limit).push bytes).1 := by
  induction bytes using List.reverseRecOn with
  | nil => exact .inl rfl
  | append_singleton before byte ih =>
    rw [Decoder.push_append, Decoder.push_cons]
    simp only [Decoder.push_nil]
    by_cases ends : byte = fend
    · subst ends
      refine .inr ⟨[], ?_⟩
      rcases ih with fresh | ⟨run, reads⟩
      · rw [fresh]
        exact .start limit
      · rw [reads.end.1]
        exact .start limit
    · rcases ih with fresh | ⟨run, reads⟩
      · rw [fresh, new_take ends]
        exact .inl rfl
      · exact .inr ⟨_, (reads.take ends).1⟩

/-- A frame a client may send, within the limit. -/
def Sendable (limit : Nat) (f : KissFrame) : Prop :=
  (f.port < 16 ∧ f.command < 16 ∧ ¬(f.port = 15 ∧ f.command = 15) ∨ f.command = Command.return ∧ f.port = 0) ∧
    1 + f.data.length ≤ limit

/-- The type byte of a frame. -/
def kindOf (f : KissFrame) : UInt8 :=
  if f.command = Command.return then Command.return else ((f.port &&& 0x0F) <<< 4) ||| (f.command &&& 0x0F)

theorem nibbles : ∀ p c : Fin 16, ¬(p.val = 15 ∧ c.val = 15) →
    let port := UInt8.ofNat p
    let command := UInt8.ofNat c
    let kind := ((port &&& 0x0F) <<< 4) ||| (command &&& 0x0F);
    command ≠ Command.return ∧ kind ≠ Command.return ∧ kind >>> 4 = port ∧ kind &&& 0x0F = command := by
  decide

theorem frameOf_kindOf {f : KissFrame} (sendable : Sendable limit f) : Decoder.frameOf (kindOf f) f.data = f := by
  obtain ⟨port, command, data⟩ := f
  rcases sendable.1 with ⟨low, low', other⟩ | ⟨rfl, rfl⟩
  · have small : port.toNat < 16 := low
    have small' : command.toNat < 16 := low'
    obtain ⟨plain, kind, first, second⟩ := nibbles ⟨port.toNat, small⟩ ⟨command.toNat, small'⟩ fun ⟨p, c⟩ =>
      other ⟨UInt8.toNat_inj.mp p, UInt8.toNat_inj.mp c⟩
    simp only [UInt8.ofNat_toNat] at plain kind first second
    simp [kindOf, Decoder.frameOf, plain, kind, first, second]
  · rfl

/-- A frame pushed: what was read before it ends, and the frame comes out. -/
theorem push_encode {f : KissFrame} (sendable : Sendable limit f) (ready : (d.take fend).1 = ⟨limit, true, false, none, []⟩) :
    d.push (encode f.port f.command f.data) = (⟨limit, true, false, none, []⟩, (d.take fend).2 ++ [.frame f]) := by
  have whole := unescape_escaped (kindOf f :: f.data)
  have plain : fend ∉ (kindOf f :: f.data).flatMap escapeByte := fun member => by
    obtain ⟨byte, _, inside⟩ := List.mem_flatMap.mp member
    exact fend_not_mem_escapeByte byte inside
  obtain ⟨reads, silent⟩ := Reads.push (Reads.start limit) plain
  obtain ⟨fresh, ended⟩ := reads.end
  have framed : (((⟨limit, true, false, none, []⟩ : Decoder).push ((kindOf f :: f.data).flatMap escapeByte)).1.take fend).2 =
      [.frame f] := by
    rcases ended with ⟨nothing, _⟩ | ⟨_, out, judged, put⟩
    · rw [List.nil_append] at nothing
      rw [nothing] at whole
      cases whole
    · rw [put]
      rw [List.nil_append] at judged
      cases judged with
      | frame reads' _ =>
        obtain ⟨rfl, rfl⟩ := List.cons.inj (Option.some.inj (whole.symm.trans reads'))
        rw [frameOf_kindOf sendable]
      | malformed _ long =>
        have := long _ whole
        have := sendable.2
        simp only [List.length_cons] at *
        omega
  have encoded : encode f.port f.command f.data = fend :: ((kindOf f :: f.data).flatMap escapeByte ++ [fend]) := rfl
  rw [encoded, Decoder.push_cons, ready, Decoder.push_append, Decoder.push_cons, Decoder.push_nil, silent, fresh, framed]
  rfl

/-- What a decoder read when the frame's first delimiter comes. -/
theorem ready_of_push (limit : Nat) (bytes : Bytes) : let d := ((Decoder.new limit).push bytes).1;
    (d.take fend).1 = ⟨limit, true, false, none, []⟩ ∧ (d.take fend).2.length ≤ 1 ∧ d.buffer.length ≤ limit := by
  intro d
  rcases push_reads limit bytes with fresh | ⟨run, reads⟩
  · simp only [d, fresh]
    exact ⟨rfl, Nat.zero_le _, Nat.zero_le _⟩
  · obtain ⟨started, ended⟩ := reads.end
    refine ⟨started, ?_, reads.buffer_le⟩
    rcases ended with ⟨_, silent⟩ | ⟨_, out, _, put⟩
    · rw [silent]
      exact Nat.zero_le _
    · rw [put]
      exact Nat.le_refl _

/-- Frames one after another. -/
theorem push_encodes {frames : List KissFrame} (sendable : ∀ f ∈ frames, Sendable limit f)
    (ready : d.take fend = (⟨limit, true, false, none, []⟩, [])) :
    (d.push (frames.flatMap fun f => encode f.port f.command f.data)).2 = frames.map .frame := by
  induction frames generalizing d with
  | nil => rfl
  | cons f rest ih =>
    obtain ⟨here, later⟩ := List.forall_mem_cons.mp sendable
    have first := push_encode here (congrArg Prod.fst ready)
    have more := ih (d := ⟨limit, true, false, none, []⟩) later rfl
    rw [List.flatMap_cons, Decoder.push_append, first, ready, more]
    rfl

/-- Framing loses nothing, invents nothing and resynchronises. -/
theorem framing (limit : Nat) :
    (∀ frames : List KissFrame, (∀ f ∈ frames, Sendable limit f) → ∀ pieces : List Bytes,
      pieces.flatten = (frames.flatMap fun f => encode f.port f.command f.data) →
        (Stream.run Decoder.push (Decoder.new limit) pieces).2 = frames.map .frame) ∧
    (∀ (d : Decoder) (a b : Bytes),
      d.push (a ++ b) = (((d.push a).1.push b).1, (d.push a).2 ++ ((d.push a).1.push b).2)) ∧
    ∀ bytes : Bytes,
      (∀ f, Sendable limit f → ∃ before, before.length ≤ 1 ∧
        (((Decoder.new limit).push bytes).1.push (encode f.port f.command f.data)).2 = before ++ [.frame f]) ∧
      List.Forall₂ (Judged limit) ((Stream.between fend bytes).filter (· ≠ [])) ((Decoder.new limit).push bytes).2 ∧
      ((Decoder.new limit).push bytes).1.buffer.length ≤ limit := by
  refine ⟨fun frames sendable pieces whole => ?_, Decoder.push_append, fun bytes => ?_⟩
  · have joined := Stream.run_pieces Decoder.take (Decoder.new limit) pieces
    rw [whole] at joined
    exact (congrArg Prod.snd joined).trans (push_encodes sendable new_end)
  · obtain ⟨ready, few, fits⟩ := ready_of_push limit bytes
    exact ⟨fun f sendable => ⟨_, few, by rw [push_encode sendable ready]⟩, push_judged limit bytes, fits⟩

/-- Two frames in a single-byte piece and the rest, the first frame's type byte escaped. -/
theorem framing_two : (Stream.run Decoder.push (Decoder.new 8)
    [[fend], (encode 12 0 [0x55]).drop 1 ++ encode 0 Command.return []]).2 =
      [.frame ⟨12, 0, [0x55]⟩, .frame ⟨0, Command.return, []⟩] :=
  (framing 8).1 [⟨12, 0, [0x55]⟩, ⟨0, Command.return, []⟩]
    (by
      intro f member
      rcases List.mem_cons.mp member with rfl | last
      · exact ⟨.inl (by decide), by decide⟩
      · obtain rfl := List.mem_singleton.mp last
        exact ⟨.inr ⟨rfl, rfl⟩, by decide⟩)
    _ (by decide)

end AetherHF.Kiss

import AetherHF.Base.Lists
import AetherHF.Base.Stream
import AetherHF.Base.Text

/-! The lines of the command port: what a host program's bytes come to, however they
arrive. -/
namespace AetherHF.Host

def cr : UInt8 := 0x0D
def lf : UInt8 := 0x0A

def isLineEnd (c : UInt8) : Bool := c = cr || c = lf

/-- What a read of the socket gives. -/
inductive Arrival where
  /-- The bytes read: none at the end of the stream, and from there on. -/
  | bytes (chunk : Bytes)
  /-- `WouldBlock` or `TimedOut`. -/
  | timedOut
  | interrupted
  /-- Any other error. -/
  | failed
  deriving DecidableEq, Repr

structure BufReader where
  held : Bytes
  /-- What the reads to come give; past them the program sends nothing. -/
  arrivals : List Arrival
  deriving DecidableEq, Repr

/-- How `read_until` ends. -/
inductive Read where
  | ok
  | timedOut
  | failed
  | waits
  deriving DecidableEq, Repr

/-- What a read appends, after what was held. -/
def appended (held : Bytes) (later : Read × Bytes × BufReader) : Read × Bytes × BufReader :=
  (later.1, held ++ later.2.1, later.2.2)

/-- `BufRead::read_until`: the bytes it appends to the buffer it was given, those before an
error included, and the reader after it. -/
def readUntil (delim : UInt8) (arrivals : List Arrival) (held : Bytes) : Read × Bytes × BufReader :=
  match held.dropWhile (· ≠ delim) with
  | d :: rest => (.ok, held.takeWhile (· ≠ delim) ++ [d], ⟨rest, arrivals⟩)
  | [] =>
    match arrivals with
    | [] => (.waits, held, ⟨[], []⟩)
    | .bytes [] :: _ => (.ok, held, ⟨[], arrivals⟩)
    | .bytes (b :: chunk) :: rest => appended held (readUntil delim rest (b :: chunk))
    | .interrupted :: rest => appended held (readUntil delim rest [])
    | .timedOut :: rest => (.timedOut, held, ⟨[], rest⟩)
    | .failed :: rest => (.failed, held, ⟨[], rest⟩)

inductive LineResult where
  | line
  | idle
  | closed
  deriving DecidableEq, Repr

/-- What one read comes to, its line in `out`. -/
def lineOf (out : Bytes) : Read × Bytes × BufReader → Option LineResult × Bytes × BufReader
  | (.ok, [], reader) => (some .closed, out, reader)
  | (.ok, b :: taken, reader) => (some .line, (out ++ b :: taken).rdropWhile isLineEnd, reader)
  | (.timedOut, taken, reader) => (some .idle, out ++ taken, reader)
  | (.failed, taken, reader) => (some .closed, out ++ taken, reader)
  | (.waits, taken, reader) => (none, out ++ taken, reader)

/-- Read one command into `out`; nothing when the read still waits. -/
def readLine (reader : BufReader) (out : Bytes) : Option LineResult × Bytes × BufReader :=
  lineOf out (readUntil cr reader.arrivals reader.held)

/-! ### What arrives, timeouts among it -/

inductive Mark where
  | byte (b : UInt8)
  | pause
  deriving DecidableEq, Repr

/-- What arrives before the end of the stream, or the connection's failure. -/
def marksOf : List Arrival → List Mark
  | [] | .bytes [] :: _ | .failed :: _ => []
  | .bytes chunk :: rest => chunk.map .byte ++ marksOf rest
  | .interrupted :: rest => marksOf rest
  | .timedOut :: rest => .pause :: marksOf rest

/-- The program closes the connection in order. -/
def closes : List Arrival → Bool
  | [] | .failed :: _ => false
  | .bytes [] :: _ => true
  | _ :: rest => closes rest

def BufReader.marks (reader : BufReader) : List Mark := reader.held.map .byte ++ marksOf reader.arrivals

/-- What a read takes of what is to come. -/
inductive Taken (delim : UInt8) (marks : List Mark) (closing : Bool) : Read × Bytes × BufReader → Prop
  | line {t : Bytes} {reader : BufReader} (free : delim ∉ t)
      (is : marks = t.map .byte ++ .byte delim :: reader.marks) (later : closes reader.arrivals = closing) :
      Taken delim marks closing (.ok, t ++ [delim], reader)
  | last {t : Bytes} {reader : BufReader} (free : delim ∉ t) (is : marks = t.map .byte) (ends : closing = true)
      (none_ : reader.marks = []) (later : closes reader.arrivals = true) :
      Taken delim marks closing (.ok, t, reader)
  | pause {t : Bytes} {reader : BufReader} (free : delim ∉ t) (is : marks = t.map .byte ++ .pause :: reader.marks)
      (later : closes reader.arrivals = closing) : Taken delim marks closing (.timedOut, t, reader)
  | failed {t : Bytes} {reader : BufReader} (free : delim ∉ t) (is : marks = t.map .byte)
      (ends : closing = false) : Taken delim marks closing (.failed, t, reader)
  | waits {t : Bytes} {reader : BufReader} (free : delim ∉ t) (is : marks = t.map .byte)
      (ends : closing = false) : Taken delim marks closing (.waits, t, reader)

theorem Taken.appended {delim : UInt8} {marks : List Mark} {closing : Bool} {held : Bytes} (free : delim ∉ held)
    {later : Read × Bytes × BufReader} (taken : Taken delim marks closing later) :
    Taken delim (held.map .byte ++ marks) closing (appended held later) := by
  have both {t : Bytes} (free' : delim ∉ t) : delim ∉ held ++ t := by
    rw [List.mem_append, not_or]
    exact ⟨free, free'⟩
  cases taken with
  | line free' is later =>
    rw [Host.appended, ← List.append_assoc]
    exact .line (both free') (by simp [is]) later
  | last free' is ends none_ later => exact .last (both free') (by simp [is]) ends none_ later
  | pause free' is later => exact .pause (both free') (by simp [is]) later
  | failed free' is ends => exact .failed (both free') (by simp [is]) ends
  | waits free' is ends => exact .waits (both free') (by simp [is]) ends

/-- The delimiter is among the bytes held. -/
theorem Taken.held {delim d : UInt8} {held rest : Bytes} (arrivals : List Arrival)
    (after : held.dropWhile (· ≠ delim) = d :: rest) :
    Taken delim (BufReader.mk held arrivals).marks (closes arrivals)
      (.ok, held.takeWhile (· ≠ delim) ++ [d], ⟨rest, arrivals⟩) := by
  have parts := List.takeWhile_append_dropWhile (p := (· ≠ delim)) (l := held)
  have found := List.head?_dropWhile_not (· ≠ delim) held
  rw [after] at found parts
  obtain rfl : d = delim := by simpa using found
  refine .line (fun inside => ?_) ?_ rfl
  · simpa using List.mem_takeWhile_imp inside
  · have held_ := congrArg (List.map Mark.byte) parts
    simp only [List.map_append, List.map_cons] at held_
    rw [BufReader.marks, ← held_, BufReader.marks, List.append_assoc, List.cons_append]

theorem readUntil_taken (delim : UInt8) (arrivals : List Arrival) (held : Bytes) :
    Taken delim (BufReader.mk held arrivals).marks (closes arrivals) (readUntil delim arrivals held) := by
  have free {held : Bytes} (after : held.dropWhile (· ≠ delim) = []) : delim ∉ held := by
    intro inside
    simpa using List.dropWhile_eq_nil_iff.mp after delim inside
  induction arrivals generalizing held with
  | nil =>
    unfold readUntil
    split
    · rename_i after
      exact .held _ after
    · rename_i after
      exact .waits (free after) (by simp [BufReader.marks, marksOf]) rfl
  | cons arrival rest ih =>
    unfold readUntil
    split
    · rename_i after
      exact .held _ after
    · rename_i after
      cases arrival with
      | bytes chunk =>
        cases chunk with
        | nil => exact .last (free after) (by simp [BufReader.marks, marksOf]) rfl (by simp [BufReader.marks, marksOf]) rfl
        | cons b chunk => exact (ih (b :: chunk)).appended (free after)
      | interrupted => exact (ih []).appended (free after)
      | timedOut => exact .pause (free after) (by simp [BufReader.marks, marksOf]) rfl
      | failed => exact .failed (free after) (by simp [BufReader.marks, marksOf]) rfl

/-! ### The loop -/

/-- What one call of `read_line` takes, and gives. -/
inductive LineTaken (marks : List Mark) (closing : Bool) : Option LineResult × Bytes × BufReader → Prop
  | line {t : Bytes} {reader : BufReader} (free : cr ∉ t)
      (is : marks = t.map .byte ++ .byte cr :: reader.marks) (later : closes reader.arrivals = closing) :
      LineTaken marks closing (some .line, t.rdropWhile isLineEnd, reader)
  | last {t : Bytes} {reader : BufReader} (some_ : t ≠ []) (free : cr ∉ t) (is : marks = t.map .byte)
      (ends : closing = true) (none_ : reader.marks = []) (later : closes reader.arrivals = true) :
      LineTaken marks closing (some .line, t.rdropWhile isLineEnd, reader)
  | idle {t : Bytes} {reader : BufReader} (free : cr ∉ t) (is : marks = t.map .byte ++ .pause :: reader.marks)
      (later : closes reader.arrivals = closing) : LineTaken marks closing (some .idle, t, reader)
  | closed {reader : BufReader} (none_ : marks = []) : LineTaken marks closing (some .closed, [], reader)
  | lost {t : Bytes} {reader : BufReader} {result : Option LineResult} (gone : result = some .closed ∨ result = none)
      (free : cr ∉ t) (is : marks = t.map .byte) (ends : closing = false) : LineTaken marks closing (result, t, reader)

theorem Taken.lineOf {marks : List Mark} {closing : Bool} {read : Read × Bytes × BufReader}
    (taken : Taken cr marks closing read) : LineTaken marks closing (lineOf [] read) := by
  cases taken with
  | @line t reader free is later =>
    have stripped : (t ++ [cr]).rdropWhile isLineEnd = t.rdropWhile isLineEnd :=
      List.rdropWhile_concat_pos _ _ _ rfl
    have line := LineTaken.line free is later
    rw [← stripped] at line
    cases t with
    | nil => exact line
    | cons b t => exact line
  | @last t reader free is ends none_ later =>
    cases t with
    | nil => exact .closed is
    | cons b t => exact .last (List.cons_ne_nil b t) free is ends none_ later
  | pause free is later => exact .idle free is later
  | failed free is ends => exact .lost (.inl rfl) free is ends
  | waits free is ends => exact .lost (.inr rfl) free is ends

theorem readLine_taken (reader : BufReader) :
    LineTaken reader.marks (closes reader.arrivals) (readLine reader []) :=
  (readUntil_taken cr reader.arrivals reader.held).lineOf

/-- A line, and a timeout, take something of what is to come. -/
theorem readLine_shorter {reader reader' : BufReader} {line : Bytes} {result : LineResult}
    (goes : result ≠ .closed) (read : readLine reader [] = (some result, line, reader')) :
    reader'.marks.length < reader.marks.length := by
  have taken := readLine_taken reader
  rw [read] at taken
  cases taken with
  | line _ is => simp [is]; omega
  | last some_ _ is _ none_ => simpa [is, none_] using List.length_pos_iff.mpr some_
  | idle _ is => simp [is]; omega
  | closed => exact absurd rfl goes
  | lost gone =>
    rcases gone with gone | gone
    · exact absurd (Option.some.inj gone) goes
    · cases gone

/-- The lines the loop of `serve_commands` takes, in the order it gives them to
`HostState::command`: a buffer of its own for each read. -/
def commandLines (reader : BufReader) : List Bytes :=
  match read : readLine reader [] with
  | (some .line, line, reader') =>
    have := readLine_shorter (by decide) read
    line :: commandLines reader'
  | (some .idle, _, reader') =>
    have := readLine_shorter (by decide) read
    commandLines reader'
  | (some .closed, _, _) => []
  | (none, _, _) => []
termination_by reader.marks.length

/-! ### The pieces between carriage returns -/

def Mark.byte? : Mark → Option UInt8
  | .byte b => some b
  | .pause => none

/-- The bytes of a piece. -/
def whole (piece : List Mark) : Bytes := piece.filterMap Mark.byte?

/-- Those since its last timeout. -/
def kept (piece : List Mark) : Bytes := whole (piece.rtakeWhile (· ≠ .pause))

def finished (marks : List Mark) : List (List Mark) := (marks.splitOn (.byte cr)).dropLast

/-- What no carriage return ends. -/
def unfinished (marks : List Mark) : List Mark := (marks.splitOn (.byte cr)).getLastD []

/-- The lines of what arrives, each piece read as `each`: those a carriage return ends, and
one that the close of the connection ends. -/
def linesOf (each : List Mark → Bytes) (marks : List Mark) (closing : Bool) : List Bytes :=
  (finished marks).map (fun piece => (each piece).rdropWhile isLineEnd) ++
    if closing ∧ each (unfinished marks) ≠ [] then [(each (unfinished marks)).rdropWhile isLineEnd] else []

/-- No timeout falls between two bytes of a piece, or before its end. -/
def Undivided (piece : List Mark) : Prop := ∀ before after, piece = before ++ .pause :: after → whole before = []

def Blank (piece : List Mark) : Prop := ∀ b ∈ whole piece, isLineEnd b = true

theorem whole_append (xs ys : List Mark) : whole (xs ++ ys) = whole xs ++ whole ys := List.filterMap_append

theorem whole_bytes (t : Bytes) : whole (t.map .byte) = t := by
  simp [whole, List.filterMap_map, Function.comp_def, Mark.byte?]

theorem kept_bytes (t : Bytes) : kept (t.map .byte) = t := by
  rw [kept, List.rtakeWhile_eq_self_iff.mpr, whole_bytes]
  simp

theorem kept_pause (xs ys : List Mark) : kept (xs ++ .pause :: ys) = kept ys := by
  induction ys using List.reverseRecOn with
  | nil => simp [kept]
  | append_singleton ys y ih =>
    rw [← List.cons_append, ← List.append_assoc, kept, kept, List.rtakeWhile_concat, List.rtakeWhile_concat]
    split
    · rw [whole_append, whole_append]
      exact congrArg (· ++ whole [y]) ih
    · rfl

section

variable {t : Bytes} (free : cr ∉ t) (rest : List Mark) (closing : Bool)
include free

theorem bytes_free : Mark.byte cr ∉ t.map Mark.byte := by simpa using free

theorem linesOf_line (each : List Mark → Bytes) : linesOf each (t.map .byte ++ .byte cr :: rest) closing =
    (each (t.map .byte)).rdropWhile isLineEnd :: linesOf each rest closing := by
  have some_ := List.splitOn_ne_nil (Mark.byte cr) rest
  rw [linesOf, linesOf, finished, unfinished, finished, unfinished,
    List.splitOn_append_cons_self_of_not_mem (bytes_free free), List.dropLast_cons_of_ne_nil some_]
  cases split : rest.splitOn (Mark.byte cr) with
  | nil => exact absurd split some_
  | cons piece pieces => rfl

theorem linesOf_pause : linesOf kept (t.map .byte ++ .pause :: rest) closing = linesOf kept rest closing := by
  have free' : Mark.byte cr ∉ t.map Mark.byte ++ [.pause] := by simpa using free
  rw [show t.map Mark.byte ++ .pause :: rest = (t.map Mark.byte ++ [.pause]) ++ rest by simp, linesOf, linesOf,
    finished, unfinished, finished, unfinished, Stream.splitOn_append_of_not_mem free']
  cases split : rest.splitOn (Mark.byte cr) with
  | nil => exact absurd split (List.splitOn_ne_nil _ rest)
  | cons piece pieces =>
    cases pieces with
    | nil => simp [kept_pause]
    | cons second pieces => simp [kept_pause]

theorem linesOf_last : linesOf kept (t.map .byte) closing =
    if closing ∧ t ≠ [] then [t.rdropWhile isLineEnd] else [] := by
  rw [linesOf, finished, unfinished, List.splitOn_eq_singleton (bytes_free free)]
  simp [kept_bytes]

end

theorem commandLines_step (reader : BufReader) : commandLines reader = match readLine reader [] with
    | (some .line, line, reader') => line :: commandLines reader'
    | (some .idle, _, reader') => commandLines reader'
    | _ => [] := by
  rw [commandLines]
  split <;> rename_i read <;> simp only [read]

/-- The lines given are the pieces' bytes since their last timeouts. -/
theorem commandLines_eq (reader : BufReader) :
    commandLines reader = linesOf kept reader.marks (closes reader.arrivals) := by
  have nothing (closing : Bool) : linesOf kept [] closing = [] := by
    simpa using linesOf_last (t := []) List.not_mem_nil closing
  induction reader using commandLines.induct with
  | case1 reader line reader' read _ ih =>
    have taken := readLine_taken reader
    rw [read] at taken
    simp only [commandLines_step reader, read]
    cases taken with
    | line free is later => rw [is, linesOf_line free, kept_bytes, ih, later]
    | last some_ free is ends none_ later =>
      simp [is, ends, linesOf_last free, some_, ih, none_, nothing]
    | lost gone => rcases gone with gone | gone <;> cases gone
  | case2 reader line reader' read _ ih =>
    have taken := readLine_taken reader
    rw [read] at taken
    simp only [commandLines_step reader, read]
    cases taken with
    | idle free is later => rw [is, linesOf_pause free, ← later]; exact ih
    | lost gone => rcases gone with gone | gone <;> cases gone
  | case3 reader line reader' read =>
    have taken := readLine_taken reader
    rw [read] at taken
    simp only [commandLines_step reader, read]
    cases taken with
    | closed none_ => rw [none_, nothing]
    | lost gone free is ends => simp [is, ends, linesOf_last free]
  | case4 reader line reader' read =>
    have taken := readLine_taken reader
    rw [read] at taken
    simp only [commandLines_step reader, read]
    cases taken with
    | lost gone free is ends => simp [is, ends, linesOf_last free]

/-! ### What timeouts cost -/

/-- What a piece's last timeout cuts off. -/
theorem whole_kept (piece : List Mark) :
    whole piece = whole (piece.rdropWhile (· ≠ .pause)) ++ kept piece := by
  rw [kept, ← whole_append, List.rdropWhile_append_rtakeWhile]

theorem undivided_iff (piece : List Mark) :
    Undivided piece ↔ whole (piece.rdropWhile (· ≠ .pause)) = [] := by
  constructor
  · intro undivided
    cases dropped : piece.rdropWhile (· ≠ .pause) using List.reverseRecOn with
    | nil => rfl
    | append_singleton before last =>
      have some_ : piece.rdropWhile (· ≠ .pause) ≠ [] := by rw [dropped]; simp
      have pause := List.rdropWhile_last_not (· ≠ .pause) piece some_
      simp only [dropped, List.getLast_append_singleton, decide_eq_true_eq, not_not] at pause
      have parts := List.rdropWhile_append_rtakeWhile (p := (· ≠ .pause)) (l := piece)
      rw [dropped, pause, List.append_assoc] at parts
      rw [pause, whole_append, undivided before _ parts.symm]
      rfl
  · rintro none_ before after rfl
    have pause : (Mark.pause :: after).rdropWhile (· ≠ .pause) ≠ [] := by
      intro all
      simpa using List.rdropWhile_eq_nil_iff.mp all .pause List.mem_cons_self
    rw [rdropWhile_append, if_neg pause, whole_append] at none_
    exact (List.append_eq_nil_iff.mp none_).1

theorem strip_kept (piece : List Mark) :
    (kept piece).rdropWhile isLineEnd = (whole piece).rdropWhile isLineEnd ↔ Undivided piece ∨ Blank piece := by
  rw [undivided_iff, Blank, whole_kept piece]
  generalize whole (piece.rdropWhile (· ≠ .pause)) = lost
  generalize kept piece = kept
  constructor
  · intro same
    rw [rdropWhile_append] at same
    split at same
    · rename_i blank
      refine .inr fun b member => ?_
      rw [blank] at same
      rcases List.mem_append.mp member with member | member
      · exact List.rdropWhile_eq_nil_iff.mp same.symm b member
      · exact List.rdropWhile_eq_nil_iff.mp blank b member
    · exact .inl (by simpa using same)
  · rintro (rfl | blank)
    · rfl
    · rw [List.rdropWhile_eq_nil_iff.mpr blank, List.rdropWhile_eq_nil_iff.mpr]
      exact fun b member => blank b (List.mem_append_right _ member)

/-- No timeout costs a line anything: none falls between the bytes of a piece or before its
end, but in blank ones, which still have a byte for the close of the connection to end. -/
structure Unparted (arrivals : List Arrival) : Prop where
  finished : ∀ piece ∈ finished (marksOf arrivals), Undivided piece ∨ Blank piece
  last : closes arrivals = true →
    Undivided (unfinished (marksOf arrivals)) ∨ Blank (unfinished (marksOf arrivals)) ∧ kept (unfinished (marksOf arrivals)) ≠ []

theorem last_kept {closing : Bool} (closes : closing = true) (piece : List Mark) :
    (if closing ∧ kept piece ≠ [] then [(kept piece).rdropWhile isLineEnd] else []) =
        (if closing ∧ whole piece ≠ [] then [(whole piece).rdropWhile isLineEnd] else []) ↔
      Undivided piece ∨ Blank piece ∧ kept piece ≠ [] := by
  have parts := whole_kept piece
  by_cases none_ : kept piece = []
  · rw [none_, List.append_nil] at parts
    rw [undivided_iff, ← parts]
    simp [closes, none_]
  · have some_ : whole piece ≠ [] := by
      rw [parts]
      simp [none_]
    rw [if_pos ⟨closes, none_⟩, if_pos ⟨closes, some_⟩, List.singleton_inj, strip_kept, and_iff_left none_]

/-- The lines given to `HostState::command` are the pieces between carriage returns, in
order and whole, when no timeout parts one. -/
theorem command_lines (arrivals : List Arrival) : commandLines ⟨[], arrivals⟩ =
    linesOf whole (marksOf arrivals) (closes arrivals) ↔ Unparted arrivals := by
  rw [commandLines_eq, show (BufReader.mk [] arrivals).marks = marksOf arrivals from rfl, linesOf, linesOf]
  have lines : (finished (marksOf arrivals)).map (fun piece => (kept piece).rdropWhile isLineEnd) =
      (finished (marksOf arrivals)).map (fun piece => (whole piece).rdropWhile isLineEnd) ↔
      ∀ piece ∈ finished (marksOf arrivals), Undivided piece ∨ Blank piece := by
    rw [List.map_inj_left]
    exact forall₂_congr fun piece _ => strip_kept piece
  constructor
  · intro same
    obtain ⟨ended, closed⟩ := List.append_inj same (by rw [List.length_map, List.length_map])
    exact ⟨lines.mp ended, fun closing => (last_kept closing _).mp closed⟩
  · rintro ⟨ended, closed⟩
    rw [lines.mpr ended]
    cases closing : closes arrivals with
    | false => simp
    | true => rw [(last_kept rfl _).mpr (closed closing)]

/-- `LISTEN OFF` in two segments, a timeout between them. -/
theorem partedCommand_cut : ¬∀ arrivals, commandLines ⟨[], arrivals⟩ = linesOf whole (marksOf arrivals) (closes arrivals) := by
  intro all
  have here := all [.bytes [76, 73, 83, 84, 69, 78, 32], .timedOut, .bytes [79, 70, 70, 13], .bytes []]
  rw [commandLines_eq] at here
  revert here
  decide

end AetherHF.Host

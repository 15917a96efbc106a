import Mathlib.Data.Rat.Defs
import AetherHF.Base.Text

/-! The VARA-compatible command protocol: what a host program's lines ask, and the lines
it is told. -/
namespace AetherHF

/-- `str::split_whitespace`. -/
def Text.words (text : Text) : List Text := (text.splitOnP isWhitespace).filter fun word => !word.isEmpty

namespace Host

/-- `str::parse::<f64>`, as the number read. -/
class FloatText where
  parse : Text → Option ℚ

/-- What the host asked the modem to do, once a command has been understood. -/
inductive HostAction where
  | none
  | connect (caller called : Text)
  | disconnect
  | abort
  | listen (on : Bool)
  | callsigns (calls : List Text)
  | tune (seconds : ℚ)
  | tuneLevel
  | cqFrame (source : Option Text)
  | bandwidth (hz : Nat)
  deriving DecidableEq, Repr

structure HostOutcome where
  /-- Lines to send back, in order. -/
  replies : List Text
  action : HostAction
  deriving DecidableEq, Repr

namespace HostOutcome

def just (reply : Text) : HostOutcome := ⟨[reply], .none⟩

def ok : HostOutcome := just "OK".toList

def wrong : HostOutcome := just "WRONG".toList

def acting (action : HostAction) : HostOutcome := ⟨["OK".toList], action⟩

end HostOutcome

inductive Compression where
  | off
  | text
  | files
  deriving DecidableEq, Repr

inductive SessionKind where
  | p2p
  | winlink
  deriving DecidableEq, Repr

/-- What a host asked for that changes nothing here. -/
structure Recorded where
  chat : Bool := false
  ignoreKissDcd : Bool := false
  cqOnly : Bool := false
  driveLevel : Option Text := none
  deriving DecidableEq, Repr

/-- The bandwidth assumed until the modem says which one it runs. -/
def bandwidthHz : Nat := 2300

/-- Everything one host connection has told the modem about itself. -/
structure HostState where
  /-- Callsigns this station answers to, its own first. -/
  callsigns : List Text := []
  /-- Incoming calls are answered. -/
  listening : Bool := false
  isPublic : Bool := true
  compression : Compression := .off
  session : SessionKind := .p2p
  cwId : Bool := false
  /-- Bytes the modem still has to send, as last reported. -/
  buffer : Nat := 0
  bandwidthHz : Nat := Host.bandwidthHz
  /-- The bandwidth the program last asked for. -/
  bandwidthAsked : Option Nat := none
  recorded : Recorded := {}
  deriving DecidableEq, Repr

/-- Whether a callsign is one the link layer can carry. -/
def plausibleCallsign (call : Text) : Bool :=
  !call.isEmpty && (Text.asBytes call).length ≤ 9 && call.all fun c =>
    ('A' ≤ c && c ≤ 'Z') || ('a' ≤ c && c ≤ 'z') || ('0' ≤ c && c ≤ '9') || c = '-' || c = '/'

namespace HostState

variable (host : HostState)

def myCall : Option Text := host.callsigns.head?

def answersTo (call : Text) : Bool := host.callsigns.any (· = call)

/-- The `TUNE` family. -/
def tune [FloatText] (what : Text) : HostOutcome :=
  if what = "OFF".toList then .acting (.tune 0)
  else if what = "ON".toList then .acting (.tune 10)
  else if what = "?".toList then ⟨[], .tuneLevel⟩
  else match FloatText.parse what with
    | some value => if 0 ≤ value ∧ value ≤ 30 then .acting (.tune value) else .wrong
    | none => .wrong

/-- The parts of `text` between commas. -/
def commaParts (text : Text) : List Text := text.splitOnP (· = ',')

def setCallsigns (calls : List Text) : HostState × HostOutcome :=
  let parsed := ((calls.flatMap commaParts).map Text.trim).filter fun call => !call.isEmpty
  if parsed.isEmpty || !parsed.all plausibleCallsign then (host, .wrong)
  else ({ host with callsigns := parsed }, .acting (.callsigns parsed))

/-- The `BW<n>` commands. -/
def bandwidthOf (verb : Text) : Option Nat :=
  if verb = "BW2300".toList then some 2300
  else if verb = "BW500".toList then some 500
  else if verb = "BW2750".toList then some 2750
  else none

/-- A command with no words after it. -/
def plainCommand (verb : Text) : HostState × HostOutcome :=
  if verb = "DISCONNECT".toList then (host, .acting .disconnect)
  else if verb = "ABORT".toList then (host, .acting .abort)
  else if verb = "VERSION".toList then (host, .just "VERSION Aether HF 0.2.0-beta.139".toList)
  else if verb = "BUFFER".toList then (host, .just ("BUFFER ".toList ++ (toString host.buffer).toList))
  else if verb = "CQFRAME".toList then (host, .acting (.cqFrame none))
  else match bandwidthOf verb with
    | some hz => (host, ⟨[], .bandwidth hz⟩)
    | none => (host, .wrong)

/-- A command with one word after it. -/
def wordCommand [FloatText] (verb word : Text) : HostState × HostOutcome :=
  let listen (host : HostState) (on : Bool) : HostState × HostOutcome :=
    ({ host with listening := on }, .acting (.listen on))
  if verb = "MYCALL".toList then host.setCallsigns [word]
  else if verb = "LISTEN".toList ∧ word = "ON".toList then listen host true
  else if verb = "LISTEN".toList ∧ word = "OFF".toList then listen host false
  else if verb = "LISTEN".toList ∧ word = "CQ".toList then
    listen { host with recorded := { host.recorded with cqOnly := true } } true
  else if verb = "CHAT".toList ∧ word = "ON".toList then
    listen { host with recorded := { host.recorded with chat := true } } true
  else if verb = "CHAT".toList ∧ word = "OFF".toList then
    ({ host with recorded := { host.recorded with chat := false } }, .ok)
  else if verb = "PUBLIC".toList ∧ word = "ON".toList then ({ host with isPublic := true }, .ok)
  else if verb = "PUBLIC".toList ∧ word = "OFF".toList then ({ host with isPublic := false }, .ok)
  else if verb = "COMPRESSION".toList ∧ word = "OFF".toList then ({ host with compression := .off }, .ok)
  else if verb = "COMPRESSION".toList ∧ (word = "TEXT".toList ∨ word = "ON".toList) then
    ({ host with compression := .text }, .ok)
  else if verb = "COMPRESSION".toList ∧ word = "FILES".toList then ({ host with compression := .files }, .ok)
  else if verb = "WINLINK".toList ∧ word = "SESSION".toList then ({ host with session := .winlink }, .ok)
  else if verb = "P2P".toList ∧ word = "SESSION".toList then ({ host with session := .p2p }, .ok)
  else if verb = "CWID".toList ∧ word = "ON".toList then ({ host with cwId := true }, .ok)
  else if verb = "CWID".toList ∧ word = "OFF".toList then ({ host with cwId := false }, .ok)
  else if verb = "CQFRAME".toList then (host, .acting (.cqFrame (some word)))
  else if verb = "TUNE".toList then (host, tune word)
  else if verb = "DRIVELEVEL".toList then
    ({ host with recorded := { host.recorded with driveLevel := some word } }, .ok)
  else if verb = "IGNOREKISSDCD".toList ∧ (word = "ON".toList ∨ word = "OFF".toList) then
    ({ host with recorded := { host.recorded with ignoreKissDcd := decide (word = "ON".toList) } }, .ok)
  else (host, .wrong)

/-- Handle one command line from the host. -/
def command [FloatText] (line : Text) : HostState × HostOutcome :=
  match ((Text.trim line).toAsciiUppercase).words with
  | [] => (host, ⟨[], .none⟩)
  | [verb] => host.plainCommand verb
  | [verb, word] => host.wordCommand verb word
  | verb :: first :: second :: rest =>
    if verb = "MYCALL".toList then host.setCallsigns (first :: second :: rest)
    else if verb = "CONNECT".toList then
      if !plausibleCallsign first || !plausibleCallsign second then (host, .wrong)
      else (host, .acting (.connect first second))
    else if verb = "CQFRAME".toList then (host, .acting (.cqFrame (some first)))
    else (host, .wrong)

end HostState

/-- An unsolicited line the modem sends the host. -/
inductive Notification where
  | ptt (on : Bool)
  | connected (caller called : Text) (bandwidthHz : Nat)
  /-- An incoming call is being answered. -/
  | pending
  /-- A call `pending` announced came to nothing. -/
  | cancelPending
  | encryptionDisabled
  | disconnected
  | buffer (bytes : Nat)
  | registered (call : Text)
  | linkRegistered
  deriving DecidableEq, Repr

/-- The line to write, without its terminator. -/
def Notification.line : Notification → Text
  | .ptt true => "PTT ON".toList
  | .ptt false => "PTT OFF".toList
  | .connected caller called bandwidthHz =>
    "CONNECTED ".toList ++ caller ++ " ".toList ++ called ++ " ".toList ++ (toString bandwidthHz).toList
  | .pending => "PENDING".toList
  | .cancelPending => "CANCELPENDING".toList
  | .encryptionDisabled => "ENCRYPTION DISABLED".toList
  | .disconnected => "DISCONNECTED".toList
  | .buffer bytes => "BUFFER ".toList ++ (toString bytes).toList
  | .registered call => "REGISTERED ".toList ++ call
  | .linkRegistered => "LINK REGISTERED".toList

end Host

end AetherHF

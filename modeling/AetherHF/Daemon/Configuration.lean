import Mathlib.Data.Char
import AetherHF.Daemon.Settings

/-! A configuration as a document: what it serialises to, what is read back, and what is
checked of it. -/
namespace AetherHF.Settings

/-- What the daemon asks of the libraries beneath it. -/
class Library where
  /-- Whether a text is the address of a socket on the loopback interface. -/
  loopback : Text → Bool
  /-- A value as `serde_json` displays it. -/
  display : Json → String
  displayDouble : Double → String
  /-- Why a document is no configuration. -/
  refusal : Json → String

/-! ### Documents -/

mutual

/-- Every leaf of a document, as `(dotted key, value)`, tables recursed into. -/
def leaves (prefix_ : Text) : Json → List (Text × Json)
  | .object members => leavesIn prefix_ members
  | other => [(prefix_, other)]

def leavesIn (prefix_ : Text) : List (Text × Json) → List (Text × Json)
  | [] => []
  | (key, inner) :: rest =>
    leaves (if prefix_.isEmpty then key else prefix_ ++ '.' :: key) inner ++ leavesIn prefix_ rest

end

/-- Set one dotted key in a document, making the tables on the way. -/
def setLeaf (document : Json) (key : Text) (value : Json) : Json := document.setPath (key.splitOn '.') value

/-- Whether two values say the same thing, with `20` and `20.0` counting as the same. -/
def sameValue (a b : Json) : Bool :=
  match asF64 a, asF64 b with
  | some x, some y => |x - y| < 1 / 2 ^ 52
  | _, _ => a = b

/-! ### The keying section -/

def lines : List String := ["rts", "dtr", "both"]

def protocols : List String := ["yaesu", "kenwood", "icom"]

def sources : List String := ["data", "mic"]

/-- How the radio is keyed. -/
inductive PttConfig where
  | none
  | serial (port : Text) (line : (Kind.choice lines).Value)
  | rigctld (address : Text)
  | flrig (address : Text)
  | cat (port : Text) (protocol : (Kind.choice protocols).Value) (baud : Kind.u32.Value)
      (civAddress : (Kind.optional .u8).Value) (source : (Kind.choice sources).Value)
  | cm108 (device : (Kind.optional .text).Value) (gpio : Kind.u8.Value)
  | host (leadMs : Kind.u32.Value)

namespace PttConfig

def member (name : String) (kind : Kind) (value : kind.Value) : Text × Json := (name.toList, .scalar (kind.encode value))

def tag (kind : String) : Text × Json := member "kind" .text kind.toList

/-- The section's members, in the order of their names. -/
def members : PttConfig → List (Text × Json)
  | .none => [tag "none"]
  | .serial port line => [tag "serial", member "line" (.choice lines) line, member "port" .text port]
  | .rigctld address => [member "address" .text address, tag "rigctld"]
  | .flrig address => [member "address" .text address, tag "flrig"]
  | .cat port protocol baud civAddress source =>
    [member "baud" .u32 baud, member "civ_address" (.optional .u8) civAddress, tag "cat", member "port" .text port,
      member "protocol" (.choice protocols) protocol, member "source" (.choice sources) source]
  | .cm108 device gpio => [member "device" (.optional .text) device, member "gpio" .u8 gpio, tag "cm108"]
  | .host leadMs => [tag "host", member "lead_ms" .u32 leadMs]

/-- A field read from the section's members, with what one not named is taken for. -/
def read (members : Keyed Text Json) (name : String) (kind : Kind) (missing : Option kind.Value) : Option kind.Value :=
  match members.get? name.toList with
  | Option.none => missing
  | some (.scalar value) => kind.decode value
  | some _ => Option.none

/-- Whether the members have no name but these; `kind` apart. -/
def only (members : Keyed Text Json) (names : List String) : Bool :=
  members.all fun m => m.1 = "kind".toList || (names.map String.toList).contains m.1

def lineRts : (Kind.choice lines).Value := ⟨"rts".toList, by decide⟩

def sourceData : (Kind.choice sources).Value := ⟨"data".toList, by decide⟩

def defaultGpio : Kind.u8.Value := ⟨3, by decide⟩

def defaultHostLead : Kind.u32.Value := ⟨150, by decide⟩

def defaultCatBaud : Kind.u32.Value := ⟨38400, by decide⟩

/-- The section read: a kind, and the fields of the kind. The kind that has none ignores what is there. -/
def decode (members : Keyed Text Json) : Option PttConfig := do
  let kind : Text ← read members "kind" .text Option.none
  if kind = "none".toList then return .none
  else if kind = "serial".toList then
    guard (only members ["port", "line"])
    return .serial (← read members "port" .text Option.none)
      (← read members "line" (.choice lines) (some lineRts))
  else if kind = "rigctld".toList then
    guard (only members ["address"])
    return .rigctld (← read members "address" .text (some "127.0.0.1:4532".toList))
  else if kind = "flrig".toList then
    guard (only members ["address"])
    return .flrig (← read members "address" .text (some "127.0.0.1:12345".toList))
  else if kind = "cat".toList then
    guard (only members ["port", "protocol", "baud", "civ_address", "source"])
    return .cat (← read members "port" .text Option.none) (← read members "protocol" (.choice protocols) Option.none)
      (← read members "baud" .u32 (some defaultCatBaud)) (← read members "civ_address" (.optional .u8) (some Option.none))
      (← read members "source" (.choice sources) (some sourceData))
  else if kind = "cm108".toList then
    guard (only members ["device", "gpio"])
    return .cm108 (← read members "device" (.optional .text) (some Option.none))
      (← read members "gpio" .u8 (some defaultGpio))
  else if kind = "host".toList then
    guard (only members ["lead_ms"])
    return .host (← read members "lead_ms" .u32 (some defaultHostLead))
  else Option.none

end PttConfig

/-! ### Configurations -/

structure Config where
  value : (field : Field) → field.spec.kind.Value
  ptt : PttConfig

namespace Config

/-- The shape of configuration file this version writes. -/
def schemaVersion : Kind.u32.Value := ⟨13, by decide⟩

/-- The smallest configuration: a callsign and every default. -/
def withCallsign (callsign : Text) : Config where
  value
    | .schemaVersion => schemaVersion
    | .callsign => callsign
    | field => field.spec.default_
  ptt := .none

/-- What a field serialises to. -/
def leaf (config : Config) (field : Field) : Scalar := field.spec.kind.encode (config.value field)

/-- Every field set to a value. -/
def setFields (document : Json) (values : Field → Scalar) : Json :=
  Field.all.foldl (fun document field => document.setPath field.path (.scalar (values field))) document

def toValue (config : Config) : Json :=
  (setFields (.object []) config.leaf).setPath ["ptt".toList] (.object config.ptt.members)

/-- The tables of a configuration: the ways to its fields. -/
def tables : List (List Text) := [[]] ++ ["operator", "audio", "radio", "control", "host", "kiss", "log", "update", "record",
  "sim", "panel", "panel.waterfall", "regulatory"].map fun name => name.toList.splitOn '.'

/-- Whether there is a setting, or a table of them, there. -/
def known (path : List Text) : Bool := path = ["ptt".toList] || Field.all.any fun field => path.isPrefixOf field.path

/-- Whether the tables are tables, with no member that is not known. The KISS port's takes any. -/
def shaped (document : Json) : Bool :=
  tables.all fun table => match document.at_ table with
    | none => true
    | some (.object members) => table = ["kiss".toList] || members.all fun m => known (table ++ [m.1])
    | some _ => false

/-- A field read, with what serde takes one not named for. -/
def read (document : Json) (field : Field) : Option field.spec.kind.Value :=
  match document.at_ field.path with
  | none => if field = .callsign then none else some field.spec.default_
  | some (.scalar value) => field.spec.kind.decode value
  | some _ => none

def readPtt (document : Json) : Option PttConfig :=
  match document.at_ ["ptt".toList] with
  | none => some .none
  | some (.object members) => PttConfig.decode members
  | some _ => none

/-- A configuration read from a document. -/
def fromValue (document : Json) : Option Config :=
  if h : shaped document = true ∧ ∀ field, (read document field).isSome = true then
    (readPtt document).map fun ptt => ⟨fun field => (read document field).get (h.2 field), ptt⟩
  else none

end Config

end AetherHF.Settings

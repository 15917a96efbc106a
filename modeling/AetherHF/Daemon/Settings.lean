import Mathlib.Data.Fintype.Basic
import Mathlib.Data.List.Lex
import AetherHF.Base.Document
import AetherHF.Base.Exact
import AetherHF.Base.Text

/-! The settings registry: every setting the daemon has, described once, and the values
a configuration document may hold of it. -/
namespace AetherHF.Settings

/-! ### Values -/

/-- An `f64`, the finite ones by their value. -/
inductive Double where
  | finite (q : ℚ)
  | infinite (negative : Bool)
  | nan
  deriving DecidableEq

/-- A `serde_json::Value` that is neither array nor object. -/
inductive Scalar where
  | null
  | bool (b : Bool)
  | int (n : ℤ)
  | float (q : ℚ)
  | string (s : Text)
  deriving DecidableEq

abbrev Json := Document Text Scalar

/-- `n as f64`: to 53 bits, ties to even. -/
def asDouble (n : ℤ) : ℚ :=
  let ulp : ℚ := 2 ^ (n.natAbs.log2 + 1 - 53)
  roundTiesEven (n / ulp) * ulp

/-- `Value::as_f64`. -/
def asF64 : Json → Option ℚ
  | .scalar (.int n) => some (asDouble n)
  | .scalar (.float q) => some q
  | _ => none

/-- The type of a field. -/
inductive Kind where
  | bool
  | uint (max : Nat)
  | float
  | text
  /-- A unit enumeration, by the names of its variants. -/
  | choice (options : List String)
  | optional (kind : Kind)

namespace Kind

/-- What a field of the type holds. -/
def Value : Kind → Type
  | .bool => Bool
  | .uint max => { n : Nat // n ≤ max }
  | .float => Double
  | .text => Text
  | .choice options => { s : Text // s ∈ options.map String.toList }
  | .optional kind => Option kind.Value

def u8 : Kind := .uint 255

def u32 : Kind := .uint 4294967295

/-- `u64`, and `usize` where the daemon runs. -/
def u64 : Kind := .uint 18446744073709551615

/-- What a field serialises to: a float that is not finite to nothing. -/
def encode : (kind : Kind) → kind.Value → Scalar
  | .bool, b => .bool b
  | .uint _, n => .int n.1
  | .float, .finite q => .float q
  | .float, _ => .null
  | .text, s => .string s
  | .choice _, s => .string s.1
  | .optional _, none => .null
  | .optional kind, some value => kind.encode value

/-- What serde reads a field from. -/
def decode : (kind : Kind) → Scalar → Option kind.Value
  | .bool, .bool b => some b
  | .uint max, .int n => if h : 0 ≤ n ∧ n.toNat ≤ max then some ⟨n.toNat, h.2⟩ else none
  | .float, .int n => some (.finite (asDouble n))
  | .float, .float q => some (.finite q)
  | .text, .string s => some s
  | .choice options, .string s => if h : s ∈ options.map String.toList then some ⟨s, h⟩ else none
  | .optional _, .null => some none
  | .optional kind, value => (kind.decode value).map some
  | _, _ => none

end Kind

/-! ### Rules -/

/-- What kind of thing a setting is, which decides whether a profile carries it. -/
inductive Scope where
  | portable
  | hardware
  | machine
  | secret
  deriving DecidableEq

def Scope.isPortable : Scope → Bool
  | .portable | .hardware => true
  | .machine | .secret => false

/-- What the registry says about one setting beyond what its type says. -/
structure Rule where
  key : String
  scope : Scope := .portable
  nullable : Bool := false
  min : Option ℚ := none
  max : Option ℚ := none
  options : List String := []
  why : String := ""

/-- The smallest positive value: the bound of a setting that must be above zero. -/
def positive : ℚ := 1 / 2 ^ 1022

/-- The rules. Anything not named here is portable, not nullable and unbounded. -/
def rules : List Rule := [
  -- who and where
  { key := "operator.power_w", nullable := true, min := some positive, max := some 2000
    why := "power is watts, above zero" },
  -- the sound card
  { key := "audio.input", scope := .hardware, nullable := true },
  { key := "audio.output", scope := .hardware, nullable := true },
  { key := "audio.sample_rate", options := ["48000"]
    why := "the waveform is built around 48 kHz and nothing resamples" },
  { key := "audio.tx_level", min := some positive, max := some 1
    why := "the transmit level is a fraction of full scale" },
  -- keying
  { key := "ptt.kind", options := ["none", "serial", "rigctld", "flrig", "cat", "cm108", "host"]
    why := "those are the ways this version can key a radio" },
  { key := "ptt.lead_ms", min := some 50, max := some 1000
    why := "the host program needs some time to key the radio, and a second of dead air before every burst would be waste" },
  { key := "ptt.port", scope := .hardware },
  { key := "ptt.device", scope := .hardware, nullable := true },
  { key := "ptt.line", options := ["rts", "dtr", "both"], why := "a serial port has those two control lines" },
  { key := "ptt.protocol", options := ["yaesu", "kenwood", "icom"]
    why := "those are the command sets this version speaks" },
  { key := "ptt.source", options := ["data", "mic"]
    why := "it is accepted and ignored, but it has to be one of the two it once meant" },
  { key := "ptt.baud", min := some 1, why := "a serial rate is a positive number of bits per second" },
  { key := "ptt.civ_address", nullable := true, min := some 0, max := some 255
    why := "a CI-V address is one byte (0x94 for an IC-7300, 0xA4 for an IC-705)" },
  { key := "ptt.gpio", min := some 1, max := some 8
    why := "the codec has eight pins, and the DRA and URI boards key on 3" },
  -- the radio
  { key := "radio.max_key_s", min := some positive, why := "a watchdog that can never fire is not one" },
  { key := "radio.bandwidth", options := ["2300", "500"], why := "those are the waveforms this version has" },
  { key := "radio.max_mode", min := some 0, max := some 19
    why := "the ladder has twenty rungs: the tone floor's six and the fourteen OFDM modes" },
  { key := "radio.answer_gap_ms", min := some 0, max := some 2000
    why := "two seconds is longer than any VOX hold worth answering after, and the top gap level a called station can ask for" },
  { key := "radio.turnaround_ms", min := some 0, max := some 1500
    why := "a call or acceptance carries it in tenths of a second, up to a second and a half" },
  -- this installation
  { key := "control.enabled", scope := .machine },
  { key := "control.bind", scope := .machine },
  { key := "control.token", scope := .secret, nullable := true },
  { key := "control.ui_dir", scope := .machine, nullable := true },
  { key := "log.format", options := ["text", "json"]
    why := "the log is written for a terminal or for a log shipper" },
  { key := "log.file", scope := .machine, nullable := true },
  { key := "update.channel", options := ["stable", "beta", "nightly"], why := "those are the release channels" },
  { key := "record.dir", scope := .machine, nullable := true },
  { key := "record.send_to_project", scope := .machine
    why := "whether this computer sends its sessions to the project is its operator's consent, given here; a profile loaded from somebody else must not change it" },
  { key := "sim.listen", scope := .machine, nullable := true },
  { key := "sim.connect", scope := .machine, nullable := true },
  { key := "sim.*", scope := .machine },
  -- the panel
  { key := "panel.interface", nullable := true },
  { key := "panel.waterfall.*", scope := .machine
    why := "how this computer's screen draws the waterfall: a profile switched to for another radio or program must not change it" },
  -- the regulatory policy
  { key := "regulatory.profile", options := ["", "none", "us-fcc-part97"]
    why := "those are the regulatory profiles this version has (empty: not chosen yet)" },
  { key := "regulatory.control", options := ["", "local", "remote", "automatic"]
    why := "a station is controlled locally, remotely or automatically (§97.109)" },
  { key := "regulatory.license_class", options := ["", "novice", "technician", "general", "advanced", "extra"]
    why := "those are the license classes (§97.301)" },
  { key := "regulatory.sideband", options := ["usb", "lsb"]
    why := "the modem's audio goes out on the upper or the lower sideband" },
  { key := "regulatory.itu_region", min := some 1, max := some 3, why := "there are three ITU regions" },
  { key := "regulatory.edge_margin_hz", min := some 0, max := some 1000
    why := "the margin is hertz kept at a segment's edges, up to a kilohertz" },
  { key := "regulatory.dial_hz", scope := .machine, nullable := true, min := some 1, why := "a dial frequency is hertz" },
  -- the KISS port
  { key := "kiss.bind", scope := .machine },
  { key := "kiss.rung", min := some 0, max := some 19
    why := "a rung of the ladder: 0 and 1 are the tone floor both bandwidths hear" },
  { key := "kiss.max_clients", min := some 1, max := some 16, why := "from one program to sixteen at once" }]

/-- Whether a `table.*` rule covers a dotted key. -/
def covers (pattern key : Text) : Bool :=
  ".*".toList.isSuffixOf pattern && (pattern.dropLast).isPrefixOf key

/-- The rule for a key: its own, the rule of the table it is in, or the default. -/
def ruleFor (key : Text) : Rule :=
  ((rules.find? fun r => r.key.toList = key).or (rules.find? fun r => covers r.key.toList key)).getD { key := "" }

/-- Whether a profile carries this setting. -/
def isPortable (key : Text) : Bool := key ≠ "schema_version".toList && (ruleFor key).scope.isPortable

/-! ### The fields -/

/-- The version this is built as. -/
def packageVersion : String := "0.2.0-beta.139"

/-- The release channel an installation follows unless told otherwise. -/
def channelForBuild (version : String) : String := if version.toList.contains '-' then "beta" else "stable"

/-- The fields of a configuration but the keying section's, by the dotted names the control API uses. -/
inductive Field where
  | schemaVersion | callsign
  | operatorGrid | operatorRig | operatorPowerW | operatorAntenna
  | audioInput | audioOutput | audioSampleRate | audioTxLevel
  | radioMaxKeyS | radioWaitForClear | radioBusyThresholdDb | radioBandwidth | radioAnswerOnly | radioAnswerGapMs
  | radioTurnaroundMs | radioMaxMode | radioCompress | radioCwId | radioCwIdWpm
  | controlEnabled | controlBind | controlToken | controlUiDir
  | hostEnabled | hostBind | hostTrace
  | kissEnabled | kissBind | kissRung | kissWaitForClear | kissMaxClients | kissTrace
  | logFormat | logFile | logKeep
  | updateChannel | updateCheck
  | recordDir | recordAuto | recordNotes | recordTxAudio | recordSendToProject
  | simListen | simConnect | simSnrDb
  | panelInterface | waterfallAuto | waterfallFloorDb | waterfallGainDb | waterfallSpeed | waterfallPalette
  | regulatoryProfile | regulatoryControl | regulatoryLicenseClass | regulatorySideband | regulatoryItuRegion
  | regulatoryEdgeMarginHz | regulatoryBandPlan | regulatoryDialHz | regulatoryLogPermitted
  deriving DecidableEq

/-- Every field, in the order of a document's leaves. -/
def Field.all : List Field := [
  .audioInput, .audioOutput, .audioSampleRate, .audioTxLevel, .callsign, .controlBind, .controlEnabled, .controlToken,
  .controlUiDir, .hostBind, .hostEnabled, .hostTrace, .kissBind, .kissEnabled, .kissMaxClients, .kissRung, .kissTrace,
  .kissWaitForClear, .logFile, .logFormat, .logKeep, .operatorAntenna, .operatorGrid, .operatorPowerW, .operatorRig,
  .panelInterface, .waterfallAuto, .waterfallFloorDb, .waterfallGainDb, .waterfallPalette, .waterfallSpeed,
  .radioAnswerGapMs, .radioAnswerOnly, .radioBandwidth, .radioBusyThresholdDb, .radioCompress, .radioCwId, .radioCwIdWpm,
  .radioMaxKeyS, .radioMaxMode, .radioTurnaroundMs, .radioWaitForClear, .recordAuto, .recordDir, .recordNotes,
  .recordSendToProject, .recordTxAudio, .regulatoryBandPlan, .regulatoryControl, .regulatoryDialHz,
  .regulatoryEdgeMarginHz, .regulatoryItuRegion, .regulatoryLicenseClass, .regulatoryLogPermitted, .regulatoryProfile,
  .regulatorySideband, .schemaVersion, .simConnect, .simListen, .simSnrDb, .updateChannel, .updateCheck]

instance : Fintype Field := ⟨⟨Field.all, by decide⟩, fun field => by cases field <;> decide⟩

/-- A field: its dotted name, its type, what it is where no file names it, and what the template holds. -/
structure Spec where
  name : String
  kind : Kind
  default_ : kind.Value
  template : kind.Value

namespace Spec

def flag (name : String) (default_ template : Bool) : Spec := ⟨name, .bool, default_, template⟩

def float (name : String) (default_ template : ℚ) : Spec := ⟨name, .float, .finite default_, .finite template⟩

def text (name default_ template : String) : Spec := ⟨name, .text, default_.toList, template.toList⟩

/-- An optional name, unset. -/
def unset (name template : String) : Spec := ⟨name, .optional .text, none, some template.toList⟩

end Spec

namespace Field

def spec : Field → Spec
  | .schemaVersion => ⟨"schema_version", .u32, ⟨1, by decide⟩, ⟨1, by decide⟩⟩
  | .callsign => .text "callsign" "N0CALL" "N0CALL"
  | .operatorGrid => .text "operator.grid" "" "EM73tv"
  | .operatorRig => .text "operator.rig" "" "FTDX10"
  | .operatorPowerW => ⟨"operator.power_w", .optional .float, none, some (.finite 30)⟩
  | .operatorAntenna => .text "operator.antenna" "" "EFHW at 10 m"
  | .audioInput => .unset "audio.input" "USB Audio CODEC"
  | .audioOutput => .unset "audio.output" "USB Audio CODEC"
  | .audioSampleRate => ⟨"audio.sample_rate", .u32, ⟨48000, by decide⟩, ⟨48000, by decide⟩⟩
  | .audioTxLevel => .float "audio.tx_level" (1 / 4) (1 / 4)
  | .radioMaxKeyS => .float "radio.max_key_s" 30 30
  | .radioWaitForClear => .flag "radio.wait_for_clear" true true
  | .radioBusyThresholdDb => .float "radio.busy_threshold_db" 6 6
  | .radioBandwidth => ⟨"radio.bandwidth", .u32, ⟨2300, by decide⟩, ⟨2300, by decide⟩⟩
  | .radioAnswerOnly => .flag "radio.answer_only" false false
  | .radioAnswerGapMs => ⟨"radio.answer_gap_ms", .u32, ⟨0, by decide⟩, ⟨0, by decide⟩⟩
  | .radioTurnaroundMs => ⟨"radio.turnaround_ms", .u32, ⟨0, by decide⟩, ⟨0, by decide⟩⟩
  | .radioMaxMode => ⟨"radio.max_mode", .u64, ⟨19, by decide⟩, ⟨19, by decide⟩⟩
  | .radioCompress => .flag "radio.compress" false false
  | .radioCwId => .flag "radio.cw_id" false false
  | .radioCwIdWpm => .float "radio.cw_id_wpm" 20 20
  | .controlEnabled => .flag "control.enabled" true true
  | .controlBind => .text "control.bind" "127.0.0.1:8515" "127.0.0.1:8515"
  | .controlToken => .unset "control.token" "a long random string"
  | .controlUiDir => .unset "control.ui_dir" "ui"
  | .hostEnabled => .flag "host.enabled" false false
  | .hostBind => .text "host.bind" "127.0.0.1:8300" "127.0.0.1:8300"
  | .hostTrace => .flag "host.trace" false false
  | .kissEnabled => .flag "kiss.enabled" false false
  | .kissBind => .text "kiss.bind" "127.0.0.1:8100" "127.0.0.1:8100"
  | .kissRung => ⟨"kiss.rung", .u64, ⟨1, by decide⟩, ⟨1, by decide⟩⟩
  | .kissWaitForClear => .flag "kiss.wait_for_clear" true true
  | .kissMaxClients => ⟨"kiss.max_clients", .u64, ⟨4, by decide⟩, ⟨4, by decide⟩⟩
  | .kissTrace => .flag "kiss.trace" false false
  | .logFormat => ⟨"log.format", .choice ["text", "json"], ⟨"text".toList, by decide⟩, ⟨"text".toList, by decide⟩⟩
  | .logFile => .unset "log.file" "aetherd.log"
  | .logKeep => ⟨"log.keep", .u64, ⟨500, by decide⟩, ⟨500, by decide⟩⟩
  | .updateChannel => ⟨"update.channel", .choice ["stable", "beta", "nightly"],
      ⟨(channelForBuild packageVersion).toList, by decide⟩, ⟨"stable".toList, by decide⟩⟩
  | .updateCheck => .flag "update.check" true true
  | .recordDir => .unset "record.dir" "recordings"
  | .recordAuto => .flag "record.auto" false false
  | .recordNotes => .text "record.notes" "" ""
  | .recordTxAudio => .flag "record.tx_audio" false false
  | .recordSendToProject => .flag "record.send_to_project" true true
  | .simListen => .unset "sim.listen" "127.0.0.1:8600"
  | .simConnect => .unset "sim.connect" "127.0.0.1:8601"
  | .simSnrDb => .float "sim.snr_db" 30 30
  | .panelInterface => .unset "panel.interface" "manual"
  | .waterfallAuto => .flag "panel.waterfall.auto" true true
  | .waterfallFloorDb => .float "panel.waterfall.floor_db" (-90) (-90)
  | .waterfallGainDb => .float "panel.waterfall.gain_db" 20 20
  | .waterfallSpeed => ⟨"panel.waterfall.speed", .u32, ⟨8, by decide⟩, ⟨8, by decide⟩⟩
  | .waterfallPalette => .text "panel.waterfall.palette" "aether" "aether"
  | .regulatoryProfile => .text "regulatory.profile" "" "us-fcc-part97"
  | .regulatoryControl => .text "regulatory.control" "" "local"
  | .regulatoryLicenseClass => .text "regulatory.license_class" "" "general"
  | .regulatorySideband => .text "regulatory.sideband" "usb" "usb"
  | .regulatoryItuRegion => ⟨"regulatory.itu_region", .u8, ⟨2, by decide⟩, ⟨2, by decide⟩⟩
  | .regulatoryEdgeMarginHz => .float "regulatory.edge_margin_hz" 50 50
  | .regulatoryBandPlan => .flag "regulatory.band_plan" true true
  | .regulatoryDialHz => ⟨"regulatory.dial_hz", .optional .u64, none, some ⟨14105000, by decide⟩⟩
  | .regulatoryLogPermitted => .flag "regulatory.log_permitted" false false

def key (field : Field) : Text := field.spec.name.toList

/-- Where a configuration document has the field. -/
def path (field : Field) : List Text := field.key.splitOn '.'

def kind (field : Field) : Kind := field.spec.kind

end Field

example : Field.waterfallAuto.path = ["panel".toList, "waterfall".toList, "auto".toList] := by decide +kernel

end AetherHF.Settings

import AetherHF.Daemon.Configuration
import AetherHF.Link.Frames

/-! The settings registry, derived from a populated configuration: what a value of each
setting must be, and what is checked of a configuration as a whole. -/
namespace AetherHF.Settings

open Link (packCallsign FrameError)

variable [Library]

/-! ### The registry -/

/-- A fully populated configuration. -/
def template : Config where
  value field := field.spec.template
  ptt := .cat "COM6".toList ⟨"icom".toList, by decide⟩ ⟨19200, by decide⟩ (some ⟨148, by decide⟩)
    PttConfig.sourceData

/-- One keying section of each kind, every field set. -/
def keyingKinds : List PttConfig := [
  .none,
  .serial "COM7".toList PttConfig.lineRts,
  .rigctld "127.0.0.1:4532".toList,
  .flrig "127.0.0.1:12345".toList,
  .cat "COM6".toList ⟨"icom".toList, by decide⟩ ⟨19200, by decide⟩ (some ⟨148, by decide⟩) PttConfig.sourceData,
  .cm108 (some "hid#vid_0d8c&pid_000c".toList) PttConfig.defaultGpio,
  .host PttConfig.defaultHostLead]

/-- The leaves of a value, with those of one keying section of each kind added after. -/
def withEveryKeyingKind (value : Json) : List (Text × Json) :=
  (keyingKinds.flatMap fun kind => leaves "ptt".toList (.object kind.members)).foldl
    (fun out leaf => if out.any (·.1 = leaf.1) then out else out ++ [leaf]) (leaves [] value)

/-- Every setting there is, with the value the template gives it. -/
def shapes : List (Text × Json) := withEveryKeyingKind template.toValue

/-- The defaults, with the fields of the keying kinds the default kind does not have. -/
def defaults : List (Text × Json) := withEveryKeyingKind (Config.withCallsign "N0CALL".toList).toValue

/-- The JSON type of a value. -/
inductive TypeName where
  | boolean
  | integer
  | number
  | string
  | null
  | array
  | object
  deriving DecidableEq

def typeName : Json → TypeName
  | .scalar (.bool _) => .boolean
  | .scalar (.int _) => .integer
  | .scalar (.float _) => .number
  | .scalar (.string _) => .string
  | .scalar .null => .null
  | .array _ => .array
  | .object _ => .object

/-- A type's name with its article, for a sentence. -/
def TypeName.word : TypeName → String
  | .boolean => "true or false"
  | .integer => "whole number"
  | .number => "number"
  | _ => "text"

/-- Whether a value is of the type a setting has. -/
def fits (key : Text) (value : Json) (type_ : TypeName) : Bool :=
  match value, type_ with
  | .scalar .null, _ => (ruleFor key).nullable
  | .scalar (.bool _), .boolean | .scalar (.string _), .string | .scalar (.int _), .number | .scalar (.float _), .number
  | .scalar (.int _), .integer => true
  | _, _ => false

/-- A setting, described. -/
structure Setting where
  key : Text
  type_ : TypeName
  default_ : Json
  scope : Scope
  deriving DecidableEq

/-- The registry: every setting, described. -/
def schema : List Setting :=
  (shapes.filter (·.1 ≠ "schema_version".toList)).map fun shape =>
    { key := shape.1
      type_ := typeName shape.2
      default_ := ((defaults.find? (·.1 = shape.1)).map Prod.snd).getD (.scalar .null)
      scope := (ruleFor shape.1).scope }

/-- A value as an option list has it. -/
def optionText : Json → Text
  | .scalar (.string s) => s
  | .scalar (.int n) => (toString n).toList
  | other => (Library.display other).toList

/-- A bound as it is displayed: a whole number, the smallest positive apart. -/
def boundText (bound : ℚ) : String := toString bound.num

/-- How a value fails its rule, in a sentence, or nothing when it does not. -/
def violation (key : Text) (value : Json) : Option String :=
  let rule := ruleFor key
  let name := String.ofList key
  let options := ", ".intercalate rule.options
  if value = .scalar .null then none
  else if rule.options ≠ [] ∧ optionText value ∉ rule.options.map String.toList then
    some s!"{name} must be one of {options}, not {Library.display value}: {rule.why}"
  else match asF64 value with
    | none => none
    | some number =>
      if rule.min.any (number < ·) || rule.max.any (· < number) then
        let bound := match rule.min, rule.max with
          | some min, some max =>
            if min = positive then s!"above 0 and at most {boundText max}" else s!"between {boundText min} and {boundText max}"
          | some min, none => if min = positive then "above 0" else s!"at least {boundText min}"
          | none, some max => s!"at most {boundText max}"
          | none, none => ""
        some s!"{name} must be {bound}, not {Library.display value}: {rule.why}"
      else none

/-- Every leaf of a serialised configuration, held to its rule. -/
def checkBounds (document : Json) : Except String Unit :=
  match (leaves [] document).findSome? fun leaf => violation leaf.1 leaf.2 with
  | some reason => .error reason
  | none => .ok ()

/-! ### Callsigns and locators -/

/-- The text between quotes. -/
def quoted (text : Text) : String := s!"\"{String.ofList text}\""

def FrameError.toText : FrameError → String
  | .tooShort => "frame is shorter than its header requires"
  | .unknownKind k => s!"unknown frame kind {k}"
  | .badLength => "declared length runs past the end of the frame"
  | .badCallsign => "callsign is empty, too long, or has bad characters"
  | .outOfRange => "value outside its eight-bit range"

def validateCallsign (call : Text) : Except String Unit :=
  match packCallsign call with
  | .ok _ => .ok ()
  | .error e => .error s!"keying: callsign {quoted call}: {FrameError.toText e}"

/-- Whether a text is a four- or six-character locator. -/
def isLocator (grid : Text) : Bool :=
  let field (c : Char) : Bool := 'A' ≤ c && c ≤ 'R'
  let digit (c : Char) : Bool := '0' ≤ c && c ≤ '9'
  let sub (c : Char) : Bool := 'A' ≤ c && c ≤ 'X'
  match Text.clean grid with
  | [a, b, c, d] => field a && field b && digit c && digit d
  | [a, b, c, d, e, f] => field a && field b && digit c && digit d && sub e && sub f
  | _ => false

/-- A letter and a digit among it: a location, where a modifier or a call area is none. -/
def namesAPlace (part : Text) : Bool :=
  part.any (fun c => '0' ≤ c && c ≤ '9') && part.any fun c => ('A' ≤ c && c ≤ 'Z') || ('a' ≤ c && c ≤ 'z')

/-- The index of the last of the longest parts, by their bytes. -/
def longest (parts : List Text) : Option Nat :=
  (parts.zipIdx.foldl (fun best part =>
    let bytes := (Text.asBytes part.1).length
    match best with
    | some (most, _) => if most ≤ bytes then some (bytes, part.2) else best
    | none => some (bytes, part.2)) none).map Prod.snd

/-- The part of a callsign that says where its station operates. -/
def locationOf (callsign : Text) : Text :=
  let call := ((Text.clean callsign).splitOn '-').head?.getD []
  let parts := (call.splitOn '/').filter (!·.isEmpty)
  match longest parts with
  | none => []
  | some base =>
    (((parts.take base).head?.or ((parts.drop (base + 1)).find? namesAPlace)).getD (parts.getD base []))

/-- Whether a prefix is one allocated to the United States. -/
def isUnitedStates (location : Text) : Bool :=
  match location with
  | 'K' :: _ | 'N' :: _ | 'W' :: _ => true
  | 'A' :: second :: _ => 'A' ≤ second && second ≤ 'L'
  | _ => false

/-- Whether identifying as a callsign requires the Morse identifier. -/
def requiredFor (callsign : Text) : Bool := isUnitedStates (locationOf callsign)

/-! ### A configuration checked -/

/-- Whether a speed in words a minute is one to identify at. -/
def Double.copied : Double → Bool
  | .finite q => 5 ≤ q && q ≤ 40
  | _ => false

namespace Config

variable (config : Config)

def callsign : Text := config.value .callsign

def grid : Text := config.value .operatorGrid

def cwId : Bool := config.value .radioCwId

def cwIdWpm : Double := config.value .radioCwIdWpm

/-- Whether the keying section has what its protocol needs. -/
def addressed : Bool :=
  match config.ptt with
  | .cat _ protocol _ civAddress _ => protocol.1 ≠ "icom".toList || civAddress.isSome
  | _ => true

def simListen : Option Text := config.value .simListen

def simConnect : Option Text := config.value .simConnect

def controlEnabled : Bool := config.value .controlEnabled

def controlBind : Text := config.value .controlBind

def controlToken : Option Text := config.value .controlToken

/-- The values checked against what the modem can actually do. -/
def validate : Except String Unit := do
  if (Text.trim config.callsign).isEmpty then throw "a callsign is required"
  validateCallsign config.callsign
  if !config.grid.isEmpty && !isLocator config.grid then
    throw s!"[operator] grid {quoted config.grid} is not a Maidenhead locator (EM73 or EM73tv)"
  checkBounds config.toValue
  if !config.addressed then
    throw "[ptt] protocol = \"icom\" needs civ_address, the radio's CI-V address (0x94 for an IC-7300, 0xA4 for an IC-705, 0xA2 for an IC-9700)"
  if config.simListen.isSome && config.simConnect.isSome then
    throw "[sim] listen and connect are alternatives; set one of them"
  if (config.cwId || requiredFor config.callsign) && !config.cwIdWpm.copied then
    throw s!"cw_id_wpm is {Library.displayDouble config.cwIdWpm}; below 5 an identifier takes longer than the transmission and above 40 very few people can copy it"
  if config.controlEnabled && !Library.loopback config.controlBind && config.controlToken.isNone then
    throw s!"control.bind is {String.ofList config.controlBind}, which is reachable from the network, and this interface can key a transmitter. Set control.token, or bind to 127.0.0.1."

end Config

end AetherHF.Settings

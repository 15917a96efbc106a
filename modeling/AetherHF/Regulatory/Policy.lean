import AetherHF.Regulatory.Profile

/-! The regulatory policy: whether a transmission is lawful where it would go. The question
is always the range of frequencies it covers: the dial, the sideband and the audio edges. -/
namespace AetherHF.Regulatory

/-- How the station is controlled. -/
inductive ControlMode where
  | «local»
  | remote
  | automatic
  deriving DecidableEq, Repr

inductive LicenseClass where
  | novice
  | technician
  | general
  | advanced
  | extra
  deriving DecidableEq, Repr

def LicenseClass.name : LicenseClass → String
  | .novice => "novice"
  | .technician => "technician"
  | .general => "general"
  | .advanced => "advanced"
  | .extra => "extra"

def LicenseClass.title : LicenseClass → String
  | .novice => "Novice"
  | .technician => "Technician"
  | .general => "General"
  | .advanced => "Advanced"
  | .extra => "Amateur Extra"

inductive Sideband where
  | usb
  | lsb
  deriving DecidableEq, Repr

def Sideband.name : Sideband → String
  | .usb => "usb"
  | .lsb => "lsb"

/-- What a transmission is, as the rules class it. -/
inductive EmissionKind where
  | data
  | cw
  | test
  | nothing
  deriving DecidableEq, Repr

def EmissionKind.name : EmissionKind → String
  | .data => "data"
  | .cw => "cw"
  | .test => "test"
  | .nothing => "nothing"

/-- Who began the exchange a transmission belongs to. -/
inductive Direction where
  | originate
  | respond
  | operator
  deriving DecidableEq, Repr

inductive DialSource where
  | radio
  | declared
  deriving DecidableEq, Repr

/-- Everything about the station the rules need, besides the transmission itself. -/
structure Situation where
  dialHz : Option ℚ
  dialSource : Option DialSource
  sideband : Option Sideband
  control : Option ControlMode
  license : Option LicenseClass
  ituRegion : Nat
  /-- Room kept between the occupied edges and a segment's. -/
  marginHz : ℚ
  bandPlan : Bool
  powerW : Option ℚ
  deriving DecidableEq

structure Transmission where
  what : String
  kind : EmissionKind
  audio : Edges
  direction : Direction
  deriving DecidableEq

inductive Verdict where
  | legal
  | warning
  | blocked
  deriving DecidableEq, Repr

/-- A decision and everything that went into it. -/
structure Decision where
  verdict : Verdict
  code : String
  rule : String
  summary : String
  detail : String
  what : String
  kind : EmissionKind
  direction : Direction
  dialHz : Option ℚ
  dialSource : Option DialSource
  sideband : Option Sideband
  control : Option ControlMode
  license : Option LicenseClass
  audioLowHz : ℚ
  audioHighHz : ℚ
  rfLowHz : Option ℚ
  rfHighHz : Option ℚ
  bandwidthHz : ℚ
  marginHz : ℚ
  band : Option String
  segment : Option Range
  segmentRule : Option String
  automaticSegment : Option Range
  guidance : Option String
  notes : List String
  deriving DecidableEq

/-- Whether the transmission may go. -/
def Decision.allowed (decision : Decision) : Bool := decision.verdict ≠ .blocked

/-- Leave to transmit: a decision that allows it. -/
structure Authorization where
  decision : Decision
  allowed : decision.allowed = true

/-- The policy in force. -/
inductive Policy where
  | unset
  | noProfile
  | rules (profile : Profile)
  | broken (error : String)

/-- The RF range an audio range covers on a dial and a sideband. -/
def rfRange (dialHz : ℚ) (sideband : Sideband) (audioLow audioHigh : ℚ) : ℚ × ℚ :=
  match sideband with
  | .usb => (dialHz + audioLow, dialHz + audioHigh)
  | .lsb => (dialHz - audioHigh, dialHz - audioLow)

def privilegesOf (profile : Profile) : LicenseClass → List Privilege
  | .extra => profile.privileges.extra
  | .advanced => profile.privileges.advanced
  | .general => profile.privileges.general
  | .technician => profile.privileges.technician
  | .novice => profile.privileges.novice

def channelRange (channels : Channels) (channel : Channel) : Range where
  lowHz := channel.centerHz - channels.widthHz / 2
  highHz := channel.centerHz + channels.widthHz / 2

/-! ### Decisions being made -/

/-- The facts, before the verdict. -/
structure Draft where
  what : String
  kind : EmissionKind
  direction : Direction
  s : Situation
  audio : ℚ × ℚ
  rf : Option (ℚ × ℚ)
  band : Option String
  segment : Option (Range × String)
  automaticSegment : Option Range
  notes : List String

namespace Draft

def new (s : Situation) (tx : Transmission) (reading : Reading) : Draft where
  what := tx.what
  kind := tx.kind
  direction := tx.direction
  s
  audio := tx.audio.range reading
  rf := match s.dialHz, s.sideband with
    | some dial, some sideband =>
      some (rfRange dial sideband (tx.audio.range reading).1 (tx.audio.range reading).2)
    | _, _ => none
  band := none
  segment := none
  automaticSegment := none
  notes := []

variable (d : Draft)

def width : ℚ := d.audio.2 - d.audio.1

def finish (verdict : Verdict) (code rule summary detail : String) : Decision where
  verdict
  code
  rule
  summary
  detail
  what := d.what
  kind := d.kind
  direction := d.direction
  dialHz := d.s.dialHz
  dialSource := d.s.dialSource
  sideband := d.s.sideband
  control := d.s.control
  license := d.s.license
  audioLowHz := d.audio.1
  audioHighHz := d.audio.2
  rfLowHz := d.rf.map Prod.fst
  rfHighHz := d.rf.map Prod.snd
  bandwidthHz := d.audio.2 - d.audio.1
  marginHz := d.s.marginHz
  band := d.band
  segment := d.segment.map Prod.fst
  segmentRule := d.segment.map Prod.snd
  automaticSegment := d.automaticSegment
  guidance := none
  notes := d.notes

def blocked (code rule summary detail : String) : Decision := d.finish .blocked code rule summary detail

def legal (code rule summary detail : String) : Decision := d.finish .legal code rule summary detail

@[simp] theorem allowed_blocked (code rule summary detail : String) :
    (d.blocked code rule summary detail).allowed = false := rfl

@[simp] theorem allowed_legal (code rule summary detail : String) :
    (d.legal code rule summary detail).allowed = true := rfl

end Draft

/-- Kilohertz with three decimals. -/
def atHz (hz : ℚ) : String := fixed 3 (hz / 1000) ++ " kHz"

/-- The facts every judgement works from. -/
structure Case where
  profile : Profile
  s : Situation
  tx : Transmission
  control : ControlMode
  license : LicenseClass
  dial : ℚ
  /-- The RF edges of the transmission. -/
  lo : ℚ
  hi : ℚ
  /-- The same edges widened by the margin: what has to fit. -/
  glo : ℚ
  ghi : ℚ
  /-- An automatically controlled station, not an operator's test. -/
  automatic : Bool
  rfText : String

/-- A refusal before any rule is reached. -/
structure Missing where
  code : String
  rule : String
  summary : String
  detail : String

/-- What the question needs, first: nothing is guessed. -/
def prerequisites (profile : Profile) (s : Situation) (tx : Transmission) (d : Draft) : Except Missing Case :=
  if s.ituRegion ≠ profile.ituRegion then .error
    { code := "region"
      rule := "§97.301"
      summary := "TX BLOCKED: this profile does not cover your ITU region"
      detail := "The " ++ profile.name ++ " tables cover ITU Region " ++ toString profile.ituRegion ++
        " only; this station is set to Region " ++ toString s.ituRegion ++ "." }
  else match s.control with
    | none => .error
      { code := "no_control"
        rule := "§97.109"
        summary := "TX BLOCKED: say how the station is controlled (Setup, step 1)"
        detail := "Local, remote or automatic control decides which rules apply (§97.109); " ++
          "Aether does not guess it." }
    | some control => match s.license with
      | none => .error
        { code := "no_license"
          rule := "§97.301"
          summary := "TX BLOCKED: set your license class (Setup, step 1)"
          detail := "The frequencies a station may use depend on the control operator's license " ++
            "class (§97.301); Aether does not assume one." }
      | some license => match s.sideband with
        | none => .error
          { code := "no_sideband"
            rule := ""
            summary := "TX BLOCKED: set the sideband the radio transmits on"
            detail := "Where the signal lands depends on whether the radio sends the modem's audio " ++
              "on the upper or the lower sideband." }
        | some sideband => match s.dialHz, d.rf with
          | some dial, some (lo, hi) => .ok
            { profile, s, tx, control, license, dial, lo, hi
              glo := lo - s.marginHz
              ghi := hi + s.marginHz
              automatic := control = .automatic && tx.direction ≠ .operator
              rfText := d.what ++ " occupies " ++ fixed 0 d.width ++ " Hz of audio (" ++ fixed 0 d.audio.1 ++ "–" ++
                fixed 0 d.audio.2 ++ " Hz), so " ++ atHz lo ++ "–" ++ atHz hi ++ " on the air with the dial at " ++
                atHz dial ++ " (" ++ sideband.name.toUpper ++ ")" }
          | _, _ => .error
            { code := "no_dial"
              rule := ""
              summary := "TX BLOCKED: the dial frequency is not known"
              detail := "Aether needs the radio's dial frequency to know where the signal lands. CAT " ++
                "or rigctld keying reads it from the radio; with serial-line keying, enter it " ++
                "on the Session tab (Dial)." }

/-! ### Judgements -/

/-- The reminder of one power limit. -/
def powerNote (s : Situation) (license : LicenseClass) (lo hi : ℚ) (decision : Decision) (limit : PowerLimit) : Decision :=
  let applies := limit.range.overlaps lo hi && limit.classes.all fun c => c.any (· == license.name)
  match s.powerW.filter (limit.maxW < ·) with
  | some power =>
    if applies then
      { decision with
        verdict := .warning
        notes := decision.notes ++ ["At " ++ fixed 0 power ++ " W: " ++
          (if limit.classes.isSome then "a Novice or Technician" else "a station") ++ " is limited to " ++
          display limit.maxW ++ " W " ++ limit.measure ++ " here (" ++ limit.rule ++ ")."] }
    else decision
  | none => decision

/-- What the voluntary band plan has to add. -/
def planNote (s : Situation) (profile : Profile) (lo hi : ℚ) (decision : Decision) : Decision :=
  match if s.bandPlan then profile.bandPlan else none with
  | none => decision
  | some plan => match plan.avoid.find? (·.range.overlaps lo hi) with
    | some avoid =>
      { decision with
        verdict := .warning
        guidance := some ("Legal under Part 97, but on " ++ avoid.label ++ " (" ++ plan.authority ++ ", voluntary).") }
    | none => match plan.data.find? (·.range.holds lo hi) with
      | some area =>
        { decision with
          guidance := some ("Inside the band plan's " ++ area.label ++ " (" ++ plan.authority ++ ").") }
      | none =>
        { decision with
          verdict := .warning
          summary := "FCC warning: legal under Part 97, but outside the customary digital band plan"
          guidance := some ("Legal under Part 97; the " ++ plan.authority ++
            " puts data elsewhere on this band. It is voluntary.") }

/-- A lawful data transmission, with what the operator should know. -/
def advise (profile : Profile) (s : Situation) (license : LicenseClass) (decision : Decision) (lo hi : ℚ) : Decision :=
  planNote s profile lo hi (profile.power.foldl (powerNote s license lo hi) decision)

/-- How far a range is past a segment's edges, both ways. -/
def distance (lo hi : ℚ) (segment : Segment) : ℚ :=
  max (segment.range.lowHz - lo) 0 + max (hi - segment.range.highHz) 0

/-- `min_by` of the distance: the first of the nearest. -/
def nearest (lo hi : ℚ) (segments : List Segment) : Option Segment :=
  segments.foldl (fun best segment => match best with
    | none => some segment
    | some best => if distance lo hi segment < distance lo hi best then some segment else some best) none

/-- Data outside every data segment: how far outside, or that there is none here. -/
def outsideSegment (profile : Profile) (d : Draft) (lo hi m : ℚ) (rfText : String) : Decision :=
  match nearest lo hi (profile.dataSegments.filter (·.range.overlaps (lo - m) (hi + m))) with
  | some seg =>
    let below := max (seg.range.lowHz - lo) 0
    let above := max (hi - seg.range.highHz) 0
    let (amount, edge) := if below ≤ above then (above, "upper") else (below, "lower")
    let (summary, detail) :=
      if 0 < amount then
        ("TX BLOCKED: signal extends " ++ fixed 0 amount ++ " Hz beyond the FCC data segment",
          rfText ++ ": " ++ fixed 0 amount ++ " Hz beyond the " ++ edge ++ " edge of the " ++ seg.band ++
            " data segment " ++ seg.range.khz ++ " (" ++ seg.rule ++ ").")
      else
        ("TX BLOCKED: signal too close to the edge of the FCC data segment",
          rfText ++ ": inside the " ++ seg.band ++ " data segment " ++ seg.range.khz ++ " but closer than the " ++
            fixed 0 m ++ " Hz margin to its " ++ edge ++ " edge (" ++ seg.rule ++ ").")
    { d with segment := some (seg.range, seg.rule) }.blocked "outside_data_segment" seg.rule summary detail
  | none =>
    d.blocked "no_data_here" "§97.305(c)" "TX BLOCKED: data is not authorized on this frequency"
      (rfText ++ ": RTTY and data emissions are not authorized there (§97.305(c)); the data " ++
        "segments are the lower parts of the bands.")

/-- The operator's privileges for an emission: the rule, the summary and the reasoning when
they do not reach. -/
def privilegeRefusal (privileges : List Privilege) (license : LicenseClass) (glo ghi : ℚ) (emission rfText : String) :
    Option (String × String × String) :=
  match privileges.find? (·.range.holds glo ghi) with
  | some p =>
    if p.allows emission then none
    else some ("§97.307(f)(9)", "TX BLOCKED: your license class may send only CW here",
      rfText ++ ": " ++ license.title ++ " privileges there allow " ++
        (", ".intercalate (p.emissions.getD [])).toUpper ++ " only (" ++ p.rule.getD "§97.301" ++ ").")
  | none => some ("§97.301", "TX BLOCKED: outside your license class's privileges",
      rfText ++ ": outside the " ++ license.title ++ " privileges (§97.301).")

/-- Data from an automatically controlled station. -/
def automaticData (profile : Profile) (s : Situation) (tx : Transmission) (d : Draft) (glo ghi : ℚ) (rfText : String)
    (segment : Segment) : Decision :=
  let width := d.width
  let license := s.license.getD .extra
  match profile.automatic.segments.find? (·.holds glo ghi) with
  | some auto =>
    let decision := { d with automaticSegment := some auto }.legal "automatic_segment" profile.automatic.segmentsRule
      ("FCC: automatic control — permitted inside the §97.221(b) segment " ++ auto.khz)
      (rfText ++ ": inside the automatic-control segment " ++ auto.khz ++ " (" ++ profile.automatic.segmentsRule ++
        "), within the " ++ segment.band ++ " data segment (" ++ segment.rule ++ ").")
    advise profile s license decision (glo + s.marginHz) (ghi - s.marginHz)
  | none => match profile.automatic.elsewhere with
    | none =>
      d.blocked "automatic_outside" profile.automatic.segmentsRule
        "TX BLOCKED: automatic station outside the automatic-control segments"
        (rfText ++ ": automatic control is allowed only inside the " ++ profile.automatic.segmentsRule ++ " segments.")
    | some elsewhere =>
      if elsewhere.maxBandwidthHz < width then
        d.blocked "automatic_bandwidth" elsewhere.rule
          ("TX BLOCKED: automatic station using a " ++ fixed 0 width ++ " Hz emission outside the §97.221(b) segments")
          (rfText ++ ": outside the automatic-control segments (" ++ profile.automatic.segmentsRule ++
            "), an automatically controlled station may transmit only " ++ fixed 0 elsewhere.maxBandwidthHz ++
            " Hz or less (" ++ elsewhere.rule ++ "), and " ++ d.what ++ " measures " ++ fixed 0 width ++ " Hz.")
      else if elsewhere.requiresResponse && tx.direction ≠ .respond then
        d.blocked "automatic_originate" elsewhere.rule
          ("TX BLOCKED: " ++ fixed 0 width ++ " Hz automatic transmission outside §97.221(b) may only respond to a " ++
            "locally or remotely controlled station")
          (rfText ++ ": outside the automatic-control segments (" ++ profile.automatic.segmentsRule ++
            "), an automatically controlled station may transmit only while responding to interrogation by a " ++
            "station under local or remote control (" ++ elsewhere.rule ++ "); this transmission would start an exchange.")
      else
        let decision := d.legal "automatic_response" elsewhere.rule
          ("FCC: automatic control — answering at " ++ fixed 0 width ++ " Hz, within §97.221(c)'s " ++
            fixed 0 elsewhere.maxBandwidthHz ++ " Hz")
          (rfText ++ ": outside the automatic-control segments, responding to interrogation with " ++ fixed 0 width ++
            " Hz, no more than " ++ fixed 0 elsewhere.maxBandwidthHz ++ " Hz (" ++ elsewhere.rule ++ ").")
        advise profile s license decision (glo + s.marginHz) (ghi - s.marginHz)

/-- A data emission off the channels' band. -/
def judgeData (c : Case) (band : String) (d : Draft) : Decision :=
  let profile := c.profile
  let width := d.width
  let segment := profile.dataSegments.find? (·.range.holds c.glo c.ghi)
  let (limit, limitRule) := match segment with
    | some seg => seg.dataLimit profile.data
    | none => (profile.data.maxBandwidthHz, profile.data.rule)
  if limit < width then
    d.blocked "too_wide" limitRule ("TX BLOCKED: the signal is wider than " ++ fixed 1 (limit / 1000) ++ " kHz")
      (c.rfText ++ ": " ++ fixed 0 width ++ " Hz is wider than the " ++ fixed 0 limit ++
        " Hz a RTTY or data emission may occupy.")
  else match segment with
    | none => outsideSegment profile d c.lo c.hi c.s.marginHz c.rfText
    | some segment =>
      let d := { d with segment := some (segment.range, segment.rule) }
      match privilegeRefusal (privilegesOf profile c.license) c.license c.glo c.ghi "data" c.rfText with
      | some (rule, summary, detail) => d.blocked "privilege" rule summary detail
      | none =>
        if c.automatic then automaticData profile c.s c.tx d c.glo c.ghi c.rfText segment
        else
          let controlWord := match c.control with
            | .local => "local control"
            | .remote => "remote control"
            | .automatic => "an operator at the control point"
          let decision := d.legal "permitted" segment.rule
            ("FCC: data permitted — occupies " ++ fixed 0 width ++ " Hz by the FCC's 26 dB measure, inside the " ++ band ++
              " data segment")
            (c.rfText ++ ": inside the " ++ band ++ " data segment " ++ segment.range.khz ++ " (" ++ segment.rule ++
              "), within " ++ c.license.title ++ " privileges, under " ++ controlWord ++ ".")
          advise profile c.s c.license decision c.lo c.hi

/-- A Morse identification, a tune tone, or a keying with no audio. -/
def judgeOther (c : Case) (d : Draft) : Decision :=
  let privileges := privilegesOf c.profile c.license
  let refusal :=
    if c.tx.kind = .nothing then
      if privileges.any (·.range.holds c.dial c.dial) then none
      else some (c.profile.privileges.rule, "TX BLOCKED: the dial is outside your privileges",
        "The dial, " ++ atHz c.dial ++ ", is outside the " ++ c.license.title ++
          " privileges: the transmitter is not keyed there, even with no audio.")
    else privilegeRefusal privileges c.license c.glo c.ghi (if c.tx.kind = .cw then "cw" else "test") c.rfText
  match refusal with
  | some (rule, summary, detail) => d.blocked "privilege" rule summary detail
  | none =>
    let (rule, summary) := match c.tx.kind with
      | .cw => ("§97.305(a)", "FCC: CW permitted anywhere in your privileges")
      | .test => ("§97.305(b)", "FCC: a brief test emission, permitted in your privileges")
      | _ => ("§97.301", "FCC: keying only — no emission")
    d.legal "permitted" rule summary
      (c.rfText ++ ": within " ++ c.license.title ++ " privileges (" ++ rule ++ ").")

/-! ### 60 m -/

/-- On a channel: a CW carrier on its centre; a data emission on the channel's sideband, its
carrier where the rules put it, and all of it inside the channel. -/
def sixtyChannel (c : Case) (channels : Channels) (channel : Channel) (d : Draft) : Decision :=
  let range := channelRange channels channel
  let d := { d with segment := some (range, channels.rule) }
  let (ok, why) :=
    if c.tx.kind = .cw then
      (decide (|(c.lo + c.hi) / 2 - channel.centerHz| ≤ channels.carrierToleranceHz),
        "a CW emission's carrier goes on the centre frequency, " ++ atHz channel.centerHz)
    else
      let carrier := channel.centerHz - channels.carrierOffsetHz
      ((c.s.sideband.any fun sb => sb.name == channels.sideband) &&
          decide (|c.dial - carrier| ≤ channels.carrierToleranceHz) && range.holds c.glo c.ghi,
        "a data emission goes on " ++ channels.sideband.toUpper ++ " with its carrier (the dial) at " ++ atHz carrier ++
          " and all of it inside the channel " ++ range.khz)
  if !ok then
    d.blocked "sixty_channel" channels.rule "TX BLOCKED: not set up for the 60 m channel"
      (c.rfText ++ ": on the 60 m channel centred on " ++ atHz channel.centerHz ++ ", " ++ why ++ " (" ++
        channels.rule ++ ").")
  else
    let above := c.s.powerW.filter (100 < ·)
    let d := match above with
      | some power => { d with
          notes := d.notes ++ ["At " ++ fixed 0 power ++ " W: 60 m channels are limited to 100 W ERP (§97.313(i)); the " ++
            "antenna's gain counts."] }
      | none => d
    let decision := d.legal "sixty_channel" channels.rule "FCC: 60 m channel — permitted on the channel"
      (c.rfText ++ ": on the 60 m channel " ++ range.khz ++ " (" ++ channels.rule ++ "). " ++ channels.why)
    { decision with
      notes := decision.notes ++ ["60 m is shared with government stations: keep transmissions short " ++
        "(§97.307(f)(14)(ii)); only one signal at a time on a channel (band plan)."]
      verdict := if above.isSome then .warning else decision.verdict }

/-- Inside the 60 m segment. -/
def sixtySegment (c : Case) (segment : Segment) (d : Draft) : Decision :=
  let profile := c.profile
  let d := { d with segment := some (segment.range, segment.rule) }
  if c.tx.kind = .data ∧ profile.data.maxBandwidthHz < d.width then
    d.blocked "too_wide" profile.data.rule "TX BLOCKED: the signal is wider than 2.8 kHz"
      (c.rfText ++ ": wider than 2.8 kHz (" ++ profile.data.rule ++ ").")
  else
    let decision := d.legal "sixty_segment" segment.rule "FCC: 60 m segment — permitted (9.15 W ERP limit)"
      (c.rfText ++ ": inside the 60 m segment " ++ segment.range.khz ++ " (" ++ segment.rule ++
        "). Radiated power there is limited to 9.15 W ERP (§97.313(i)).")
    match c.s.powerW.filter (915 / 100 < ·) with
    | some power =>
      { decision with
        verdict := .warning
        notes := decision.notes ++ ["At " ++ fixed 0 power ++
          " W: the 5351.5–5366.5 kHz segment is limited to 9.15 W ERP (§97.313(i))."] }
    | none => decision

/-- The channels' band: the operator's privileges and the band's own emissions, then a
channel or the segment. -/
def sixty (c : Case) (channels : Channels) (d : Draft) : Decision :=
  let profile := c.profile
  let m := c.s.marginHz
  if !(privilegesOf profile c.license).any (·.range.holds c.lo c.hi) then
    d.blocked "privilege" "§97.301" "TX BLOCKED: outside your license class's privileges"
      (c.rfText ++ ": outside the " ++ c.license.title ++ " privileges (§97.301).")
  else if c.tx.kind = .nothing then
    d.legal "permitted" "§97.301" "FCC: keying only — no emission" c.rfText
  else match profile.sixtyMeterEmissions.filter fun allowed => !allowed.allowed.any (· == c.tx.kind.name) with
    | some allowed =>
      d.blocked "sixty_emission" allowed.rule "TX BLOCKED: this emission is not allowed on 60 m"
        (c.rfText ++ ": on 60 m a station may transmit only " ++ (", ".intercalate allowed.allowed).toUpper ++ " (" ++
          allowed.rule ++ "); tune up on another band.")
    | none => match channels.list.find? fun ch => (channelRange channels ch).overlaps (c.lo - m) (c.hi + m) with
      | some channel => sixtyChannel c channels channel d
      | none => match profile.dataSegments.find? fun seg => seg.band == channels.band && seg.range.holds c.glo c.ghi with
        | some segment => sixtySegment c segment d
        | none =>
          d.blocked "sixty_off_channel" channels.rule "TX BLOCKED: not on a 60 m channel or in the 60 m segment"
            (c.rfText ++ ": on 60 m a station transmits only on the four channels or inside 5351.5–5366.5 kHz (" ++
              channels.rule ++ ").")

/-- Judge a transmission against an administration's rules. -/
def evaluate (profile : Profile) (s : Situation) (tx : Transmission) (d : Draft) : Decision :=
  match prerequisites profile s tx d with
  | .error missing => d.blocked missing.code missing.rule missing.summary missing.detail
  | .ok c => match profile.bandHolding c.glo c.ghi with
    | none =>
      d.blocked "out_of_band" "§97.301" "TX BLOCKED: the signal is outside the amateur bands"
        (match profile.bandTouching c.glo c.ghi with
        | some band => c.rfText ++ ": it crosses the edge of the " ++ band.name ++ " band (" ++ band.range.khz ++
            "), counting " ++ fixed 0 s.marginHz ++ " Hz of margin."
        | none => c.rfText ++ ": outside the amateur bands this profile covers.")
    | some band =>
      let d := { d with band := some band.name }
      match if c.automatic then profile.automatic.excludedBands.find? (·.band == band.name) else none with
      | some x => d.blocked "automatic_excluded" x.rule ("TX BLOCKED: no automatic operation on " ++ band.name) x.why
      | none => match profile.channels.filter (·.band == band.name) with
        | some channels => sixty c channels d
        | none => if tx.kind = .data then judgeData c band.name d else judgeOther c d

namespace Policy

def reading : Policy → Reading
  | .rules profile => profile.reading
  | _ => .wider

/-- Judge a transmission. -/
def evaluate (policy : Policy) (s : Situation) (tx : Transmission) : Decision :=
  let draft := Draft.new s tx policy.reading
  match policy with
  | .unset => draft.blocked "no_profile" "" "TX BLOCKED: choose a regulatory profile (Setup, step 1)"
      ("Aether does not know which rules this station operates under. Choose the " ++
        "United States (FCC Part 97) profile, or \"none\" if another administration's " ++
        "rules apply and you will check every transmission yourself.")
  | .broken error => draft.blocked "profile_broken" "" "TX BLOCKED: the regulatory profile could not be read"
      (error ++ ". Nothing is sent until it can be.")
  | .noProfile => draft.legal "no_rules" "" "No regulatory profile: you check every transmission"
      ("The operator has chosen no regulatory profile: Aether makes no regulatory " ++
        "checks, and the control operator is responsible for every transmission.")
  | .rules profile => Regulatory.evaluate profile s tx draft

/-- Judge a transmission, and hand back leave to send it when it may go. -/
def authorize (policy : Policy) (s : Situation) (tx : Transmission) : Except Decision Authorization :=
  let decision := policy.evaluate s tx
  if allowed : decision.allowed = true then .ok ⟨decision, allowed⟩ else .error decision

end Policy

end AetherHF.Regulatory

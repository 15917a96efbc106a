import AetherHF.Regulatory.Profile

/-! The United States profile: the bands, segments and privileges of 47 CFR Part 97 for ITU
Region 2, as its file has them. -/
namespace AetherHF.Regulatory.UsFcc

def bands : List Band := [
  ⟨"160 m", ⟨1800000, 2000000⟩⟩,
  ⟨"80 m", ⟨3500000, 4000000⟩⟩,
  ⟨"60 m", ⟨5330500, 5406400⟩⟩,
  ⟨"40 m", ⟨7000000, 7300000⟩⟩,
  ⟨"30 m", ⟨10100000, 10150000⟩⟩,
  ⟨"20 m", ⟨14000000, 14350000⟩⟩,
  ⟨"17 m", ⟨18068000, 18168000⟩⟩,
  ⟨"15 m", ⟨21000000, 21450000⟩⟩,
  ⟨"12 m", ⟨24890000, 24990000⟩⟩,
  ⟨"10 m", ⟨28000000, 29700000⟩⟩,
  ⟨"6 m", ⟨50000000, 54000000⟩⟩]

def dataSegments : List Segment := [
  { band := "160 m", range := ⟨1800000, 2000000⟩, rule := "§97.305(c)(2)(iii)" },
  { band := "80 m", range := ⟨3500000, 3600000⟩, rule := "§97.305(c)(3)(i)" },
  { band := "60 m", range := ⟨5351500, 5366500⟩, rule := "§97.303(h)(3), §97.305(c)(3)(iii), §97.307(f)(14)" },
  { band := "40 m", range := ⟨7000000, 7125000⟩, rule := "§97.305(c)(3)(iv), (vi)" },
  { band := "30 m", range := ⟨10100000, 10150000⟩, rule := "§97.305(c)(3)(viii)" },
  { band := "20 m", range := ⟨14000000, 14150000⟩, rule := "§97.305(c)(3)(ix)" },
  { band := "17 m", range := ⟨18068000, 18110000⟩, rule := "§97.305(c)(3)(xi)" },
  { band := "15 m", range := ⟨21000000, 21200000⟩, rule := "§97.305(c)(3)(xiii)" },
  { band := "12 m", range := ⟨24890000, 24930000⟩, rule := "§97.305(c)(3)(xv)" },
  { band := "10 m", range := ⟨28000000, 28300000⟩, rule := "§97.305(c)(3)(xvii)" },
  { band := "6 m", range := ⟨50100000, 54000000⟩, rule := "§97.305(c)(4)(i), (ii)"
    maxBandwidthHz := some 2800, bandwidthRule := some "§97.307(f)(2), (5)" }]

def channels : Channels where
  band := "60 m"
  rule := "§97.303(h)(3)"
  widthHz := 2800
  carrierOffsetHz := 1500
  carrierToleranceHz := 10
  sideband := "usb"
  list := [⟨5332000⟩, ⟨5348000⟩, ⟨5373000⟩, ⟨5405000⟩]
  why := "On the four discrete channels a data emission's carrier is set 1.5 kHz below the centre " ++
    "frequency and a CW emission's at the centre; all 60 m emissions stay within 2.8 kHz. Aether's " ++
    "waveform is centred 1.5 kHz above its dial on USB, so its dial goes on the carrier frequency " ++
    "and it lands on the centre. The carrier is accepted within 10 Hz of the prescribed frequency."

def extra : List Privilege := [
  ⟨⟨1800000, 2000000⟩, none, none⟩,
  ⟨⟨3500000, 4000000⟩, none, none⟩,
  ⟨⟨5330500, 5406400⟩, none, none⟩,
  ⟨⟨7000000, 7300000⟩, none, none⟩,
  ⟨⟨10100000, 10150000⟩, none, none⟩,
  ⟨⟨14000000, 14350000⟩, none, none⟩,
  ⟨⟨18068000, 18168000⟩, none, none⟩,
  ⟨⟨21000000, 21450000⟩, none, none⟩,
  ⟨⟨24890000, 24990000⟩, none, none⟩,
  ⟨⟨28000000, 29700000⟩, none, none⟩,
  ⟨⟨50000000, 54000000⟩, none, none⟩]

def advanced : List Privilege := [
  ⟨⟨1800000, 2000000⟩, none, none⟩,
  ⟨⟨3525000, 3600000⟩, none, none⟩,
  ⟨⟨3700000, 4000000⟩, none, none⟩,
  ⟨⟨5330500, 5406400⟩, none, none⟩,
  ⟨⟨7025000, 7300000⟩, none, none⟩,
  ⟨⟨10100000, 10150000⟩, none, none⟩,
  ⟨⟨14025000, 14150000⟩, none, none⟩,
  ⟨⟨14175000, 14350000⟩, none, none⟩,
  ⟨⟨18068000, 18168000⟩, none, none⟩,
  ⟨⟨21025000, 21200000⟩, none, none⟩,
  ⟨⟨21225000, 21450000⟩, none, none⟩,
  ⟨⟨24890000, 24990000⟩, none, none⟩,
  ⟨⟨28000000, 29700000⟩, none, none⟩,
  ⟨⟨50000000, 54000000⟩, none, none⟩]

def general : List Privilege := [
  ⟨⟨1800000, 2000000⟩, none, none⟩,
  ⟨⟨3525000, 3600000⟩, none, none⟩,
  ⟨⟨3800000, 4000000⟩, none, none⟩,
  ⟨⟨5330500, 5406400⟩, none, none⟩,
  ⟨⟨7025000, 7125000⟩, none, none⟩,
  ⟨⟨7175000, 7300000⟩, none, none⟩,
  ⟨⟨10100000, 10150000⟩, none, none⟩,
  ⟨⟨14025000, 14150000⟩, none, none⟩,
  ⟨⟨14225000, 14350000⟩, none, none⟩,
  ⟨⟨18068000, 18168000⟩, none, none⟩,
  ⟨⟨21025000, 21200000⟩, none, none⟩,
  ⟨⟨21275000, 21450000⟩, none, none⟩,
  ⟨⟨24890000, 24990000⟩, none, none⟩,
  ⟨⟨28000000, 29700000⟩, none, none⟩,
  ⟨⟨50000000, 54000000⟩, none, none⟩]

def technician : List Privilege := [
  ⟨⟨3525000, 3600000⟩, some ["cw"], some "§97.307(f)(9)"⟩,
  ⟨⟨7025000, 7125000⟩, some ["cw"], some "§97.307(f)(9)"⟩,
  ⟨⟨21025000, 21200000⟩, some ["cw"], some "§97.307(f)(9)"⟩,
  ⟨⟨28000000, 28300000⟩, some ["cw", "rtty", "data"], some "§97.305(c)(3)(xvii)"⟩,
  ⟨⟨28300000, 28500000⟩, some ["cw", "phone"], some "§97.307(f)(10)"⟩,
  ⟨⟨50000000, 54000000⟩, none, some "§97.301(a)"⟩]

def novice : List Privilege := [
  ⟨⟨3525000, 3600000⟩, some ["cw"], some "§97.307(f)(9)"⟩,
  ⟨⟨7025000, 7125000⟩, some ["cw"], some "§97.307(f)(9)"⟩,
  ⟨⟨21025000, 21200000⟩, some ["cw"], some "§97.307(f)(9)"⟩,
  ⟨⟨28000000, 28300000⟩, some ["cw", "rtty", "data"], some "§97.305(c)(3)(xvii)"⟩,
  ⟨⟨28300000, 28500000⟩, some ["cw", "phone"], some "§97.307(f)(10)"⟩]

def automatic : Automatic where
  segments := [⟨3585000, 3600000⟩, ⟨7100000, 7105000⟩, ⟨10140000, 10150000⟩, ⟨14095000, 14099500⟩,
    ⟨14100500, 14112000⟩, ⟨18105000, 18110000⟩, ⟨21090000, 21100000⟩, ⟨24925000, 24930000⟩,
    ⟨28120000, 28189000⟩, ⟨50000000, 54000000⟩]
  segmentsRule := "§97.221(b)"
  elsewhere := some ⟨500, true, "§97.221(c)"⟩
  excludedBands := [⟨"60 m", "§97.221(c)",
    "§97.221(c) excepts the 60 m channels of §97.303(h) from automatic control, and whether it " ++
    "reaches the 5351.5-5366.5 kHz segment as well is not clear; Aether does not operate " ++
    "automatically anywhere on 60 m."⟩]

def power : List PowerLimit := [
  { range := ⟨10100000, 10150000⟩, maxW := 200, measure := "PEP", rule := "§97.313(c)(1)" },
  { range := ⟨3525000, 3600000⟩, maxW := 200, measure := "PEP", classes := some ["novice", "technician"], rule := "§97.313(c)(2)" },
  { range := ⟨7025000, 7125000⟩, maxW := 200, measure := "PEP", classes := some ["novice", "technician"], rule := "§97.313(c)(2)" },
  { range := ⟨21025000, 21200000⟩, maxW := 200, measure := "PEP", classes := some ["novice", "technician"], rule := "§97.313(c)(2)" },
  { range := ⟨28000000, 28500000⟩, maxW := 200, measure := "PEP", classes := some ["novice", "technician"], rule := "§97.313(c)(2)" },
  { range := ⟨5351500, 5366500⟩, maxW := (183 / 20), measure := "ERP", rule := "§97.313(i)" },
  { range := ⟨5330500, 5406400⟩, maxW := 100, measure := "ERP", rule := "§97.313(i)" },
  { range := ⟨1800000, 29700000⟩, maxW := 1500, measure := "PEP", rule := "§97.313(b)" },
  { range := ⟨50000000, 54000000⟩, maxW := 1500, measure := "PEP", rule := "§97.313(b)" }]

def bandPlan : BandPlan where
  authority := "ARRL band plan (voluntary)"
  data := [
    ⟨⟨1800000, 1810000⟩, "160 m digital modes"⟩,
    ⟨⟨3570000, 3600000⟩, "80 m RTTY/data"⟩,
    ⟨⟨5330500, 5406400⟩, "60 m: one signal at a time on a channel; the 5351.5-5366.5 kHz segment for several low-power users"⟩,
    ⟨⟨7080000, 7125000⟩, "40 m RTTY/data"⟩,
    ⟨⟨10130000, 10150000⟩, "30 m RTTY and packet"⟩,
    ⟨⟨14070000, 14099500⟩, "20 m RTTY and packet"⟩,
    ⟨⟨14100500, 14112000⟩, "20 m packet"⟩,
    ⟨⟨18100000, 18110000⟩, "17 m RTTY and packet"⟩,
    ⟨⟨21070000, 21110000⟩, "15 m RTTY/data"⟩,
    ⟨⟨24920000, 24930000⟩, "12 m RTTY and packet"⟩,
    ⟨⟨28070000, 28150000⟩, "10 m RTTY"⟩,
    ⟨⟨28120000, 28189000⟩, "10 m automatically controlled data"⟩,
    ⟨⟨50600000, 50800000⟩, "6 m non-voice communications"⟩]
  avoid := [
    ⟨⟨14099500, 14100500⟩, "the NCDXF/IARU beacons on 14.100 MHz"⟩,
    ⟨⟨28200000, 28300000⟩, "10 m beacons"⟩,
    ⟨⟨50060000, 50080000⟩, "the 6 m beacon sub-band"⟩,
    ⟨⟨50619000, 50621000⟩, "the 6 m digital (packet) calling frequency, 50.62 MHz"⟩,
    ⟨⟨50800000, 51000000⟩, "the 6 m radio remote control channels"⟩]

/-- 47 CFR Part 97. -/
def profile : Profile where
  id := "us-fcc-part97"
  name := "United States — FCC Part 97"
  ituRegion := 2
  reading := .wider
  data := ⟨2800, "§97.307(f)(3)"⟩
  bands
  dataSegments
  channels := some channels
  sixtyMeterEmissions := some ⟨["data", "rtty", "phone", "cw"], "§97.307(f)(14)(i)"⟩
  privileges := ⟨extra, advanced, general, technician, novice, "§97.301(a)-(e)"⟩
  automatic
  power
  bandPlan := some bandPlan

end AetherHF.Regulatory.UsFcc

namespace AetherHF.Regulatory

/-- Load a profile by identifier. -/
def load (id : String) : Except String Profile :=
  if id = "us-fcc-part97" then
    match UsFcc.profile.check with
    | .ok () => .ok UsFcc.profile
    | .error error => .error error
  else .error ("there is no regulatory profile called " ++ id.quote)

theorem load_us : load "us-fcc-part97" = .ok UsFcc.profile := by decide +kernel

end AetherHF.Regulatory

import Mathlib.Data.List.Nodup
import AetherHF.Base.Lists
import AetherHF.Base.Numeral
import AetherHF.Link.Control
import AetherHF.Link.Datagram

/-! Callsigns on the air: nine characters of six bits in seven bytes. What is packed
unpacks to the text trimmed and in capitals, its NULs left out: the padding character
is one of the alphabet, so a NUL in a text is packed and not unpacked. -/
namespace AetherHF.Link

open Numeral (value digits)

/-! ### The alphabet -/

theorem callAlphabet_nodup : callAlphabet.Nodup := by decide

/-- A code and its character. -/
def Coded (p : Nat) (c : UInt8) : Prop := callAlphabet[p]? = some c

theorem Coded.lt {p : Nat} {c : UInt8} (coded : Coded p c) : p < 64 := by
  have inside := (List.getElem?_eq_some_iff.mp coded).1
  have length : callAlphabet.length = 39 := by decide
  omega

theorem idxOf?_coded {p : Nat} {c : UInt8} : callAlphabet.idxOf? c = some p ↔ Coded p c := by
  unfold Coded
  rw [List.idxOf?_eq_some_iff, List.getElem?_eq_some_iff]
  constructor
  · rintro ⟨inside, here, _⟩
    exact ⟨inside, here⟩
  · rintro ⟨inside, here⟩
    refine ⟨inside, here, fun j before there => ?_⟩
    have same := callAlphabet_nodup.getElem_inj_iff.mp (there.trans here.symm)
    omega

theorem Coded.unique {p : Nat} {c d : UInt8} (coded : Coded p c) (coded' : Coded p d) : c = d :=
  Option.some.inj (coded.symm.trans coded')

theorem coded_zero : Coded 0 0 := rfl

theorem Coded.eq_zero {p : Nat} (coded : Coded p 0) : p = 0 := by
  have first : Coded 0 0 := coded_zero
  exact Option.some.inj ((idxOf?_coded.mpr coded).symm.trans (idxOf?_coded.mpr first))

/-! ### Six bits a character -/

theorem shift_or (v : UInt64) {p : Nat} (room : v.toNat < 2 ^ 58) (small : p < 64) :
    ((v <<< 6) ||| UInt64.ofNat p).toNat = v.toNat * 64 + p := by
  have word : (UInt64.ofNat p).toNat = p := UInt64.toNat_ofNat_of_lt' (small.trans (by decide))
  have shift : (v <<< 6).toNat = v.toNat <<< 6 := by
    rw [UInt64.toNat_shiftLeft, show ((6 : UInt64).toNat % 64) = 6 from rfl, Nat.shiftLeft_eq]
    exact Nat.mod_eq_of_lt (by omega)
  have apart := Nat.shiftLeft_add_eq_or_of_lt (i := 6) (b := p) (by omega) v.toNat
  rw [UInt64.toNat_or, word, shift, ← apart, Nat.shiftLeft_eq]

theorem packStep_coded {v w : UInt64} {c : UInt8} :
    packStep v c = .ok w ↔ ∃ p, Coded p c ∧ w = (v <<< 6) ||| UInt64.ofNat p := by
  unfold packStep
  cases found : callAlphabet.idxOf? c with
  | none =>
    refine ⟨nofun, fun ⟨p, coded, _⟩ => ?_⟩
    rw [idxOf?_coded.mpr coded] at found
    cases found
  | some p =>
    refine ⟨fun same => ⟨p, idxOf?_coded.mp found, (Except.ok.inj same).symm⟩, fun ⟨q, coded, is⟩ => ?_⟩
    rw [idxOf?_coded.mpr coded] at found
    cases found
    rw [is]

/-- What packs is in the alphabet. -/
theorem packSteps_coded {characters : Bytes} {v w : UInt64} (packed : characters.foldlM packStep v = .ok w) :
    ∃ codes, List.Forall₂ Coded codes characters := by
  induction characters generalizing v with
  | nil => exact ⟨[], .nil⟩
  | cons c rest ih =>
    rw [List.foldlM_cons] at packed
    cases first : packStep v c with
    | error error =>
      rw [first] at packed
      cases packed
    | ok u =>
      rw [first] at packed
      obtain ⟨p, coded, _⟩ := packStep_coded.mp first
      obtain ⟨codes, rest⟩ := ih packed
      exact ⟨p :: codes, .cons coded rest⟩

/-- And packs to the number its codes write. -/
theorem packSteps_value {characters : Bytes} {codes : List Nat} (before : List Nat) (v : UInt64)
    (coded : List.Forall₂ Coded codes characters) (small : ∀ p ∈ before, p < 64)
    (start : v.toNat = value 64 before) (room : before.length + codes.length ≤ 9) :
    ∃ w, characters.foldlM packStep v = .ok w ∧ w.toNat = value 64 (before ++ codes) := by
  induction coded generalizing v before with
  | nil => exact ⟨v, rfl, by simpa using start⟩
  | @cons p c codes rest first _ ih =>
    have bound := Numeral.value_lt small
    have fits : 64 ^ before.length ≤ 64 ^ 9 := Nat.pow_le_pow_right (by decide) (by simp at room; omega)
    have step := shift_or v (p := p) (by omega) first.lt
    obtain ⟨w, packed, number⟩ := ih (before ++ [p]) ((v <<< 6) ||| UInt64.ofNat p)
      (by simpa [or_imp, forall_and] using ⟨small, first.lt⟩) (by rw [step, start, Numeral.value_concat])
      (by simp at room ⊢; omega)
    refine ⟨w, ?_, by simpa using number⟩
    rw [List.foldlM_cons, packStep_coded.mpr ⟨p, first, rfl⟩]
    exact packed

/-! ### Seven bytes -/

theorem lowBytes_digits (w : UInt64) : (lowBytes w).map UInt8.toNat = digits 256 callBytes w.toNat := by
  unfold lowBytes digits
  rw [List.map_map]
  refine List.map_congr_left fun i below => ?_
  have below := List.mem_range.mp below
  rw [show callBytes = 7 from rfl] at below ⊢
  have amount : (UInt64.ofNat (8 * (7 - 1 - i))).toNat % 64 = 8 * (7 - 1 - i) := by
    rw [UInt64.toNat_ofNat_of_lt' (by rw [UInt64.size]; omega)]
    omega
  simp only [Function.comp_apply, UInt64.toNat_toUInt8, UInt64.toNat_shiftRight, amount]
  rw [Nat.shiftRight_eq_div_pow, Nat.pow_mul]

theorem foldl_bytes (raw : Bytes) (before : List Nat) (v : UInt64) (small : ∀ d ∈ before, d < 256)
    (start : v.toNat = value 256 before) (room : before.length + raw.length ≤ 7) :
    (raw.foldl (fun (value : UInt64) byte => (value <<< 8) ||| byte.toUInt64) v).toNat =
      value 256 (before ++ raw.map UInt8.toNat) := by
  induction raw generalizing v before with
  | nil => simpa using start
  | cons byte rest ih =>
    have bound := Numeral.value_lt small
    have fits : 256 ^ before.length ≤ 256 ^ 6 := Nat.pow_le_pow_right (by decide) (by simp at room; omega)
    have shift : (v <<< 8).toNat = v.toNat <<< 8 := by
      rw [UInt64.toNat_shiftLeft, show ((8 : UInt64).toNat % 64) = 8 from rfl, Nat.shiftLeft_eq]
      exact Nat.mod_eq_of_lt (by omega)
    have apart := Nat.shiftLeft_add_eq_or_of_lt (i := 8) (b := byte.toNat) byte.toNat_lt v.toNat
    have step : ((v <<< 8) ||| byte.toUInt64).toNat = value 256 (before ++ [byte.toNat]) := by
      rw [UInt64.toNat_or, shift, UInt8.toNat_toUInt64, ← apart, Nat.shiftLeft_eq, start, Numeral.value_concat]
    have rest := ih (before ++ [byte.toNat]) ((v <<< 8) ||| byte.toUInt64)
      (by simpa [or_imp, forall_and] using ⟨small, byte.toNat_lt⟩) step (by simp at room ⊢; omega)
    simpa using rest

/-- The six-bit groups of seven bytes. -/
def callCodes (raw : Bytes) : List Nat := digits 64 callMaxChars (value 256 (raw.map UInt8.toNat) / 4)

/-- The character of a code. -/
def callCharacter (code : Nat) : Except FrameError UInt8 :=
  match callAlphabet[code]? with
  | some character => .ok character
  | none => .error .badCallsign

/-- The characters of nine codes, the padding left out. -/
def spoken (characters : Bytes) : Text := (characters.filter (· ≠ 0)).map fun c => Char.ofNat c.toNat

theorem callCharacter_ok {code : Nat} {c : UInt8} : callCharacter code = .ok c ↔ Coded code c := by
  unfold callCharacter Coded
  cases callAlphabet[code]? with
  | none => exact ⟨nofun, nofun⟩
  | some character =>
    exact ⟨fun same => congrArg some (Except.ok.inj same), fun same => congrArg Except.ok (Option.some.inj same)⟩

theorem mapM_callCharacter {codes : List Nat} {characters : Bytes} :
    codes.mapM callCharacter = .ok characters ↔ List.Forall₂ Coded codes characters := by
  induction codes generalizing characters with
  | nil => exact ⟨by rintro ⟨⟩; exact .nil, by rintro ⟨⟩; rfl⟩
  | cons code rest ih =>
    rw [List.mapM_cons]
    constructor
    · cases first : callCharacter code with
      | error error => exact nofun
      | ok c =>
        cases later : rest.mapM callCharacter with
        | error error => exact nofun
        | ok more =>
          rintro ⟨⟩
          exact .cons (callCharacter_ok.mp first) (ih.mp later)
    · rintro ⟨⟩
      rename_i c more first later
      rw [callCharacter_ok.mpr first, ih.mpr later]
      rfl

/-- Unpacking reads the codes one by one. -/
theorem unpackCallsign_eq {raw : Bytes} (seven : raw.length = callBytes) :
    unpackCallsign raw = ((callCodes raw).mapM callCharacter).map spoken := by
  have whole : raw.take callBytes = raw := List.take_of_length_le seven.le
  have packed := foldl_bytes raw [] 0 nofun rfl (by rw [seven]; decide)
  rw [List.nil_append] at packed
  unfold unpackCallsign
  rw [if_neg (by omega), whole]
  generalize raw.foldl _ _ = word at packed
  have each (i : Nat) (below : i < 9) :
      (((word >>> 2) >>> UInt64.ofNat (6 * (callMaxChars - 1 - i))) &&& 0x3F).toNat =
        word.toNat / 4 / 64 ^ (callMaxChars - 1 - i) % 64 := by
    rw [show callMaxChars = 9 from rfl]
    have amount : (UInt64.ofNat (6 * (9 - 1 - i))).toNat % 64 = 6 * (9 - 1 - i) := by
      rw [UInt64.toNat_ofNat_of_lt' (by rw [UInt64.size]; omega)]
      omega
    simp only [UInt64.toNat_and, show (0x3F : UInt64).toNat = 2 ^ 6 - 1 from rfl, Nat.and_two_pow_sub_one_eq_mod,
      UInt64.toNat_shiftRight, amount, show ((2 : UInt64).toNat % 64) = 2 from rfl, Nat.shiftRight_eq_div_pow]
    rw [Nat.pow_mul]
  have codes : ((List.range callMaxChars).map fun i =>
      (((word >>> 2) >>> UInt64.ofNat (6 * (callMaxChars - 1 - i))) &&& 0x3F).toNat) = callCodes raw := by
    rw [callCodes, ← packed]
    exact List.map_congr_left fun i below => each i (List.mem_range.mp below)
  simp only [bind, Except.bind, pure, Except.pure]
  rw [codes]
  generalize looked : List.mapM (m := Except FrameError) _ (callCodes raw) = characters
  have here : (callCodes raw).mapM callCharacter = characters := looked
  rw [here]
  cases characters with
  | error error => rfl
  | ok characters => rfl

theorem unpackCallsign_coded {raw : Bytes} {characters : Bytes} (seven : raw.length = callBytes)
    (coded : List.Forall₂ Coded (callCodes raw) characters) : unpackCallsign raw = .ok (spoken characters) := by
  rw [unpackCallsign_eq seven, mapM_callCharacter.mpr coded]
  rfl

/-- What unpacks does so through its codes. -/
theorem unpackCallsign_ok {raw : Bytes} {name : Text} (seven : raw.length = callBytes)
    (unpacked : unpackCallsign raw = .ok name) :
    ∃ characters, List.Forall₂ Coded (callCodes raw) characters ∧ name = spoken characters := by
  rw [unpackCallsign_eq seven] at unpacked
  cases looked : (callCodes raw).mapM callCharacter with
  | error error =>
    rw [looked] at unpacked
    cases unpacked
  | ok characters =>
    rw [looked] at unpacked
    exact ⟨characters, mapM_callCharacter.mp looked, (Except.ok.inj unpacked).symm⟩

/-! ### Text and its bytes -/

theorem utf8EncodeChar_ascii {c : Char} (ascii : c.toNat < 128) :
    String.utf8EncodeChar c = [UInt8.ofNat c.toNat] :=
  if_pos (Nat.le_of_lt_succ ascii)

/-- The last byte of a character beyond ASCII is beyond it too. -/
theorem utf8EncodeChar_beyond {c : Char} (beyond : ¬c.toNat < 128) :
    ∃ b ∈ String.utf8EncodeChar c, 128 ≤ b.toNat := by
  have ascii : ¬c.val.toNat ≤ 127 := fun small => beyond (Nat.lt_succ_of_le small)
  have last : UInt8.ofNat (c.val.toNat % 0x40 + 0x80) ∈ String.utf8EncodeChar c := by
    unfold String.utf8EncodeChar
    rw [if_neg ascii]
    split
    · simp
    · split <;> simp
  refine ⟨_, last, ?_⟩
  rw [UInt8.toNat_ofNat']
  omega

/-- Bytes below 128 are those of an ASCII text, one each. -/
theorem asBytes_ascii {text : Text} (ascii : ∀ b ∈ Text.asBytes text, b.toNat < 128) :
    (∀ c ∈ text, c.toNat < 128) ∧ Text.asBytes text = text.map fun c => UInt8.ofNat c.toNat := by
  induction text with
  | nil => exact ⟨nofun, rfl⟩
  | cons c rest ih =>
    have split : Text.asBytes (c :: rest) = String.utf8EncodeChar c ++ Text.asBytes rest := rfl
    rw [split] at ascii ⊢
    obtain ⟨small, same⟩ := ih fun b member => ascii b (List.mem_append_right _ member)
    by_cases below : c.toNat < 128
    · exact ⟨by simpa using ⟨below, small⟩, by rw [utf8EncodeChar_ascii below, same]; rfl⟩
    · obtain ⟨b, member, beyond⟩ := utf8EncodeChar_beyond below
      have := ascii b (List.mem_append_left _ member)
      omega

theorem asBytes_of_ascii {text : Text} (ascii : ∀ c ∈ text, c.toNat < 128) :
    Text.asBytes text = text.map fun c => UInt8.ofNat c.toNat := by
  induction text with
  | nil => rfl
  | cons c rest ih =>
    have split : Text.asBytes (c :: rest) = String.utf8EncodeChar c ++ Text.asBytes rest := rfl
    rw [split, ih fun d member => ascii d (List.mem_cons_of_mem _ member),
      utf8EncodeChar_ascii (ascii c (List.mem_cons_self ..))]
    rfl

theorem char_ofNat_byte {c : Char} (ascii : c.toNat < 128) :
    Char.ofNat (UInt8.ofNat c.toNat).toNat = c := by
  rw [UInt8.toNat_ofNat', Nat.mod_eq_of_lt (by omega), Char.ofNat_toNat]

/-- The NUL character. -/
def nul : Char := Char.ofNat 0

theorem byte_eq_zero {c : Char} (ascii : c.toNat < 128) : UInt8.ofNat c.toNat = 0 ↔ c = nul := by
  constructor
  · intro zero
    rw [← char_ofNat_byte ascii, zero]
    rfl
  · rintro rfl
    rfl

theorem spoken_ascii {text : Text} (ascii : ∀ c ∈ text, c.toNat < 128) :
    spoken (text.map fun c => UInt8.ofNat c.toNat) = text.filter (· ≠ nul) := by
  induction text with
  | nil => rfl
  | cons c rest ih =>
    have below := ascii c (List.mem_cons_self ..)
    have later := ih fun d member => ascii d (List.mem_cons_of_mem _ member)
    unfold spoken at later ⊢
    by_cases zero : c = nul
    · have none_ : UInt8.ofNat nul.toNat = 0 := rfl
      simpa [zero, none_] using later
    · have kept := (byte_eq_zero below).not.mpr zero
      simp only [List.map_cons, ne_eq, kept, not_false_eq_true, decide_true, List.filter_cons_of_pos, zero,
        char_ofNat_byte below, later]

/-! ### There and back -/

/-- Nine bytes of a shorter text. -/
def padded (upper : Bytes) : Bytes := upper ++ List.replicate (callMaxChars - upper.length) 0

theorem padded_eq {upper : Bytes} (fits : upper.length ≤ callMaxChars) :
    ((List.range callMaxChars).map fun index => upper.getD index 0) = padded upper := by
  unfold padded
  refine List.ext_getElem (by simp; omega) fun i _ _ => ?_
  simp only [List.getElem_map, List.getElem_range, List.getD_eq_getElem?_getD]
  by_cases inside : i < upper.length
  · rw [List.getElem_append_left inside, List.getElem?_eq_getElem inside, Option.getD_some]
  · rw [List.getElem_append_right (by omega), List.getElem_replicate,
      List.getElem?_eq_none (by omega), Option.getD_none]

theorem spoken_padded (upper : Bytes) : spoken (padded upper) = spoken upper := by
  unfold spoken padded
  rw [List.filter_append]
  simp

/-- What packing a callsign comes to. -/
theorem packCallsign_ok {call : Text} {raw : Bytes} :
    packCallsign call = .ok raw ↔ Text.asBytes (Text.clean call) ≠ [] ∧
      (Text.asBytes (Text.clean call)).length ≤ callMaxChars ∧
      ∃ w, (padded (Text.asBytes (Text.clean call))).foldlM packStep 0 = .ok w ∧ raw = lowBytes (w <<< 2) := by
  unfold packCallsign
  by_cases refused : (Text.asBytes (Text.clean call)).isEmpty ∨
      (Text.asBytes (Text.clean call)).length > callMaxChars
  · rw [if_pos (by simpa using refused)]
    refine ⟨nofun, fun ⟨some_, fits, _⟩ => ?_⟩
    rcases refused with empty | long
    · exact absurd (List.isEmpty_iff.mp empty) some_
    · omega
  · obtain ⟨some_, fits⟩ := not_or.mp refused
    have some_ : Text.asBytes (Text.clean call) ≠ [] := fun none_ => some_ (by rw [none_]; rfl)
    rw [if_neg (by simpa using refused)]
    simp only [bind, Except.bind, pure, Except.pure, padded_eq (Nat.le_of_not_lt fits)]
    cases (padded (Text.asBytes (Text.clean call))).foldlM packStep 0 with
    | error error => exact ⟨nofun, fun ⟨_, _, _, packed, _⟩ => nomatch packed⟩
    | ok w =>
      refine ⟨fun same => ⟨some_, by omega, w, rfl, (Except.ok.inj same).symm⟩, ?_⟩
      rintro ⟨_, _, _, ⟨⟩, rfl⟩
      rfl

theorem value_shift {w : UInt64} {codes : List Nat} (nine : codes.length = 9) (small : ∀ p ∈ codes, p < 64)
    (number : w.toNat = value 64 codes) : (w <<< 2).toNat = 4 * value 64 codes := by
  have bound := Numeral.value_lt small
  rw [nine] at bound
  rw [UInt64.toNat_shiftLeft, show ((2 : UInt64).toNat % 64) = 2 from rfl, Nat.shiftLeft_eq, number]
  omega

theorem Coded.ascii {p : Nat} {c : UInt8} (coded : Coded p c) : c.toNat < 128 := by
  have each : ∀ c ∈ callAlphabet, c.toNat < 128 := by decide +kernel
  exact each c (List.mem_of_getElem? coded)

/-- The number of a packed callsign is in its seven bytes. -/
theorem callCodes_lowBytes {w : UInt64} {codes : List Nat} (nine : codes.length = 9) (small : ∀ p ∈ codes, p < 64)
    (number : w.toNat = value 64 codes) : callCodes (lowBytes (w <<< 2)) = codes := by
  have bound := Numeral.value_lt small
  rw [nine] at bound
  have fits : 4 * value 64 codes < 256 ^ 7 := by omega
  unfold callCodes
  rw [lowBytes_digits, value_shift nine small number, show callBytes = 7 from rfl, Numeral.value_digits fits,
    Nat.mul_div_cancel_left _ (by decide), show callMaxChars = 9 from rfl, ← nine]
  exact Numeral.digits_value small

theorem length_padded {upper : Bytes} (fits : upper.length ≤ callMaxChars) : (padded upper).length = 9 := by
  unfold padded
  simp only [List.length_append, List.length_replicate, callMaxChars] at fits ⊢
  omega

/-- A callsign packed unpacks to its text trimmed and in capitals, less its NULs. -/
theorem unpack_pack {call : Text} {raw : Bytes} (packed : packCallsign call = .ok raw) :
    raw.length = callBytes ∧ unpackCallsign raw = .ok ((Text.clean call).filter (· ≠ nul)) := by
  obtain ⟨_, fits, w, steps, rfl⟩ := packCallsign_ok.mp packed
  obtain ⟨codes, coded⟩ := packSteps_coded steps
  have nine : codes.length = 9 := coded.length_eq.trans (length_padded fits)
  have small : ∀ p ∈ codes, p < 64 := fun p member => by
    obtain ⟨c, _, code⟩ := forall₂_mem coded member
    exact code.lt
  obtain ⟨w', steps', number⟩ := packSteps_value [] 0 coded nofun rfl (by simp [nine])
  cases steps.symm.trans steps'
  have seven : (lowBytes (w <<< 2)).length = callBytes := by simp [lowBytes]
  have ascii : ∀ b ∈ Text.asBytes (Text.clean call), b.toNat < 128 := fun b member => by
    obtain ⟨p, _, code⟩ := forall₂_mem coded.flip (List.mem_append_left _ member)
    exact Coded.ascii code
  obtain ⟨chars, bytes⟩ := asBytes_ascii ascii
  refine ⟨seven, ?_⟩
  have read := unpackCallsign_coded seven ((callCodes_lowBytes nine small number).symm ▸ coded)
  rw [read, spoken_padded, bytes, spoken_ascii chars]

/-- So the text itself comes back exactly when it holds no NUL. -/
theorem unpack_pack_iff {call : Text} {raw : Bytes} (packed : packCallsign call = .ok raw) :
    unpackCallsign raw = .ok (Text.clean call) ↔ nul ∉ Text.clean call := by
  rw [(unpack_pack packed).2, Except.ok.injEq, List.filter_eq_self]
  constructor
  · intro all member
    simpa using all nul member
  · intro none_ c member
    have other : c ≠ nul := fun same => none_ (same ▸ member)
    simpa using other

theorem clean_ne_nil {call : Text} {raw : Bytes} (packed : packCallsign call = .ok raw) : Text.clean call ≠ [] := by
  intro none_
  refine (packCallsign_ok.mp packed).1 ?_
  rw [none_]
  rfl

/-- Texts with no NUL that pack alike are alike. -/
theorem pack_injective {call call' : Text} {raw : Bytes} (packed : packCallsign call = .ok raw)
    (packed' : packCallsign call' = .ok raw) (plain : nul ∉ Text.clean call) (plain' : nul ∉ Text.clean call') :
    Text.clean call = Text.clean call' := by
  have text := (unpack_pack_iff packed).mpr plain
  have text' := (unpack_pack_iff packed').mpr plain'
  exact Except.ok.inj (text.symm.trans text')

/-! ### Bytes of a callsign -/

/-- A character of the alphabet stands in a callsign as it is. -/
theorem Coded.plain {p : Nat} {c : UInt8} (coded : Coded p c) (spoken_ : c ≠ 0) :
    Text.isWhitespace (Char.ofNat c.toNat) = false ∧ Text.upperChar (Char.ofNat c.toNat) = Char.ofNat c.toNat ∧
      (Char.ofNat c.toNat).toNat = c.toNat := by
  have each : ∀ c ∈ callAlphabet, c ≠ 0 → Text.isWhitespace (Char.ofNat c.toNat) = false ∧
      Text.upperChar (Char.ofNat c.toNat) = Char.ofNat c.toNat ∧ (Char.ofNat c.toNat).toNat = c.toNat := by
    decide +kernel
  exact each c (List.mem_of_getElem? coded) spoken_

theorem dropWhile_none {α : Type*} {p : α → Bool} {xs : List α} (none_ : ∀ x ∈ xs, p x = false) :
    xs.dropWhile p = xs := by
  cases xs with
  | nil => rfl
  | cons x rest => exact List.dropWhile_cons_of_neg (by simp [none_ x (List.mem_cons_self ..)])

theorem clean_plain {text : Text}
    (plain : ∀ d ∈ text, Text.isWhitespace d = false ∧ Text.upperChar d = d) : Text.clean text = text := by
  have first := dropWhile_none fun d member => (plain d member).1
  have last : text.reverse.dropWhile Text.isWhitespace = text.reverse :=
    dropWhile_none fun d member => (plain d (List.mem_reverse.mp member)).1
  unfold Text.clean Text.trim Text.toAsciiUppercase
  rw [first, last, List.reverse_reverse]
  exact (List.map_congr_left fun d member => (plain d member).2).trans (List.map_id _)

/-- Codes with no padding before a character: characters, then padding. -/
theorem codes_padded {codes : List Nat} {characters : Bytes} (coded : List.Forall₂ Coded codes characters)
    (inner : codes.Pairwise fun p q => p = 0 → q = 0) :
    ∃ named m, characters = named ++ List.replicate m 0 ∧ ∀ c ∈ named, c ≠ 0 := by
  induction coded with
  | nil => exact ⟨[], 0, rfl, nofun⟩
  | @cons p c codes rest first later ih =>
    obtain ⟨head, tail⟩ := List.pairwise_cons.mp inner
    by_cases zero : c = 0
    · subst zero
      have all : rest = List.replicate rest.length 0 := List.eq_replicate_iff.mpr ⟨rfl, fun d member => by
        obtain ⟨q, among, coded⟩ := forall₂_mem later.flip member
        have pad := head q among first.eq_zero
        subst pad
        exact Coded.unique coded coded_zero⟩
      refine ⟨[], rest.length + 1, ?_, nofun⟩
      rw [List.nil_append, List.replicate_succ, ← all]
    · obtain ⟨named, m, split, spoken_⟩ := ih tail
      exact ⟨c :: named, m, by rw [split]; rfl, by simpa using ⟨zero, spoken_⟩⟩

/-- The two bits below the characters are those of the last byte. -/
theorem value_clear {raw : Bytes} (seven : raw.length = callBytes) (clear : raw.getD 6 0 &&& 0x03 = 0) :
    value 256 (raw.map UInt8.toNat) % 4 = 0 := by
  rw [show callBytes = 7 from rfl] at seven
  obtain ⟨front, last, rfl⟩ := List.eq_nil_or_concat' raw |>.resolve_left (by rintro rfl; cases seven)
  have six : front.length = 6 := by simpa using seven
  have here : (front ++ [last]).getD 6 0 = last := by
    rw [List.getD_append_right _ _ _ _ six.le, six]
    rfl
  rw [here] at clear
  have low : last.toNat % 4 = 0 := by
    have bits := congrArg UInt8.toNat clear
    rwa [UInt8.toNat_and, show (0x03 : UInt8).toNat = 2 ^ 2 - 1 from rfl, Nat.and_two_pow_sub_one_eq_mod] at bits
  rw [List.map_append, List.map_singleton, Numeral.value_concat]
  omega

/-- The characters' number put back in seven bytes. -/
theorem lowBytes_callCodes {raw : Bytes} {w : UInt64} (seven : raw.length = callBytes)
    (clear : raw.getD 6 0 &&& 0x03 = 0) (number : w.toNat = value 64 (callCodes raw)) :
    lowBytes (w <<< 2) = raw := by
  have bytes : ∀ d ∈ raw.map UInt8.toNat, d < 256 := fun d member => by
    obtain ⟨b, _, rfl⟩ := List.mem_map.mp member
    exact b.toNat_lt
  have bound := Numeral.value_lt bytes
  rw [List.length_map, seven, show callBytes = 7 from rfl] at bound
  have fits : value 256 (raw.map UInt8.toNat) / 4 < 64 ^ callMaxChars := by
    rw [show callMaxChars = 9 from rfl]
    omega
  have whole := value_clear seven clear
  have back : 4 * value 64 (callCodes raw) = value 256 (raw.map UInt8.toNat) := by
    unfold callCodes
    rw [Numeral.value_digits fits]
    omega
  have same : (lowBytes (w <<< 2)).map UInt8.toNat = raw.map UInt8.toNat := by
    have nine : (callCodes raw).length = 9 := Numeral.length_digits _ _
    have small : ∀ p ∈ callCodes raw, p < 64 := fun p member => Numeral.digits_lt (by decide) member
    rw [lowBytes_digits, value_shift nine small number, back, ← seven, ← List.length_map (f := UInt8.toNat)]
    exact Numeral.digits_value bytes
  exact List.map_injective_iff.mpr (fun _ _ => UInt8.toNat_inj.mp) same

theorem asBytes_characters {named : Bytes} (coded : ∀ c ∈ named, ∃ p, Coded p c) (spoken_ : ∀ c ∈ named, c ≠ 0) :
    Text.asBytes (Text.clean (named.map fun c => Char.ofNat c.toNat)) = named := by
  have each (c : UInt8) (member : c ∈ named) :
      Text.isWhitespace (Char.ofNat c.toNat) = false ∧ Text.upperChar (Char.ofNat c.toNat) = Char.ofNat c.toNat ∧
        (Char.ofNat c.toNat).toNat = c.toNat := by
    obtain ⟨p, code⟩ := coded c member
    exact code.plain (spoken_ c member)
  have plain : ∀ d ∈ named.map fun c => Char.ofNat c.toNat,
      Text.isWhitespace d = false ∧ Text.upperChar d = d := fun d member => by
    obtain ⟨c, among, rfl⟩ := List.mem_map.mp member
    exact ⟨(each c among).1, (each c among).2.1⟩
  have ascii : ∀ d ∈ named.map fun c => Char.ofNat c.toNat, d.toNat < 128 := fun d member => by
    obtain ⟨c, among, rfl⟩ := List.mem_map.mp member
    obtain ⟨p, code⟩ := coded c among
    rw [(each c among).2.2]
    exact code.ascii
  rw [clean_plain plain, asBytes_of_ascii ascii, List.map_map]
  refine (List.map_congr_left fun c member => ?_).trans (List.map_id _)
  rw [Function.comp_apply, (each c member).2.2, UInt8.ofNat_toNat, id_eq]

theorem spoken_characters {named : Bytes} (spoken_ : ∀ c ∈ named, c ≠ 0) (m : Nat) :
    spoken (named ++ List.replicate m 0) = named.map fun c => Char.ofNat c.toNat := by
  have kept : named.filter (· ≠ 0) = named := List.filter_eq_self.mpr fun c member => by
    simpa using spoken_ c member
  unfold spoken
  rw [List.filter_append, kept]
  simp

/-- Seven bytes that name a station, with no padding but the last, are how it packs. -/
theorem pack_unpack {raw : Bytes} {name : Text} (seven : raw.length = callBytes)
    (clear : raw.getD 6 0 &&& 0x03 = 0) (inner : (callCodes raw).Pairwise fun p q => p = 0 → q = 0)
    (unpacked : unpackCallsign raw = .ok name) (some_ : name ≠ []) : packCallsign name = .ok raw := by
  obtain ⟨characters, coded, rfl⟩ := unpackCallsign_ok seven unpacked
  obtain ⟨named, m, rfl, spoken_⟩ := codes_padded coded inner
  have nine : (callCodes raw).length = 9 := Numeral.length_digits _ _
  have length : named.length + m = 9 := by simpa [nine] using coded.length_eq.symm
  rw [spoken_characters spoken_] at some_ ⊢
  have codes : ∀ c ∈ named, ∃ p, Coded p c := fun c member => by
    obtain ⟨p, _, code⟩ := forall₂_mem coded.flip (List.mem_append_left _ member)
    exact ⟨p, code⟩
  have bytes := asBytes_characters codes spoken_
  have pads : padded named = named ++ List.replicate m 0 := by
    unfold padded
    rw [show callMaxChars - named.length = m from by rw [show callMaxChars = 9 from rfl]; omega]
  obtain ⟨w, packed, number⟩ := packSteps_value [] 0 coded nofun rfl (by simp [nine])
  refine packCallsign_ok.mpr ⟨?_, ?_, w, ?_, (lowBytes_callCodes seven clear number).symm⟩
  · rw [bytes]
    rintro rfl
    exact some_ rfl
  · rw [bytes, show callMaxChars = 9 from rfl]
    omega
  · rw [bytes, pads]
    exact packed

/-! ### Bodies that name stations -/

/-- What two callsigns packed one after the other unpack to. -/
theorem unpack_pair {first second : Text} {raw raw' : Bytes} (rest : Bytes)
    (packed : packCallsign first = .ok raw) (packed' : packCallsign second = .ok raw') :
    unpackCallsign ((raw ++ raw' ++ rest).take callBytes) = .ok ((Text.clean first).filter (· ≠ nul)) ∧
      unpackCallsign (((raw ++ raw' ++ rest).drop callBytes).take callBytes) =
        .ok ((Text.clean second).filter (· ≠ nul)) := by
  obtain ⟨seven, named⟩ := unpack_pack packed
  obtain ⟨seven', named'⟩ := unpack_pack packed'
  constructor
  · rw [List.append_assoc, List.take_left' seven, named]
  · rw [List.append_assoc, List.drop_left' seven, List.take_left' seven', named']

theorem filter_plain {text : Text} (plain : nul ∉ text) : text.filter (· ≠ nul) = text := by
  refine List.filter_eq_self.mpr fun c member => ?_
  have other : c ≠ nul := fun same => plain (same ▸ member)
  simpa using other

/-- Two names that pack, or none of a body that does not. -/
theorem packed_pair {first second : Text} {rest out : Bytes}
    (encoded : (do
      let src ← packCallsign first
      let dst ← packCallsign second
      return src ++ dst ++ rest) = Except.ok out) :
    ∃ src dst, packCallsign first = .ok src ∧ packCallsign second = .ok dst ∧ out = src ++ dst ++ rest := by
  cases packed : packCallsign first with
  | error error =>
    rw [packed] at encoded
    cases encoded
  | ok src =>
    cases packed' : packCallsign second with
    | error error =>
      rw [packed, packed'] at encoded
      cases encoded
    | ok dst =>
      rw [packed, packed'] at encoded
      exact ⟨src, dst, rfl, rfl, (Except.ok.inj encoded).symm⟩

theorem ProbeBody.decode_encode {body : ProbeBody} {out : Bytes} (encoded : body.encode = .ok out)
    (src : nul ∉ Text.clean body.src) (dst : nul ∉ Text.clean body.dst) :
    ∃ read, ProbeBody.decode out = .ok read ∧ read.src = Text.clean body.src ∧ read.dst = Text.clean body.dst := by
  obtain ⟨raw, raw', packed, packed', rfl⟩ := packed_pair encoded
  have seven := (unpack_pack packed).1
  have seven' := (unpack_pack packed').1
  obtain ⟨first, second⟩ := unpack_pair [snrByte body.snrDb, body.caps] packed packed'
  have long : ¬(raw ++ raw' ++ [snrByte body.snrDb, body.caps]).length < probeBodyBytes := by
    simp [seven, seven', probeBodyBytes]
    omega
  unfold ProbeBody.decode
  rw [if_neg long, first, second]
  exact ⟨_, rfl, filter_plain src, filter_plain dst⟩

theorem ConnectBody.decode_encode {body : ConnectBody} {out : Bytes} (encoded : body.encode = .ok out)
    (src : nul ∉ Text.clean body.src) (dst : nul ∉ Text.clean body.dst) :
    ∃ read, ConnectBody.decode out = .ok read ∧ read.src = Text.clean body.src ∧ read.dst = Text.clean body.dst := by
  unfold ConnectBody.encode at encoded
  simp only [List.append_assoc _ [_, _, _] _] at encoded
  obtain ⟨raw, raw', packed, packed', rfl⟩ := packed_pair encoded
  have seven := (unpack_pack packed).1
  have seven' := (unpack_pack packed').1
  generalize timed : ([body.caps, body.version, snrByte body.snrDb] ++
    if body.version ≥ grantedVersion then
      [stepsUp (body.turnaroundS * 10) 15, stepsUp (body.identifierS * 2) 255] else []) = rest
  obtain ⟨first, second⟩ := unpack_pair rest packed packed'
  have long : ¬(raw ++ raw' ++ rest).length < 2 * callBytes + 2 := by
    have three : 3 ≤ rest.length := by
      rw [← timed]
      simp
    simp only [List.length_append, seven, seven']
    omega
  unfold ConnectBody.decode
  rw [if_neg long]
  simp only [first, second]
  exact ⟨_, rfl, filter_plain src, filter_plain dst⟩

/-- A datagram's body with a frame in it, read back. -/
theorem Datagram.parseBody_body {source : Text} {frameType : UInt8} {frame out : Bytes}
    (made : Datagram.body source frameType frame = .ok out) (plain : nul ∉ Text.clean source) (some_ : frame ≠ []) :
    Datagram.parseBody out = some (Text.clean source, frameType, frame) := by
  unfold Datagram.body at made
  split_ifs at made with known
  cases packed : packCallsign source with
  | error error =>
    rw [packed] at made
    cases made
  | ok call =>
    rw [packed] at made
    obtain rfl : call ++ [frameType] ++ frame = out := Except.ok.inj made
    obtain ⟨seven, named⟩ := unpack_pack packed
    have header : (call ++ [frameType]).length = Datagram.headerBytes := by simp [seven, Datagram.headerBytes]
    have long : ¬(call ++ [frameType] ++ frame).length ≤ Datagram.headerBytes := by
      have inside := List.length_pos_of_ne_nil some_
      rw [List.length_append, header]
      omega
    have type_ : (call ++ [frameType] ++ frame).getD callBytes 0 = frameType := by
      rw [List.append_assoc, ← seven]
      simp
    have front : (call ++ [frameType] ++ frame).take callBytes = call := by
      rw [List.append_assoc, List.take_left' seven]
    have name : (Text.clean source).isEmpty = false := by
      simpa using clean_ne_nil packed
    unfold Datagram.parseBody
    rw [type_, if_neg (not_or.mpr ⟨long, not_not.mpr known⟩), front, named, filter_plain plain, List.drop_left' header]
    simp only [name, Bool.false_eq_true, if_false]

/-- Callsigns accepted for the air come back as they were read, wherever they are
packed, and bytes that name a station are how that name packs. -/
theorem callsigns_return :
    (∀ call raw, packCallsign call = .ok raw → nul ∉ Text.clean call →
      unpackCallsign raw = .ok (Text.clean call) ∧ Text.clean call ≠ []) ∧
    (∀ call call' raw, packCallsign call = .ok raw → packCallsign call' = .ok raw →
      nul ∉ Text.clean call → nul ∉ Text.clean call' → Text.clean call = Text.clean call') ∧
    (∀ (body : ConnectBody) out, body.encode = .ok out → nul ∉ Text.clean body.src → nul ∉ Text.clean body.dst →
      ∃ read, ConnectBody.decode out = .ok read ∧
        read.src = Text.clean body.src ∧ read.dst = Text.clean body.dst) ∧
    (∀ (body : ProbeBody) out, body.encode = .ok out → nul ∉ Text.clean body.src → nul ∉ Text.clean body.dst →
      ∃ read, ProbeBody.decode out = .ok read ∧
        read.src = Text.clean body.src ∧ read.dst = Text.clean body.dst) ∧
    (∀ source frameType frame out, Datagram.body source frameType frame = .ok out →
      nul ∉ Text.clean source → frame ≠ [] →
      Datagram.parseBody out = some (Text.clean source, frameType, frame)) ∧
    (∀ raw name, raw.length = callBytes → raw.getD 6 0 &&& 0x03 = 0 →
      (callCodes raw).Pairwise (fun p q => p = 0 → q = 0) → unpackCallsign raw = .ok name → name ≠ [] →
      packCallsign name = .ok raw) := by
  refine ⟨fun call raw packed plain => ⟨(unpack_pack_iff packed).mpr plain, clean_ne_nil packed⟩,
    fun call call' raw => pack_injective, fun body out => ConnectBody.decode_encode,
    fun body out => ProbeBody.decode_encode, fun source frameType frame out => Datagram.parseBody_body,
    fun raw name => pack_unpack⟩

theorem callsigns_return_w1aw :
    unpackCallsign [93, 192, 87, 0, 0, 0, 0] = .ok "W1AW".toList ∧
      (∃ read, ProbeBody.decode ([93, 192, 87, 0, 0, 0, 0] ++ [93, 192, 87, 0, 0, 0, 0] ++ [snrUnknown, 0]) = .ok read ∧
        read.src = "W1AW".toList ∧ read.dst = "W1AW".toList) ∧
      (∃ read, ConnectBody.decode ([93, 192, 87, 0, 0, 0, 0] ++ [93, 192, 87, 0, 0, 0, 0] ++ [0, 1, snrUnknown]) = .ok read ∧
        read.src = "W1AW".toList ∧ read.dst = "W1AW".toList) ∧
      Datagram.parseBody [93, 192, 87, 0, 0, 0, 0, 2, 65] = some ("W1AW".toList, 2, [65]) ∧
      packCallsign "W1AW".toList = .ok [93, 192, 87, 0, 0, 0, 0] :=
  have ⟨texts, _, connects, probes, datagrams, bytes⟩ := callsigns_return
  ⟨(texts " w1aw".toList _ (by decide) (by decide)).1,
    probes ⟨"w1aw".toList, " W1AW".toList, none, 0⟩ _ (by decide) (by decide) (by decide),
    connects ⟨"w1aw".toList, " W1AW".toList, 0, 1, none, 0, 0⟩ _ (by decide) (by decide) (by decide),
    datagrams "w1aw ".toList 2 [65] _ (by decide) (by decide) (by decide),
    bytes _ _ (by decide) (by decide) (by decide) (by decide) (by decide)⟩

/-- A NUL within a callsign packs and is gone when unpacked, and a datagram with no
frame in it is made and not read. -/
theorem nul_unpacked :
    packCallsign ['A', nul, 'B'] = .ok [4, 0, 128, 0, 0, 0, 0] ∧
      unpackCallsign [4, 0, 128, 0, 0, 0, 0] = .ok "AB".toList ∧
      Datagram.body "W1AW".toList 0 [] = .ok [93, 192, 87, 0, 0, 0, 0, 0] ∧
      Datagram.parseBody [93, 192, 87, 0, 0, 0, 0, 0] = none := by
  decide

end AetherHF.Link

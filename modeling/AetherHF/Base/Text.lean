import Mathlib.Data.List.Basic
import Mathlib.Data.List.DropRight

/-! Text as the source's `String`s hold it: a list of characters, measured in the
bytes of its UTF-8 encoding. -/
namespace AetherHF

abbrev Bytes := List UInt8

abbrev Text := List Char

instance : LawfulBEq Text := inferInstance

namespace Text

/-- `char::is_whitespace`: Unicode's `White_Space` property. -/
def isWhitespace (c : Char) : Bool :=
  let n := c.toNat
  (9 ≤ n && n ≤ 13) || n = 0x20 || n = 0x85 || n = 0xA0 || n = 0x1680 ||
    (0x2000 ≤ n && n ≤ 0x200A) || n = 0x2028 || n = 0x2029 || n = 0x202F || n = 0x205F || n = 0x3000

/-- `str::trim`. -/
def trim (text : Text) : Text :=
  ((text.dropWhile isWhitespace).reverse.dropWhile isWhitespace).reverse

theorem trim_eq (text : Text) : trim text = (text.dropWhile isWhitespace).rdropWhile isWhitespace := rfl

theorem trim_trim (text : Text) : trim (trim text) = trim text := by
  rw [trim_eq (trim text), trim_eq]
  cases open_ : text.dropWhile isWhitespace with
  | nil => rfl
  | cons c rest =>
    have solid : ¬isWhitespace c = true := by
      have := List.head?_dropWhile_not isWhitespace text
      simpa [open_] using this
    have stays : (c :: rest).rdropWhile isWhitespace = c :: rest.rdropWhile isWhitespace := by
      by_cases gone : rest.rdropWhile isWhitespace = []
      · have all := List.rdropWhile_eq_nil_iff.mp gone
        rw [gone, List.rdropWhile, List.reverse_cons, List.dropWhile_append]
        have : List.dropWhile isWhitespace rest.reverse = [] :=
          List.dropWhile_eq_nil_iff.mpr fun x m => all x (List.mem_reverse.mp m)
        simp [this, solid]
      · have : List.dropWhile isWhitespace rest.reverse ≠ [] := by simpa [List.rdropWhile] using gone
        rw [List.rdropWhile, List.reverse_cons, List.dropWhile_append]
        simp [this, List.rdropWhile]
    rw [stays, List.dropWhile_cons_of_neg solid, ← stays, List.rdropWhile_idempotent]

def upperChar (c : Char) : Char :=
  if 'a' ≤ c ∧ c ≤ 'z' then Char.ofNat (c.toNat - 32) else c

/-- `str::to_ascii_uppercase`. -/
def toAsciiUppercase (text : Text) : Text := text.map upperChar

/-- `str::as_bytes`. -/
def asBytes (text : Text) : Bytes := text.flatMap String.utf8EncodeChar

/-- What the engine keeps of a callsign it is handed. -/
def clean (text : Text) : Text := toAsciiUppercase (trim text)

end Text

end AetherHF

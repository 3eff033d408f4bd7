namespace ExportVolumes
namespace Text

/-!
The white space characters of the Unicode character database.
-/

/-- Ranges of white space characters, both ends included. -/
def blankRanges : List (Nat × Nat) :=
  [(0x0009, 0x000D), (0x0020, 0x0020), (0x0085, 0x0085), (0x00A0, 0x00A0), (0x1680, 0x1680),
   (0x2000, 0x200A), (0x2028, 0x2029), (0x202F, 0x202F), (0x205F, 0x205F), (0x3000, 0x3000)]

/-- Whether a character is white space. -/
def isBlank (c : Char) : Bool :=
  blankRanges.any (fun range => range.1 ≤ c.toNat && c.toNat ≤ range.2)

/-- A text without the white space that opens it. -/
def dropBlanks (text : List Char) : List Char :=
  text.dropWhile isBlank

end Text
end ExportVolumes

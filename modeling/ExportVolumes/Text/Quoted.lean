namespace ExportVolumes
namespace Text

/-!
Texts in quotes, as messages show them.
-/

/-- Ranges of characters that cannot be seen: control and format characters, separators other
than the space, and private ones. -/
def invisibleRanges : List (Nat × Nat) :=
  [(0x0000, 0x001F), (0x007F, 0x00A0), (0x00AD, 0x00AD), (0x061C, 0x061C), (0x1680, 0x1680),
   (0x180E, 0x180E), (0x2000, 0x200F), (0x2028, 0x202F), (0x205F, 0x206F), (0x3000, 0x3000),
   (0xE000, 0xF8FF), (0xFEFF, 0xFEFF), (0xFFF0, 0xFFFB), (0xE0000, 0x10FFFF)]

/-- Whether a character cannot be seen. -/
def isInvisible (c : Char) : Bool :=
  invisibleRanges.any (fun range => range.1 ≤ c.toNat && c.toNat ≤ range.2)

/-- A character inside of quotes. -/
def quotedChar (c : Char) : List Char :=
  match c with
  | '\x00' => ['\\', '0']
  | '\t' => ['\\', 't']
  | '\r' => ['\\', 'r']
  | '\n' => ['\\', 'n']
  | '"' => ['\\', '"']
  | '\\' => ['\\', '\\']
  | c => if isInvisible c then "\\u\x7b".toList ++ Nat.toDigits 16 c.toNat ++ ['\x7d'] else [c]

/-- A text in quotes. -/
def quoted (text : String) : String :=
  String.ofList ('"' :: text.toList.flatMap quotedChar ++ ['"'])

end Text
end ExportVolumes

import FormFill.Text.Decimal
import FormFill.Text.Glyphless

/-! # Quoted texts

A message shows a text between double quotes. Quotes, backslashes and the common controls are
escaped by a letter, and every other character without a glyph of its own by its code point.
-/

namespace FormFill.Text

/-- The lower-case hexadecimal digits of a number. -/
def hexadecimal (n : Nat) : Text := Nat.toDigits 16 n

/-- How a character stands in a quoted text. -/
def quotedCharacter (c : Char) : Text :=
  if c = '"' then "\\\"".toList
  else if c = '\\' then "\\\\".toList
  else if c = '\n' then "\\n".toList
  else if c = '\t' then "\\t".toList
  else if c = '\r' then "\\r".toList
  else if c = '\x00' then "\\0".toList
  else if isGlyphless c then "\\u\x7b".toList ++ hexadecimal c.toNat ++ "\x7d".toList
  else [c]

/-- A text between double quotes, with what needs it escaped. -/
def quoted (text : Text) : Text := '"' :: text.flatMap quotedCharacter ++ ['"']

end FormFill.Text

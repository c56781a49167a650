import Classpath.Text.Numeral
import Classpath.Text.Printable
import Classpath.Text.Surrogate

/-! # Quoted texts

The form in which a message shows a text: between single quotes, or between double quotes when the
text holds a single quote and no double quote. A backslash, the chosen quote and every character
that is not printable are escaped; half of a surrogate pair is escaped as such. The main statement
says that printable characters other than the quote and the backslash stand for themselves.
-/

namespace Classpath.Text

/-- The form of one character between some quotes. -/
def quoteChar (quote c : Char) : List Char :=
  if c = quote || c = '\\' then ['\\', c]
  else if c = '\n' then ['\\', 'n']
  else if c = '\r' then ['\\', 'r']
  else if c = '\t' then ['\\', 't']
  else if isPrintable c then [c]
  else if let some half := surrogate? c then '\\' :: 'u' :: (paddedHex 4 half).toList
  else if c.toNat < 0x100 then '\\' :: 'x' :: (paddedHex 2 c.toNat).toList
  else if c.toNat < 0x10000 then '\\' :: 'u' :: (paddedHex 4 c.toNat).toList
  else '\\' :: 'U' :: (paddedHex 8 c.toNat).toList

/-- The quotes around a text. -/
def quoteMark (cs : List Char) : Char :=
  if cs.contains '\'' && !cs.contains '"' then '"' else '\''

/-- A text between quotes. -/
def quoted (s : String) : String :=
  let mark := quoteMark s.toList
  String.ofList (mark :: s.toList.flatMap (quoteChar mark) ++ [mark])

/-- A text between quotes, of which at most so many characters are shown. -/
def quotedUpTo (most : Nat) (s : String) : String :=
  String.ofList ((quoted s).toList.take most)

theorem quoteChar_self {quote c : Char} (shown : isPrintable c = true) (other : c ≠ quote)
    (plain : c ≠ '\\') : quoteChar quote c = [c] := by
  have newline : c ≠ '\n' := by rintro rfl; revert shown; decide
  have carriage : c ≠ '\r' := by rintro rfl; revert shown; decide
  have tab : c ≠ '\t' := by rintro rfl; revert shown; decide
  simp [quoteChar, other, plain, newline, carriage, tab, shown]

end Classpath.Text

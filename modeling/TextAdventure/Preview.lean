import TextAdventure.Decimal
import TextAdventure.Text

/-!
# Previews of player text

A log record stays on one line: `Preview.escape` replaces control characters by visible escapes and
cuts a long text after its first `maxLength` characters. A backslash is doubled, so that an escape
can be told from the same characters typed by a player.
-/

namespace TextAdventure.Preview

/-- The number of characters of a text that a preview shows. -/
def maxLength : Nat := 200

/-- The mark that stands for what was cut off. -/
def cutMark : Char := '…'

/-- Whether Unicode calls the character a control character. -/
def isControl (c : Char) : Bool :=
  c.toNat < 0x20 || (0x7F ≤ c.toNat && c.toNat ≤ 0x9F)

/-- A number below 16 as a hexadecimal digit. -/
def hexDigit (n : Nat) : Char :=
  if n < 10 then Char.ofNat (n + 48) else Char.ofNat (n + 87)

/-- The code point of a control character as four hexadecimal digits. -/
def hexDigits (c : Char) : List Char :=
  ['0', '0', hexDigit (c.toNat / 16), hexDigit (c.toNat % 16)]

/-- What is written for one character. -/
def escapeChar (c : Char) : List Char :=
  if c == '\\' then ['\\', '\\']
  else if c == '\n' then ['\\', 'n']
  else if c == '\r' then ['\\', 'r']
  else if c == '\t' then ['\\', 't']
  else if isControl c then '\\' :: 'u' :: '\x7b' :: hexDigits c ++ ['\x7d']
  else [c]

/-- What is written for a text of any length. -/
def escapeList (cs : List Char) : List Char := cs.flatMap escapeChar

/-- The preview of a text: its first `maxLength` characters, escaped, and the mark of the cut if
there are more. -/
def previewList (cs : List Char) : List Char :=
  escapeList (cs.take maxLength) ++ if maxLength < cs.length then [cutMark] else []

/-- The preview of a string. -/
def escape (s : String) : String := String.ofList (previewList s.toList)

/-- One line about a batch of narration: how many lines it has, and a preview of the first of them
that is not blank. -/
def summarize (lines : List String) : String :=
  let count := Decimal.text lines.length ++ " line(s)"
  match lines.find? fun line => !Text.isBlankText line with
  | some first => count ++ ", first: \"" ++ escape first ++ "\""
  | none => count

end TextAdventure.Preview

import EventJournal.Text.Visible

/-!
# Quoted text

A string as a quoted literal for readers of logs: quotes, backslashes and characters without a
visible shape are escaped.

* `debugChar`, `debugQuote`.
-/

namespace EventJournal.Text

/-- The hexadecimal digits of a number, without leading zeros. -/
def shortHex (n : Nat) : List Char := Nat.toDigits 16 n

/-- A character inside a quoted literal. -/
def debugChar (c : Char) : List Char :=
  if c = '"' then ['\\', '"']
  else if c = '\\' then ['\\', '\\']
  else if c = '\n' then ['\\', 'n']
  else if c = '\r' then ['\\', 'r']
  else if c = '\t' then ['\\', 't']
  else if c.toNat = 0 then ['\\', '0']
  else if isVisible c then [c]
  else '\\' :: 'u' :: '\x7b' :: (shortHex c.toNat ++ ['\x7d'])

/-- A string as a quoted literal. -/
def debugQuote (s : String) : String :=
  String.ofList ('"' :: (s.toList.flatMap debugChar ++ ['"']))

end EventJournal.Text

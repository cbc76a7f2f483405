import ObjectGraph.Text.Unprintable

/-! # Quoted texts

A text between double quotes, on one line and readable: the quote and the backslash are escaped,
the usual controls have their letters, and every other unprintable character is shown by its number.
-/
namespace ObjectGraph.Text

/-- The form of one character inside double quotes. -/
def quoteChar (c : Char) : List Char :=
  if c = '\x00' then ['\\', '0']
  else if c = '\t' then ['\\', 't']
  else if c = '\n' then ['\\', 'n']
  else if c = '\r' then ['\\', 'r']
  else if c = '"' then ['\\', '"']
  else if c = '\\' then ['\\', '\\']
  else if isUnprintable c then ['\\', 'u', '\x7b'] ++ Nat.toDigits 16 c.toNat ++ ['\x7d']
  else [c]

/-- The text between double quotes, with its characters escaped. -/
def quote (text : String) : String :=
  String.ofList ('"' :: text.toList.flatMap quoteChar ++ ['"'])

end ObjectGraph.Text

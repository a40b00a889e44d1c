import SchemaApi.Text.Printable
/-!
Quoted text: how a message shows a piece of a script. The quotes are single ones unless the text
holds a single quote and no double one. Backslashes, the quote in use, line ends and tabs are
escaped by letter, every other character that is not printable by its code point.
-/

namespace SchemaApi.Text

/-- the last `width` hexadecimal digits of a number, in lower case -/
def hexDigits (width n : Nat) : List Char :=
  (List.range width).reverse.map fun place => (n / Nat.pow 16 place % 16).digitChar

/-- one character between the quotes -/
def quotedChar (quote c : Char) : List Char :=
  if c = quote || c = '\\' then ['\\', c]
  else if c = '\n' then ['\\', 'n']
  else if c = '\r' then ['\\', 'r']
  else if c = '\t' then ['\\', 't']
  else if isPrintable c then [c]
  else if c.toNat < 0x100 then '\\' :: 'x' :: hexDigits 2 c.toNat
  else if c.toNat < 0x10000 then '\\' :: 'u' :: hexDigits 4 c.toNat
  else '\\' :: 'U' :: hexDigits 8 c.toNat

/-- the quote that a text is shown with -/
def quoteFor (cs : List Char) : Char :=
  if '\'' ∈ cs ∧ '"' ∉ cs then '"' else '\''

/-- the text between quotes, on one line -/
def quoted (text : String) : String :=
  let quote := quoteFor text.toList
  String.ofList (quote :: text.toList.flatMap (quotedChar quote) ++ [quote])

example : quoted "it's" = "\"it's\"" := by decide +kernel
example : quoted "a\"b'" = "'a\"b\\''" := by decide +kernel
example : quoted "\u200b\x00" = "'\\u200b\\x00'" := by decide +kernel

end SchemaApi.Text

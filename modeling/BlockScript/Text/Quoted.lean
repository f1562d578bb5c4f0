import BlockScript.Text.Printable

/-!
# Quoted texts

The quoted form of a text in log records, in thread descriptions and in error messages: double
quotes around it, a backslash before `"` and `\`, the short escapes for line feed, carriage return,
tab and the null character, and `\u` with the code point in braces for every other character that
is not written as itself (`Text.isPrintable`). The apostrophe needs no escape.
-/

namespace BlockScript.Text

/-- One character inside quotes. -/
def quotedChar (c : Char) : List Char :=
  if c = '"' then ['\\', '"']
  else if c = '\\' then ['\\', '\\']
  else if c = '\n' then ['\\', 'n']
  else if c = '\r' then ['\\', 'r']
  else if c = '\t' then ['\\', 't']
  else if c = '\x00' then ['\\', '0']
  else if isPrintable c then [c]
  else ['\\', 'u', '\x7b'] ++ Nat.toDigits 16 c.toNat ++ ['\x7d']

/-- A text in quotes. -/
def quoted (text : String) : String :=
  String.ofList ('"' :: text.toList.flatMap quotedChar ++ ['"'])

/-- An optional thing that is described by a text. -/
def optional : Option String → String
  | none => "None"
  | some text => "Some(" ++ text ++ ")"

/-- An optional text in quotes. -/
def quotedOption (text : Option String) : String :=
  optional (text.map quoted)

end BlockScript.Text

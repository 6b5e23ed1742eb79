import SchemaBindings.Unicode.Hidden

/-! Three ways to write a text so that it can be read back. -/

namespace SchemaBindings.Text

def hex (n : Nat) : List Char := Nat.toDigits 16 n

/-- A character by its number, between braces. -/
def numbered (c : Char) : List Char := ['\\', 'u', '\x7b'] ++ hex c.toNat ++ ['\x7d']

/-- How a JSON string holds a character: a control character below the space is escaped, and so are
the quote and the backslash. -/
def jsonChar (c : Char) : List Char :=
  match c with
  | '"' => ['\\', '"']
  | '\\' => ['\\', '\\']
  | '\x08' => ['\\', 'b']
  | '\x0c' => ['\\', 'f']
  | '\n' => ['\\', 'n']
  | '\r' => ['\\', 'r']
  | '\t' => ['\\', 't']
  | c =>
    if c.toNat < 0x10 then ['\\', 'u', '0', '0', '0'] ++ hex c.toNat
    else if c.toNat < 0x20 then ['\\', 'u', '0', '0'] ++ hex c.toNat
    else [c]

/-- A JSON string, with its quotes. -/
def jsonString (text : String) : String :=
  String.ofList ('"' :: text.toList.flatMap jsonChar ++ ['"'])

/-- Printable ASCII stays as it is, but for quotes and the backslash. -/
def asciiChar (c : Char) : List Char :=
  match c with
  | '\t' => ['\\', 't']
  | '\r' => ['\\', 'r']
  | '\n' => ['\\', 'n']
  | '\'' => ['\\', '\'']
  | '"' => ['\\', '"']
  | '\\' => ['\\', '\\']
  | c => if 0x20 ≤ c.toNat ∧ c.toNat < 0x7f then [c] else numbered c

/-- The inside of a literal that holds ASCII alone. -/
def asciiEscaped (text : String) : String := String.ofList (text.toList.flatMap asciiChar)

/-- Every character that shows on its own stays as it is. -/
def shownChar (c : Char) : List Char :=
  match c with
  | '\x00' => ['\\', '0']
  | '\t' => ['\\', 't']
  | '\r' => ['\\', 'r']
  | '\n' => ['\\', 'n']
  | '"' => ['\\', '"']
  | '\\' => ['\\', '\\']
  | c => if Unicode.isHidden c then numbered c else [c]

/-- A text between quotes, for messages. -/
def shown (text : String) : String :=
  String.ofList ('"' :: text.toList.flatMap shownChar ++ ['"'])

end SchemaBindings.Text

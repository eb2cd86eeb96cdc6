import ReviewStream.Json.Number

/-!
# JSON values

Objects keep their members in the order of the text, repeated names included; which of them counts
is up to the reader. `unreadable` stands for text that can be skipped but has no value, such as a
string with half of a surrogate pair. Only lenient parsing yields it, and no reader accepts it.

Values are written without blanks. In strings the quote, the backslash and the controls below the
space are escaped, and all other characters stand for themselves.
-/

namespace ReviewStream

inductive Json where
  | null
  | bool (b : Bool)
  | number (n : Json.Number)
  | string (s : String)
  | array (elements : List Json)
  | object (members : List (String × Json))
  | unreadable
  deriving Repr

namespace Json

/-- The members of an object. -/
abbrev Members := List (String × Json)

/-- A natural number as a JSON value. -/
def ofNat (n : Nat) : Json := .number (.ofNat n)

/-- A text that may be missing. -/
def ofText? : Option String → Json
  | none => .null
  | some s => .string s

/-- The value that counts under `name` when the last of several members wins. -/
def Members.last? (ms : Members) (name : String) : Option Json :=
  (ms.reverse.find? fun m => m.1 = name).map (·.2)

/-- A hexadecimal digit in lower case. -/
def hexDigit (n : Nat) : Char := Nat.digitChar n

/-- How one character is written in a string. -/
def escape (c : Char) : List Char :=
  if c = '"' then ['\\', '"']
  else if c = '\\' then ['\\', '\\']
  else if c = '\x08' then ['\\', 'b']
  else if c = '\x0c' then ['\\', 'f']
  else if c = '\n' then ['\\', 'n']
  else if c = '\r' then ['\\', 'r']
  else if c = '\t' then ['\\', 't']
  else if c < ' ' then ['\\', 'u', '0', '0', hexDigit (c.toNat / 16), hexDigit (c.toNat % 16)]
  else [c]

/-- A text as a string literal. -/
def renderText (s : String) : List Char := '"' :: s.toList.flatMap escape ++ ['"']

mutual

/-- The text of a value. -/
def renderChars : Json → List Char
  | .null => ['n', 'u', 'l', 'l']
  | .bool true => ['t', 'r', 'u', 'e']
  | .bool false => ['f', 'a', 'l', 's', 'e']
  | .number n => n.render.toList
  | .string s => renderText s
  | .array [] => ['[', ']']
  | .array (j :: rest) => '[' :: renderChars j ++ renderElements rest
  | .object [] => ['{', '}']
  | .object ((k, j) :: rest) =>
    '{' :: renderText k ++ ':' :: renderChars j ++ renderMembers rest
  | .unreadable => ['n', 'u', 'l', 'l']

/-- The text of the elements after the first, with the bracket that closes them. -/
def renderElements : List Json → List Char
  | [] => [']']
  | j :: rest => ',' :: renderChars j ++ renderElements rest

/-- The text of the members after the first, with the brace that closes them. -/
def renderMembers : List (String × Json) → List Char
  | [] => ['}']
  | (k, j) :: rest => ',' :: renderText k ++ ':' :: renderChars j ++ renderMembers rest

end

/-- The text of a value as a string. -/
def render (j : Json) : String := String.ofList (renderChars j)

end Json

end ReviewStream

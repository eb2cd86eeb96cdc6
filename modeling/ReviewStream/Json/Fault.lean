import ReviewStream.Json.Basic
import ReviewStream.Text.Quoted

/-!
# Faults of JSON text

A text without a value is reported by its first problem and by the place where that shows: a line,
counted from one, and a column, counted in bytes from the start of the line. A fault in a text that
is embedded in another one keeps its place in the inner text.
-/

namespace ReviewStream.Json

/-- What a value is called in a message. -/
def describe : Json → String
  | .null | .unreadable => "null"
  | .bool b => "boolean `" ++ (if b then "true" else "false") ++ "`"
  | .number n =>
    match n.nat?, n.negative? with
    | some k, _ => "integer `" ++ Nat.repr k ++ "`"
    | none, some k => "integer `-" ++ Nat.repr k ++ "`"
    | none, none => "floating point `" ++ Number.layout.renderFloat (n.float?.getD 0) ++ "`"
  | .string s => "string " ++ Text.quoted s
  | .array _ => "sequence"
  | .object _ => "map"

/-- What is wrong at some place of a text. -/
inductive Problem where
  | endOfValue
  | endOfString
  | endOfArray
  | endOfObject
  | noValue
  | badKeyword
  | badNumber
  | outOfRange
  | controlCharacter
  | badEscape
  /-- The second half of a surrogate pair without the first, or the first with no such half in the
  escape behind it. -/
  | loneHalf
  /-- The first half of a surrogate pair without an escape behind it. -/
  | brokenPair
  | noCommaInArray
  | noCommaInObject
  | noColon
  | nameNotText
  | trailingComma
  | trailingCharacters
  | tooDeep
  /-- A value that is no text where an embedded text has to stand. -/
  | notEmbedded (found : Json)
  deriving Repr

def Problem.message : Problem → String
  | .endOfValue => "EOF while parsing a value"
  | .endOfString => "EOF while parsing a string"
  | .endOfArray => "EOF while parsing a list"
  | .endOfObject => "EOF while parsing an object"
  | .noValue => "expected value"
  | .badKeyword => "expected ident"
  | .badNumber => "invalid number"
  | .outOfRange => "number out of range"
  | .controlCharacter => "control character (\\u0000-\\u001F) found while parsing a string"
  | .badEscape => "invalid escape"
  | .loneHalf => "lone leading surrogate in hex escape"
  | .brokenPair => "unexpected end of hex escape"
  | .noCommaInArray => "expected `,` or `]`"
  | .noCommaInObject => "expected `,` or `\x7d`"
  | .noColon => "expected `:`"
  | .nameNotText => "key must be a string"
  | .trailingComma => "trailing comma"
  | .trailingCharacters => "trailing characters"
  | .tooDeep => "recursion limit exceeded"
  | .notEmbedded found => "invalid type: " ++ describe found ++ ", expected raw JSON value"

/-- The kinds of faults: the text ends too early, some character is wrong, or the text is well
formed and what it holds does not fit. -/
inductive FaultKind where
  | truncated
  | malformed
  | misfit
  deriving DecidableEq, Repr

def Problem.kind : Problem → FaultKind
  | .endOfValue | .endOfString | .endOfArray | .endOfObject => .truncated
  | .notEmbedded _ => .misfit
  | _ => .malformed

/-- A place in a text. -/
structure Place where
  line : Nat
  column : Nat
  deriving DecidableEq, Repr

/-- The start of a text. -/
def Place.start : Place := ⟨1, 0⟩

/-- The place `offset` bytes behind `p`, where the text goes on with `cs`. -/
def Place.advance (p : Place) (offset : Nat) : List Char → Place
  | [] => p
  | c :: rest =>
    if offset < c.utf8Size then { p with column := p.column + offset }
    else
      let next : Place := if c = '\n' then ⟨p.line + 1, 0⟩ else ⟨p.line, p.column + c.utf8Size⟩
      next.advance (offset - c.utf8Size) rest

def Place.render (p : Place) : String :=
  " at line " ++ Nat.repr p.line ++ " column " ++ Nat.repr p.column

/-- Why a text has no value. -/
structure Fault where
  problem : Problem
  place : Place
  /-- Whether the fault lies in an embedded text. -/
  isEmbedded : Bool := false

/-- To the text around it, a fault in an embedded text is a value that does not fit. -/
def Fault.kind (f : Fault) : FaultKind := if f.isEmbedded then .misfit else f.problem.kind

def Fault.message (f : Fault) : String := f.problem.message ++ f.place.render

end ReviewStream.Json

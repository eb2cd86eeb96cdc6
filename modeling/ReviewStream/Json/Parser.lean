import ReviewStream.Json.Token

/-!
# Parsing JSON text

The tokens of a text drive a machine that keeps the open containers on a stack. `Json.parse` is
strict: it refuses strings without a text, numbers out of range and containers nested more than
`depthLimit` deep. `Json.parseLenient` takes the same grammar without these limits, for readers
that skip the members they do not know. `Json.parseEmbedding` is strict and also takes texts that
stand for the value they spell, in an object of one member named `embeddingName`.
-/

namespace ReviewStream.Json

/-- How deep containers may be nested in strict parsing. -/
def depthLimit : Nat := 127

/-- A container that waits for a value: an array with its elements so far, or an object with its
members so far and the name of the next one. The latest element or member comes first. -/
inductive Frame where
  | array (done : List Json)
  | object (done : List (Option String × Json)) (key : Option String)

/-- The name under which an object embeds the text of the value that it stands for. -/
def embeddingName : String := "$serde_json::private::RawValue"

/-- What a reader of JSON text takes. -/
structure Dialect where
  /-- Whether strings without a text, numbers out of range and deep nesting are refused. -/
  strict : Bool
  /-- How embedded texts are read, if they are. -/
  embedded? : Option (String → Except Fault Json) := none

/-- What has been read and what may come next. -/
inductive Reading where
  /-- A value has to follow. -/
  | value (stack : List Frame)
  /-- An array was opened. -/
  | arrayStart (stack : List Frame)
  /-- An object was opened. -/
  | objectStart (stack : List Frame)
  /-- The name of a member has to follow. -/
  | name (done : List (Option String × Json)) (stack : List Frame)
  /-- The name of a member was read. -/
  | colon (done : List (Option String × Json)) (key : Option String) (stack : List Frame)
  /-- An element was read. -/
  | elements (done : List Json) (stack : List Frame)
  /-- A member was read. -/
  | members (done : List (Option String × Json)) (stack : List Frame)
  /-- The name of an embedded text was read. -/
  | embeddingColon (stack : List Frame)
  /-- An embedded text has to follow. -/
  | embeddedText (stack : List Frame)
  /-- An embedded text was read. -/
  | embeddingEnd (j : Json) (stack : List Frame)
  /-- The whole value was read. -/
  | finished (j : Json)

/-- Hands a complete value to the innermost open container. -/
def Reading.put (j : Json) : List Frame → Reading
  | [] => .finished j
  | .array done :: stack => .elements (j :: done) stack
  | .object done key :: stack => .members ((key, j) :: done) stack

def namedMembers? : List (Option String × Json) → Option Members
  | [] => some []
  | (key, j) :: rest => do return (← key, j) :: (← namedMembers? rest)

/-- The value of an object whose members were read, the latest first. -/
def closeObject (done : List (Option String × Json)) : Json :=
  match namedMembers? done.reverse with
  | some ms => .object ms
  | none => .unreadable

/-- Why reading stops: at a flaw of the text itself, or at a fault in an embedded text. -/
inductive Stop where
  | flaw (flaw : Flaw)
  | inside (fault : Fault)

/-- The refusal of a token, which shows at its first character. -/
def Placed.refuse {α : Type} (t : Placed) (problem : Problem) : Except Stop α :=
  .error (.flaw ⟨problem, t.start, 1⟩)

/-- The text from `count` characters before the end of a token on. -/
def Placed.last (t : Placed) (count : Nat) : List Char :=
  t.start.drop (t.start.length - t.rest.length - count)

/-- The value of a scalar token. -/
def Placed.scalar (strict : Bool) (t : Placed) : Except Stop Json :=
  match t.token with
  | .null => .ok .null
  | .bool b => .ok (.bool b)
  | .number n =>
    if strict && !n.inRange then
      .error (.flaw ⟨.outOfRange, t.last n.unneededDigits, 0⟩)
    else .ok (.number n)
  | .string (some s) => .ok (.string s)
  | .string none => .ok .unreadable
  | _ => t.refuse .noValue

/-- Whether one more container may be opened inside `stack`. -/
def mayOpen (strict : Bool) (stack : List Frame) : Bool := !strict || stack.length < depthLimit

/-- Reads the first token of a value. -/
def Reading.beginValue (strict : Bool) (stack : List Frame) (t : Placed) : Except Stop Reading :=
  match t.token with
  | .openArray => if mayOpen strict stack then .ok (.arrayStart stack) else t.refuse .tooDeep
  | .openObject => if mayOpen strict stack then .ok (.objectStart stack) else t.refuse .tooDeep
  | _ => (t.scalar strict).map (Reading.put · stack)

/-- Reads the text that an object embeds. -/
def Reading.embed (d : Dialect) (stack : List Frame) (t : Placed) : Except Stop Reading :=
  let refuse (found : Json) (rest : List Char) : Except Stop Reading :=
    .error (.flaw ⟨.notEmbedded found, rest, 0⟩)
  match t.token, d.embedded? with
  | .openArray, _ => refuse (.array []) t.start
  | .openObject, _ => refuse (.object []) t.start
  | .string (some s), some read =>
    match read s with
    | .ok j => .ok (.embeddingEnd j stack)
    | .error fault => .error (.inside { fault with isEmbedded := true })
  | _, _ => do refuse (← t.scalar d.strict) t.rest

/-- What is wrong with a token that may not come next. -/
def Reading.mismatch : Reading → Problem
  | .value _ | .arrayStart _ | .embeddedText _ => .noValue
  | .objectStart _ | .name _ _ => .nameNotText
  | .colon _ _ _ | .embeddingColon _ => .noColon
  | .elements _ _ => .noCommaInArray
  | .members _ _ => .noCommaInObject
  | .embeddingEnd _ _ | .finished _ => .trailingCharacters

/-- What is wrong with a text that ends here. -/
def Reading.cutOff : Reading → Problem
  | .value _ | .name _ _ | .embeddedText _ | .finished _ => .endOfValue
  | .arrayStart _ | .elements _ _ => .endOfArray
  | .objectStart _ | .colon _ _ _ | .members _ _ | .embeddingColon _ | .embeddingEnd _ _ =>
    .endOfObject

def Reading.step (d : Dialect) (r : Reading) (t : Placed) : Except Stop Reading :=
  match r, t.token with
  | .value (.array _ :: _), .closeArray => t.refuse .trailingComma
  | .value stack, _ => beginValue d.strict stack t
  | .arrayStart stack, .closeArray => .ok (put (.array []) stack)
  | .arrayStart stack, _ => beginValue d.strict (.array [] :: stack) t
  | .objectStart stack, .closeObject => .ok (put (.object []) stack)
  | .objectStart stack, .string key =>
    if d.embedded?.isSome && key = some embeddingName then .ok (.embeddingColon stack)
    else .ok (.colon [] key stack)
  | .name done stack, .string key => .ok (.colon done key stack)
  | .name _ _, .closeObject => t.refuse .trailingComma
  | .colon done key stack, .colon => .ok (.value (.object done key :: stack))
  | .embeddingColon stack, .colon => .ok (.embeddedText stack)
  | .embeddedText stack, _ => embed d stack t
  | .embeddingEnd j stack, .closeObject => .ok (put j stack)
  | .embeddingEnd _ _, .comma => t.refuse .trailingComma
  | .elements done stack, .comma => .ok (.value (.array done :: stack))
  | .elements done stack, .closeArray => .ok (put (.array done.reverse) stack)
  | .members done stack, .comma => .ok (.name done stack)
  | .members done stack, .closeObject => .ok (put (Json.closeObject done) stack)
  | r, _ => t.refuse r.mismatch

/-- Whether a token of the given kind may come next. -/
def Reading.expects (inString : Bool) : Reading → Bool
  | .value _ | .arrayStart _ | .embeddedText _ => true
  | .objectStart _ | .name _ _ => inString
  | _ => false

/-- What a text amounts to once its tokens are used up. -/
def Reading.close : Reading → Ending → Except Stop Json
  | .finished j, .complete => .ok j
  | r, .complete => .error (.flaw ⟨r.cutOff, [], 0⟩)
  | r, .broken inString start flaw =>
    .error (.flaw (if r.expects inString then flaw else ⟨r.mismatch, start, 1⟩))

/-- Reads the tokens that are left. -/
def Reading.run (d : Dialect) (ending : Ending) : Reading → List Placed → Except Stop Json
  | r, [] => r.close ending
  | r, t :: ts => do (← r.step d t).run d ending ts

/-- The fault that a flaw of the text `cs` amounts to. -/
def Flaw.fault (cs : List Char) (f : Flaw) : Fault :=
  ⟨f.problem, Place.start.advance (byteCount cs - byteCount f.rest + f.ahead) cs, false⟩

/-- The fault that reading the text `cs` stops at. -/
def Stop.fault (cs : List Char) : Stop → Fault
  | .flaw f => f.fault cs
  | .inside fault => fault

def parseChars (d : Dialect) (cs : List Char) : Except Fault Json :=
  let (ts, ending) := tokens d.strict cs
  ((Reading.value []).run d ending ts).mapError (Stop.fault cs)

/-- The value of a JSON text, or the first fault in it. -/
def parse (s : String) : Except Fault Json := parseChars ⟨true, none⟩ s.toList

/-- The value of a JSON text, read without limits on what only has to be skipped. -/
def parseLenient (s : String) : Option Json := (parseChars ⟨false, none⟩ s.toList).toOption

/-- The value of a JSON text with embedded texts, up to `depth` inside each other. -/
def parseNested : Nat → String → Except Fault Json
  | 0, s => parse s
  | depth + 1, s => parseChars ⟨true, some (parseNested depth)⟩ s.toList

/-- The value of a JSON text with embedded texts. Each of them is shorter than the text around it,
so its length bounds how deep they can be nested. -/
def parseEmbedding (s : String) : Except Fault Json := parseNested s.length s

end ReviewStream.Json

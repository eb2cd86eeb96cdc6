import ReviewStream.Event.Payload
import ReviewStream.Json.Parser

/-!
# Events from stream lines

A line holds one JSON object. Its `type` decides whether it is an event at all, and then its payload
has to fit. `Event.parse` tells lines that are no event from lines that are malformed;
`Event.classify` takes both for nothing.
-/

namespace ReviewStream

inductive ParseError where
  /-- The line or a text embedded in it has no value. -/
  | notJson (fault : Json.Fault)
  /-- The line is JSON of another form than an object. -/
  | notAnObject
  /-- The payload does not fit. -/
  | misfit (m : Payload.Misfit)
  /-- The text of a number spells none. -/
  | badNumber (field text : String)

def ParseError.message : ParseError → String
  | .notJson fault => "JSON parse error: " ++ fault.message
  | .notAnObject => "expected a JSON object"
  | .misfit m => "JSON parse error: " ++ m.message
  | .badNumber field text => "invalid field value for " ++ field ++ ": " ++ text

namespace Payload

/-- The number that a field holds; text is trimmed and has to spell an unsigned 64 bit integer. -/
def NumberText.read (field : String) : NumberText → Except ParseError UInt64
  | .integer n => .ok n
  | .text s =>
    match Text.unsignedBelow? UInt64.size (Text.trim s.toList) with
    | some n => .ok (UInt64.ofNat n)
    | none => .error (.badNumber field s)

/-- The instant a payload gives, or `now` where it gives none that can be represented. -/
def instant (now : Calendar.Timestamp) (s : Option Int) : Calendar.Timestamp :=
  (s.bind Calendar.Timestamp.ofSeconds?).getD now

/-- What all events about a patch set share. The uploader may stand in the patch set or beside
it. -/
def ReviewFields.facts (p : ReviewFields) (now : Calendar.Timestamp) (provider : Option Provider) :
    Except ParseError ReviewFacts := do
  let changeNumber ← p.change.number.read "change.number"
  let patchSetNumber ← p.patchSet.number.read "patchSet.number"
  return {
    change := {
      project := p.change.project
      branch := p.change.branch
      id := p.change.id
      number := changeNumber
      subject := p.change.subject
      owner := p.change.owner
      url := p.change.url }
    patchSet := {
      number := patchSetNumber
      revision := p.patchSet.revision
      reference := p.patchSet.reference
      uploader := p.patchSet.uploader <|> p.uploader }
    provider
    createdOn := instant now p.createdOn }

end Payload

namespace Event

def ofMembers (now : Calendar.Timestamp) (provider : Option Provider) (kind : EventKind)
    (ms : Json.Members) : Except ParseError Event :=
  match kind with
  | .refUpdated => do
    let p ← (Payload.reference ms).mapError .misfit
    return .refUpdated p.update p.submitter (Payload.instant now p.createdOn)
  | kind => do
    let p ← (Payload.review ms).mapError .misfit
    let facts ← p.facts now provider
    return match kind with
      | .changeAbandoned => .changeAbandoned facts p.abandoner p.reason
      | .changeMerged => .changeMerged facts p.submitter
      | .commentAdded => .commentAdded facts p.author p.comment p.approvals
      | _ => .patchSetCreated facts

/-- The kind that an object names in its `type`, if it is a known one. -/
def kindOf? (ms : Json.Members) : Option EventKind :=
  match ms.last? "type" with
  | some (.string s) => EventKind.find? s
  | _ => none

/-- The event in a JSON value, if it is one. -/
def ofJson (now : Calendar.Timestamp) (provider : Option Provider) :
    Json → Except ParseError (Option Event)
  | .object ms =>
    match kindOf? ms with
    | some kind => (ofMembers now provider kind ms).map some
    | none => .ok none
  | _ => .error .notAnObject

/-- The event in a stream line. Blank lines and objects of no known kind are no events. `now` is the
time of events whose payload gives none, and `provider` is attached to events about patch sets. -/
def parse (now : Calendar.Timestamp) (provider : Option Provider) (line : String) :
    Except ParseError (Option Event) :=
  match Text.nonBlank? line with
  | none => .ok none
  | some text => do
    let j ← (Json.parseEmbedding text).mapError .notJson
    ofJson now provider j

/-- The event in a stream line, with malformed lines taken for no event. -/
def classify (now : Calendar.Timestamp) (provider : Option Provider) (line : String) :
    Option Event :=
  match parse now provider line with
  | .ok e => e
  | .error _ => none

end Event

end ReviewStream

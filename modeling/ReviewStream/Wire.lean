import ReviewStream.Build
import ReviewStream.Event.Basic
import ReviewStream.Json.Record

/-!
# JSON forms

Keys, builds and events as JSON values. Events are written with their kind under `type`, then what
all events about a patch set share, then what is special to the kind.
-/

namespace ReviewStream

open Json (Decoder field? optionalField?)

namespace PatchSetKey

def toJson (k : PatchSetKey) : Json :=
  .object [("change", .ofNat k.change.toNat), ("patchset", .ofNat k.patchSet.toNat)]

def ofJson? : Decoder PatchSetKey
  | .object ms => do
    return {
      change := ← field? ms "change" Decoder.word64
      patchSet := ← field? ms "patchset" Decoder.word64 }
  | .array [c, p] => do
    return { change := ← Decoder.word64 c, patchSet := ← Decoder.word64 p }
  | _ => none

end PatchSetKey

namespace BuildResult

def toJson (r : BuildResult) : Json := .string r.name

def ofJson? : Decoder BuildResult := Decoder.named ofName?

end BuildResult

namespace Build

def resultToJson : Option BuildResult → Json
  | some r => r.toJson
  | none => .null

def toJson (b : Build) : Json :=
  .object [("job", .string b.job), ("number", .ofNat b.number.toNat),
    ("result", resultToJson b.result)]

def ofJson? : Decoder Build
  | .object ms => do
    return {
      job := ← field? ms "job" Decoder.text
      number := ← field? ms "number" Decoder.word64
      result := ← optionalField? ms "result" BuildResult.ofJson? }
  | .array [j, n, r] => do
    return {
      job := ← Decoder.text j
      number := ← Decoder.word64 n
      result := ← Decoder.nullable BuildResult.ofJson? r }
  | _ => none

end Build

namespace Provider

def toJson (p : Provider) : Json :=
  .object [("name", .string p.name), ("host", .string p.host), ("port", .ofNat p.port.toNat),
    ("scheme", .string p.scheme), ("version", .ofText? p.version)]

def ofJson? : Decoder Provider
  | .object ms => do
    return {
      name := ← field? ms "name" Decoder.text
      host := ← field? ms "host" Decoder.text
      port := ← field? ms "port" Decoder.word16
      scheme := ← field? ms "scheme" Decoder.text
      version := ← optionalField? ms "version" Decoder.text }
  | .array [n, h, p, s, v] => do
    return {
      name := ← Decoder.text n
      host := ← Decoder.text h
      port := ← Decoder.word16 p
      scheme := ← Decoder.text s
      version := ← Decoder.nullable Decoder.text v }
  | _ => none

end Provider

def Json.ofOption {α : Type} (write : α → Json) : Option α → Json
  | some a => write a
  | none => .null

namespace Account

def toJson (a : Account) : Json :=
  .object [("name", .ofText? a.name), ("email", .ofText? a.email)]

def ofJson? : Decoder Account
  | .object ms => do
    return {
      name := ← optionalField? ms "name" Decoder.text
      email := ← optionalField? ms "email" Decoder.text }
  | .array [n, e] => do
    return { name := ← Decoder.nullable Decoder.text n, email := ← Decoder.nullable Decoder.text e }
  | _ => none

end Account

namespace Approval

def toJson (a : Approval) : Json :=
  .object [("category", .string a.category), ("value", .string a.value)]

def ofJson? : Decoder Approval
  | .object ms => do
    return {
      category := ← field? ms "category" Decoder.text
      value := ← field? ms "value" Decoder.text }
  | .array [c, v] => do
    return { category := ← Decoder.text c, value := ← Decoder.text v }
  | _ => none

end Approval

namespace Change

def toJson (c : Change) : Json :=
  .object [("project", .string c.project), ("branch", .string c.branch), ("id", .string c.id),
    ("number", .ofNat c.number.toNat), ("subject", .string c.subject),
    ("owner", .ofOption Account.toJson c.owner), ("url", .ofText? c.url)]

def ofJson? : Decoder Change
  | .object ms => do
    return {
      project := ← field? ms "project" Decoder.text
      branch := ← field? ms "branch" Decoder.text
      id := ← field? ms "id" Decoder.text
      number := ← field? ms "number" Decoder.word64
      subject := ← field? ms "subject" Decoder.text
      owner := ← optionalField? ms "owner" Account.ofJson?
      url := ← optionalField? ms "url" Decoder.text }
  | .array [p, b, i, n, s, o, u] => do
    return {
      project := ← Decoder.text p
      branch := ← Decoder.text b
      id := ← Decoder.text i
      number := ← Decoder.word64 n
      subject := ← Decoder.text s
      owner := ← Decoder.nullable Account.ofJson? o
      url := ← Decoder.nullable Decoder.text u }
  | _ => none

end Change

namespace PatchSet

def toJson (p : PatchSet) : Json :=
  .object [("number", .ofNat p.number.toNat), ("revision", .string p.revision),
    ("ref", .string p.reference), ("uploader", .ofOption Account.toJson p.uploader)]

def ofJson? : Decoder PatchSet
  | .object ms => do
    return {
      number := ← field? ms "number" Decoder.word64
      revision := ← field? ms "revision" Decoder.text
      reference := ← field? ms "ref" Decoder.text
      uploader := ← optionalField? ms "uploader" Account.ofJson? }
  | .array [n, r, f, u] => do
    return {
      number := ← Decoder.word64 n
      revision := ← Decoder.text r
      reference := ← Decoder.text f
      uploader := ← Decoder.nullable Account.ofJson? u }
  | _ => none

end PatchSet

namespace RefUpdate

def toJson (r : RefUpdate) : Json :=
  .object [("project", .string r.project), ("ref_name", .string r.refName),
    ("old_rev", .string r.oldRev), ("new_rev", .string r.newRev)]

def ofJson? : Decoder RefUpdate
  | .object ms => do
    return {
      project := ← field? ms "project" Decoder.text
      refName := ← field? ms "ref_name" Decoder.text
      oldRev := ← field? ms "old_rev" Decoder.text
      newRev := ← field? ms "new_rev" Decoder.text }
  | .array [p, r, o, n] => do
    return {
      project := ← Decoder.text p
      refName := ← Decoder.text r
      oldRev := ← Decoder.text o
      newRev := ← Decoder.text n }
  | _ => none

end RefUpdate

namespace Calendar.Timestamp

def toJson (t : Timestamp) : Json := .string t.render

def ofJson? : Decoder Timestamp
  | .string s => parse? s
  | _ => none

end Calendar.Timestamp

namespace ReviewFacts

/-- The members that all events about a patch set share. -/
def toMembers (f : ReviewFacts) : Json.Members :=
  [("change", f.change.toJson), ("patchset", f.patchSet.toJson),
    ("provider", .ofOption Provider.toJson f.provider), ("created_on", f.createdOn.toJson)]

def ofMembers? (ms : Json.Members) : Option ReviewFacts := do
  return {
    change := ← field? ms "change" Change.ofJson?
    patchSet := ← field? ms "patchset" PatchSet.ofJson?
    provider := ← optionalField? ms "provider" Provider.ofJson?
    createdOn := ← field? ms "created_on" Calendar.Timestamp.ofJson? }

end ReviewFacts

namespace Event

/-- The members that are special to the kind of an event. -/
def ownMembers : Event → Json.Members
  | .patchSetCreated _ => []
  | .changeAbandoned _ a r => [("abandoner", .ofOption Account.toJson a), ("reason", .ofText? r)]
  | .changeMerged _ s => [("submitter", .ofOption Account.toJson s)]
  | .commentAdded _ a c vs =>
    [("author", .ofOption Account.toJson a), ("comment", .ofText? c),
      ("approvals", .array (vs.map Approval.toJson))]
  | .refUpdated r s t =>
    [("ref_update", r.toJson), ("submitter", .ofOption Account.toJson s),
      ("created_on", t.toJson)]

def toJson (e : Event) : Json :=
  .object (("type", .string e.kind.name) ::
    ((e.facts?.map ReviewFacts.toMembers).getD [] ++ e.ownMembers))

/-- The event of the given kind with the given members. -/
def ofFields? (kind : EventKind) (ms : Json.Members) : Option Event :=
  match kind with
  | .patchSetCreated => (ReviewFacts.ofMembers? ms).map .patchSetCreated
  | .changeAbandoned => do
    return .changeAbandoned (← ReviewFacts.ofMembers? ms)
      (← optionalField? ms "abandoner" Account.ofJson?) (← optionalField? ms "reason" Decoder.text)
  | .changeMerged => do
    return .changeMerged (← ReviewFacts.ofMembers? ms)
      (← optionalField? ms "submitter" Account.ofJson?)
  | .commentAdded => do
    return .commentAdded (← ReviewFacts.ofMembers? ms)
      (← optionalField? ms "author" Account.ofJson?) (← optionalField? ms "comment" Decoder.text)
      (← field? ms "approvals" (Decoder.list Approval.ofJson?))
  | .refUpdated => do
    return .refUpdated (← field? ms "ref_update" RefUpdate.ofJson?)
      (← optionalField? ms "submitter" Account.ofJson?)
      (← field? ms "created_on" Calendar.Timestamp.ofJson?)

/-- The event of the given kind with the given fields in order. Only kinds whose fields are not
gathered from two records have this form. -/
def ofElements? : EventKind → List Json → Option Event
  | .patchSetCreated, [c, p, r, t] => do
    return .patchSetCreated {
      change := ← Change.ofJson? c
      patchSet := ← PatchSet.ofJson? p
      provider := ← Decoder.nullable Provider.ofJson? r
      createdOn := ← Calendar.Timestamp.ofJson? t }
  | .refUpdated, [r, s, t] => do
    return .refUpdated (← RefUpdate.ofJson? r) (← Decoder.nullable Account.ofJson? s)
      (← Calendar.Timestamp.ofJson? t)
  | _, _ => none

def ofJson? : Decoder Event
  | .object ms => do
    let kind ← field? ms "type" fun j => (Decoder.text j).bind EventKind.ofName?
    ofFields? kind ms
  | .array (t :: fields) => do
    let kind ← (Decoder.text t).bind EventKind.ofName?
    ofElements? kind fields
  | _ => none

end Event

end ReviewStream

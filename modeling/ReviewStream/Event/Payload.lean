import ReviewStream.Event.Basic
import ReviewStream.Json.Fault

/-!
# Payloads of stream lines

The record that a stream line holds, before the numbers in it are read from text. A record is given
as an object, whose members are checked in ascending order of their names before missing ones are
reported in the order of declaration, or as an array of all its fields in that order. Of repeated
members the last one counts, and unknown members are ignored.
-/

namespace ReviewStream.Payload

/-- Why a JSON value does not fit where it stands. -/
inductive Misfit where
  /-- A value of the wrong type. -/
  | wrongType (found : Json) (wanted : String)
  /-- A number of seconds beyond 63 bits. -/
  | outOfRange (n : Nat)
  /-- A value that is neither an unsigned integer nor a text. -/
  | notANumber
  | missing (name : String)
  | duplicate (name : String)
  /-- An array that ends before the field at `index`. -/
  | tooShort (index : Nat) (record : String) (size : Nat)
  | tooLong (count : Nat)

def Misfit.message : Misfit → String
  | .wrongType found wanted => "invalid type: " ++ found.describe ++ ", expected " ++ wanted
  | .outOfRange n => "invalid value: integer `" ++ Nat.repr n ++ "`, expected i64"
  | .notANumber => "data did not match any variant of untagged enum RawNumber"
  | .missing name => "missing field `" ++ name ++ "`"
  | .duplicate name => "duplicate field `" ++ name ++ "`"
  | .tooShort index record size =>
    "invalid length " ++ Nat.repr index ++ ", expected " ++ record ++ " with " ++ Nat.repr size ++
      " elements"
  | .tooLong count =>
    "invalid length " ++ Nat.repr count ++ ", expected fewer elements in array"

abbrev Reader (α : Type) := Json → Except Misfit α

def text : Reader String
  | .string s => .ok s
  | j => .error (.wrongType j "a string")

/-- A number given as an integer or as text that is still to be read. -/
inductive NumberText where
  | integer (n : UInt64)
  | text (s : String)
  deriving DecidableEq

def numberText : Reader NumberText
  | .number n => match n.nat? with
    | some k => .ok (.integer (UInt64.ofNat k))
    | none => .error .notANumber
  | .string s => .ok (.text s)
  | _ => .error .notANumber

def seconds : Reader Int
  | .number n => match n.nat?, n.negative? with
    | some k, _ => if k < Nat.pow 2 63 then .ok k else .error (.outOfRange k)
    | none, some k => .ok (-k)
    | none, none => .error (.wrongType (.number n) "i64")
  | j => .error (.wrongType j "i64")

def nullable {α : Type} (read : Reader α) : Reader (Option α)
  | .null => .ok none
  | j => (read j).map some

def list {α : Type} (read : Reader α) : Reader (List α)
  | .array xs => xs.mapM read
  | j => .error (.wrongType j "a sequence")

/-- The member of the given name, checked if it is there. -/
def member {α : Type} (ms : Json.Members) (name : String) (read : Reader α) :
    Except Misfit (Option α) :=
  match ms.last? name with
  | some j => (read j).map some
  | none => .ok none

/-- The member of the given name, which may be absent or null. -/
def optional {α : Type} (ms : Json.Members) (name : String) (read : Reader α) :
    Except Misfit (Option α) :=
  (member ms name (nullable read)).map Option.join

def required {α : Type} (name : String) : Option α → Except Misfit α
  | some a => .ok a
  | none => .error (.missing name)

/-- The name and the number of fields of a record. -/
structure Shape where
  name : String
  size : Nat

/-- The element of an array at the place of a field. -/
def Shape.element {α : Type} (shape : Shape) (xs : List Json) (index : Nat) (read : Reader α) :
    Except Misfit α :=
  match xs[index]? with
  | some j => read j
  | none => .error (.tooShort index shape.name shape.size)

/-- Refuses an array that has more elements than the record has fields. -/
def Shape.noMore (shape : Shape) (xs : List Json) : Except Misfit Unit :=
  if shape.size < xs.length then .error (.tooLong xs.length) else .ok ()

/-- A record given by its members or by its elements. -/
def Shape.record {α : Type} (shape : Shape) (ofMembers : Json.Members → Except Misfit α)
    (ofElements : List Json → Except Misfit α) : Reader α
  | .object ms => ofMembers ms
  | .array xs => do
    let a ← ofElements xs
    shape.noMore xs
    return a
  | j => .error (.wrongType j shape.name)

def accountShape : Shape := ⟨"struct RawAccount", 2⟩

def account : Reader Account :=
  accountShape.record
    (fun ms => do
      let email ← optional ms "email" text
      let name ← optional ms "name" text
      return { name, email })
    (fun xs => do
      let name ← accountShape.element xs 0 (nullable text)
      let email ← accountShape.element xs 1 (nullable text)
      return { name, email })

def approvalShape : Shape := ⟨"struct RawApproval", 2⟩

def approval : Reader Approval :=
  approvalShape.record
    (fun ms => do
      let category ← member ms "type" text
      let value ← member ms "value" text
      return { category := ← required "type" category, value := ← required "value" value })
    (fun xs => do
      let category ← approvalShape.element xs 0 text
      let value ← approvalShape.element xs 1 text
      return { category, value })

/-- A change whose number is still to be read. -/
structure ChangeFields where
  project : String
  branch : String
  id : String
  number : NumberText
  subject : String
  owner : Option Account
  url : Option String
  deriving DecidableEq

def changeShape : Shape := ⟨"struct RawChange", 7⟩

def change : Reader ChangeFields :=
  changeShape.record
    (fun ms => do
      let branch ← member ms "branch" text
      let id ← member ms "id" text
      let number ← member ms "number" numberText
      let owner ← optional ms "owner" account
      let project ← member ms "project" text
      let subject ← member ms "subject" text
      let url ← optional ms "url" text
      return {
        project := ← required "project" project
        branch := ← required "branch" branch
        id := ← required "id" id
        number := ← required "number" number
        subject := subject.getD ""
        owner, url })
    (fun xs => do
      let project ← changeShape.element xs 0 text
      let branch ← changeShape.element xs 1 text
      let id ← changeShape.element xs 2 text
      let number ← changeShape.element xs 3 numberText
      -- The subject alone may be left out, which shows only in the place where reading stops.
      let subject ← match xs[4]? with
        | some j => text j
        | none => pure ""
      let owner ← changeShape.element xs 5 (nullable account)
      let url ← changeShape.element xs 6 (nullable text)
      return { project, branch, id, number, subject, owner, url })

/-- A patch set whose number is still to be read. -/
structure PatchSetFields where
  number : NumberText
  revision : String
  reference : String
  uploader : Option Account
  deriving DecidableEq

def patchSetShape : Shape := ⟨"struct RawPatchSet", 4⟩

def patchSet : Reader PatchSetFields :=
  patchSetShape.record
    (fun ms => do
      let number ← member ms "number" numberText
      let reference ← member ms "ref" text
      let revision ← member ms "revision" text
      let uploader ← optional ms "uploader" account
      return {
        number := ← required "number" number
        revision := ← required "revision" revision
        reference := ← required "ref" reference
        uploader })
    (fun xs => do
      let number ← patchSetShape.element xs 0 numberText
      let revision ← patchSetShape.element xs 1 text
      let reference ← patchSetShape.element xs 2 text
      let uploader ← patchSetShape.element xs 3 (nullable account)
      return { number, revision, reference, uploader })

/-- All that a line about a patch set may hold, whatever its kind. -/
structure ReviewFields where
  change : ChangeFields
  patchSet : PatchSetFields
  uploader : Option Account
  abandoner : Option Account
  submitter : Option Account
  author : Option Account
  reason : Option String
  comment : Option String
  approvals : List Approval
  createdOn : Option Int

/-- Reads a line about a patch set. The patch set has two spellings, of which one may be used. -/
def review (ms : Json.Members) : Except Misfit ReviewFields := do
  let abandoner ← optional ms "abandoner" account
  let approvals ← member ms "approvals" (list approval)
  let author ← optional ms "author" account
  let change ← member ms "change" change
  let comment ← optional ms "comment" text
  let createdOn ← optional ms "eventCreatedOn" seconds
  let upper ← member ms "patchSet" patchSet
  let patchSet ← match upper, ms.last? "patchset" with
    | some _, some _ => throw (.duplicate "patchSet")
    | some p, none => pure (some p)
    | none, _ => member ms "patchset" patchSet
  let reason ← optional ms "reason" text
  let submitter ← optional ms "submitter" account
  let uploader ← optional ms "uploader" account
  return {
    change := ← required "change" change
    patchSet := ← required "patchSet" patchSet
    uploader, abandoner, submitter, author, reason, comment
    approvals := approvals.getD []
    createdOn }

def refUpdateShape : Shape := ⟨"struct RawRefUpdate", 4⟩

def refUpdate : Reader RefUpdate :=
  refUpdateShape.record
    (fun ms => do
      let newRev ← member ms "newRev" text
      let oldRev ← member ms "oldRev" text
      let project ← member ms "project" text
      let refName ← member ms "refName" text
      return {
        project := ← required "project" project
        refName := ← required "refName" refName
        oldRev := ← required "oldRev" oldRev
        newRev := ← required "newRev" newRev })
    (fun xs => do
      let project ← refUpdateShape.element xs 0 text
      let refName ← refUpdateShape.element xs 1 text
      let oldRev ← refUpdateShape.element xs 2 text
      let newRev ← refUpdateShape.element xs 3 text
      return { project, refName, oldRev, newRev })

/-- All that a line about a reference may hold. -/
structure ReferenceFields where
  update : RefUpdate
  submitter : Option Account
  createdOn : Option Int

def reference (ms : Json.Members) : Except Misfit ReferenceFields := do
  let createdOn ← optional ms "eventCreatedOn" seconds
  let update ← member ms "refUpdate" refUpdate
  let submitter ← optional ms "submitter" account
  return { update := ← required "refUpdate" update, submitter, createdOn }

end ReviewStream.Payload

import ReviewStream.Calendar.Timestamp

/-!
# Review events

What a review server announces: patch sets that were created, changes that were abandoned, merged
or commented on, and references that were updated. All but the last concern a change and one of its
patch sets. A patch set is identified by the number of its change and its own number within the
change. Keys are ordered by change first.
-/

namespace ReviewStream

structure PatchSetKey where
  change : UInt64
  patchSet : UInt64
  deriving DecidableEq, Repr, Inhabited

namespace PatchSetKey

/-- The key as `change,patchset`. -/
def render (k : PatchSetKey) : String :=
  Nat.repr k.change.toNat ++ "," ++ Nat.repr k.patchSet.toNat

/-- Whether `a` comes before `b`. -/
def before (a b : PatchSetKey) : Bool :=
  a.change < b.change || (a.change = b.change && a.patchSet < b.patchSet)

/-- Puts a key at its place in an ascending list, unless it is there already. -/
def insertSorted (k : PatchSetKey) : List PatchSetKey → List PatchSetKey
  | [] => [k]
  | k' :: rest =>
    if k.before k' then k :: k' :: rest
    else if k = k' then k' :: rest
    else k' :: insertSorted k rest

/-- The keys in ascending order without repetitions. -/
def sorted (ks : List PatchSetKey) : List PatchSetKey := ks.foldr insertSorted []

end PatchSetKey

structure Provider where
  name : String
  host : String
  port : UInt16
  scheme : String
  version : Option String
  deriving DecidableEq, Repr

/-- The server as `name (scheme://host:port)`. -/
def Provider.render (p : Provider) : String :=
  p.name ++ " (" ++ p.scheme ++ "://" ++ p.host ++ ":" ++ Nat.repr p.port.toNat ++ ")"

structure Account where
  name : Option String
  email : Option String
  deriving DecidableEq, Repr

/-- The name and the address in angle brackets, as far as they are known. -/
def Account.nameAndEmail (a : Account) : Option String :=
  match a.name, a.email with
  | some n, some e => some (n ++ " <" ++ e ++ ">")
  | some n, none => some n
  | none, some e => some ("<" ++ e ++ ">")
  | none, none => none

structure Change where
  project : String
  branch : String
  id : String
  number : UInt64
  subject : String
  owner : Option Account
  url : Option String
  deriving DecidableEq, Repr

/-- One revision of a change. -/
structure PatchSet where
  number : UInt64
  revision : String
  reference : String
  uploader : Option Account
  deriving DecidableEq, Repr

/-- A reference that moved from one revision to another. -/
structure RefUpdate where
  project : String
  refName : String
  oldRev : String
  newRev : String
  deriving DecidableEq, Repr

structure Approval where
  category : String
  value : String
  deriving DecidableEq, Repr

/-- What all events about a patch set share. -/
structure ReviewFacts where
  change : Change
  patchSet : PatchSet
  provider : Option Provider
  createdOn : Calendar.Timestamp
  deriving DecidableEq, Repr

inductive Event where
  | patchSetCreated (facts : ReviewFacts)
  | changeAbandoned (facts : ReviewFacts) (abandoner : Option Account) (reason : Option String)
  | changeMerged (facts : ReviewFacts) (submitter : Option Account)
  | commentAdded (facts : ReviewFacts) (author : Option Account) (comment : Option String)
      (approvals : List Approval)
  | refUpdated (update : RefUpdate) (submitter : Option Account) (createdOn : Calendar.Timestamp)
  deriving DecidableEq, Repr

inductive EventKind where
  | patchSetCreated
  | changeAbandoned
  | changeMerged
  | commentAdded
  | refUpdated
  deriving DecidableEq, Repr

namespace EventKind

def all : List EventKind :=
  [.patchSetCreated, .changeAbandoned, .changeMerged, .commentAdded, .refUpdated]

def name : EventKind → String
  | .patchSetCreated => "patchset-created"
  | .changeAbandoned => "change-abandoned"
  | .changeMerged => "change-merged"
  | .commentAdded => "comment-added"
  | .refUpdated => "ref-updated"

/-- The kind with exactly the given name. -/
def ofName? (s : String) : Option EventKind := all.find? fun k => k.name = s

end EventKind

/-- Whether two texts differ at most in the case of ASCII letters. -/
def sameIgnoringCase (s t : String) : Bool := Calendar.lowerAscii s = Calendar.lowerAscii t

/-- The kind with the given name, whatever the case of its letters. -/
def EventKind.find? (s : String) : Option EventKind :=
  all.find? fun k => sameIgnoringCase k.name s

/-- Whether one of the votes is `value` on the label `category`, whose case does not matter. -/
def matchesApproval (approvals : List Approval) (category value : String) : Bool :=
  approvals.any fun a => sameIgnoringCase a.category category && a.value = value

def ReviewFacts.key (f : ReviewFacts) : PatchSetKey := ⟨f.change.number, f.patchSet.number⟩

namespace Event

def kind : Event → EventKind
  | .patchSetCreated .. => .patchSetCreated
  | .changeAbandoned .. => .changeAbandoned
  | .changeMerged .. => .changeMerged
  | .commentAdded .. => .commentAdded
  | .refUpdated .. => .refUpdated

/-- The change and patch set an event is about, unless it is about a reference. -/
def facts? : Event → Option ReviewFacts
  | .patchSetCreated f => some f
  | .changeAbandoned f _ _ => some f
  | .changeMerged f _ => some f
  | .commentAdded f _ _ _ => some f
  | .refUpdated .. => none

def key? (e : Event) : Option PatchSetKey := e.facts?.map ReviewFacts.key

def provider? (e : Event) : Option Provider := e.facts?.bind ReviewFacts.provider

def createdOn : Event → Calendar.Timestamp
  | .patchSetCreated f => f.createdOn
  | .changeAbandoned f _ _ => f.createdOn
  | .changeMerged f _ => f.createdOn
  | .commentAdded f _ _ _ => f.createdOn
  | .refUpdated _ _ t => t

def project : Event → String
  | .patchSetCreated f => f.change.project
  | .changeAbandoned f _ _ => f.change.project
  | .changeMerged f _ => f.change.project
  | .commentAdded f _ _ _ => f.change.project
  | .refUpdated r _ _ => r.project

/-- The event in one line: its kind and what it is about. -/
def render (e : Event) : String :=
  match e with
  | .refUpdated r _ _ => e.kind.name ++ " " ++ r.project ++ ":" ++ r.refName ++ " " ++ r.newRev
  | .patchSetCreated f | .changeAbandoned f _ _ | .changeMerged f _ | .commentAdded f _ _ _ =>
    e.kind.name ++ " " ++ f.change.project ++ " change " ++ Nat.repr f.change.number.toNat ++
      " patchset " ++ Nat.repr f.patchSet.number.toNat

end Event

end ReviewStream

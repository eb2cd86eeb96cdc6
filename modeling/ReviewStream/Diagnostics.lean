import ReviewStream.Connection.Basic
import ReviewStream.Ledger.Basic
import ReviewStream.Text.Basic

/-!
# Diagnostics over HTTP

Read-only views of the ledger and of the connection. A path is matched as it stands, segment by
segment, and percent escapes count only in the numbers of a patch set.
-/

namespace ReviewStream

/-- How far the builds of a patch set have come. -/
structure PatchSetStatus where
  statusReport : String
  started : Nat
  total : Nat
  allStarted : Bool
  allCompleted : Bool
  deriving DecidableEq, Repr

def Imprint.status (i : Imprint) : PatchSetStatus :=
  { statusReport := i.statusReport, started := i.progress.started, total := i.progress.total
    allStarted := i.allStarted, allCompleted := i.allCompleted }

def PatchSetStatus.toJson (s : PatchSetStatus) : Json :=
  .object [("status_report", .string s.statusReport), ("started", .ofNat s.started),
    ("total", .ofNat s.total), ("all_started", .bool s.allStarted),
    ("all_completed", .bool s.allCompleted)]

namespace Diagnostics

inductive Body where
  | empty
  | text (s : String)
  | json (j : Json)

structure Response where
  status : Nat
  body : Body

/-- The views that can be asked for. A patch set is given by two segments that are still to be
read. -/
inductive Route where
  | health
  | memory
  | patchSet (change number : List Char)
  | connection
  deriving DecidableEq, Repr

/-- A path without its query and fragment. -/
def barePath (path : String) : List Char := path.toList.takeWhile fun c => c ≠ '?' && c ≠ '#'

def Route.ofPath? (path : List Char) : Option Route :=
  match (Text.pieces '/' path).map String.ofList with
  | ["", "health"] => some .health
  | ["", "api", "v1", "memory"] => some .memory
  | ["", "api", "v1", "connection"] => some .connection
  | ["", "api", "v1", "changes", change, number] =>
    if number = "" then none else some (.patchSet change.toList number.toList)
  | _ => none

def hexValue? (c : Char) : Option Nat :=
  if c.isDigit then some (c.toNat - '0'.toNat)
  else if 'a' ≤ c ∧ c ≤ 'f' then some (c.toNat - 'a'.toNat + 10)
  else if 'A' ≤ c ∧ c ≤ 'F' then some (c.toNat - 'A'.toNat + 10)
  else none

/-- The bytes of a segment, with percent escapes replaced by the bytes they stand for. A percent
sign without two digits stands for itself. -/
def segmentBytes : List Char → List UInt8
  | [] => []
  | '%' :: a :: b :: rest =>
    match hexValue? a, hexValue? b with
    | some x, some y => UInt8.ofNat (x * 16 + y) :: segmentBytes rest
    | _, _ => '%'.toUInt8 :: segmentBytes (a :: b :: rest)
  | c :: rest => (String.singleton c).toUTF8.toList ++ segmentBytes rest

/-- The text of a segment, provided that its bytes are one. -/
def segmentText? (segment : List Char) : Option String :=
  String.fromUTF8? ⟨(segmentBytes segment).toArray⟩

/-- The unsigned 64 bit number in a segment. -/
def segmentNumber? (segment : List Char) : Option UInt64 := do
  let s ← segmentText? segment
  let n ← Text.unsignedBelow? UInt64.size s.toList
  return UInt64.ofNat n

def ok (body : Body) : Response := ⟨200, body⟩

def badRequest : Response := ⟨400, .text "Invalid URL"⟩

def notFound : Response := ⟨404, .empty⟩

def methodNotAllowed : Response := ⟨405, .empty⟩

def view (ledger : Ledger) (connection : ConnectionStatus) (time : Instant → Json) :
    Route → Response
  | .health => ok (.text "OK")
  | .memory => ok (.json (reportToJson time ledger.report))
  | .connection => ok (.json connection.toJson)
  | .patchSet change number =>
    match segmentNumber? change, segmentNumber? number with
    | some c, some p =>
      let key : PatchSetKey := ⟨c, p⟩
      match ledger.get? key with
      | some i => ok (.json i.status.toJson)
      | none => ⟨404, .text ("no builds tracked for patchset " ++ key.render)⟩
    | _, _ => badRequest

/-- The answer to a request. Only GET and HEAD are served, and HEAD gets no body. -/
def respond (ledger : Ledger) (connection : ConnectionStatus) (time : Instant → Json)
    (method path : String) : Response :=
  match Route.ofPath? (barePath path) with
  | none => notFound
  | some route =>
    if method = "GET" then view ledger connection time route
    else if method = "HEAD" then { view ledger connection time route with body := .empty }
    else methodNotAllowed

end Diagnostics

end ReviewStream

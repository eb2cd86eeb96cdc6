import ReviewStream.Connection.Backoff
import ReviewStream.Event.Basic
import ReviewStream.Json.Basic
import ReviewStream.Text.Basic

/-!
# The connection

One reader keeps the event stream open. It connects, reads lines and posts them to a queue until the
session ends, pauses and connects again. A reconnect may be requested at any time: it closes the
session that is open, and requests that come before the next session is opened count but do nothing
more. After a shutdown the reader closes its session and does not connect any more.

A stream is read as bytes and cut after every newline; the last line need not have one. A line that
is no text or blank is passed over, and returns at its end do not belong to it.

The connection is a machine whose steps are requests from outside and what the reader comes to. A
step is possible or not in a state, and it shows in acts.
-/

namespace ReviewStream

namespace Connection

/-- The byte that ends a line. -/
def newline : UInt8 := 10

/-- The first line of the bytes, without its newline, and what comes after it. -/
def cutLine? (bytes : List UInt8) : Option (List UInt8 × List UInt8) :=
  match bytes.dropWhile (· ≠ newline) with
  | [] => none
  | _ :: rest => some (bytes.takeWhile (· ≠ newline), rest)

theorem length_lt_of_cutLine? {bytes line rest : List UInt8}
    (h : cutLine? bytes = some (line, rest)) : rest.length < bytes.length := by
  unfold cutLine? at h
  split at h
  · simp at h
  · rename_i b rest' hd
    simp only [Option.some.injEq, Prod.mk.injEq] at h
    have hs : (bytes.dropWhile (· ≠ newline)).length ≤ bytes.length :=
      (List.dropWhile_sublist _).length_le
    rw [hd, List.length_cons] at hs
    rw [← h.2]
    omega

/-- A text without the returns at its end. -/
def withoutReturns (cs : List Char) : List Char :=
  (cs.reverse.dropWhile (· = '\r')).reverse

/-- What a line says. A line that is no text or blank says nothing. -/
def lineText? (line : List UInt8) : Option String :=
  (String.fromUTF8? ⟨line.toArray⟩).bind fun s =>
    let cs := withoutReturns s.toList
    if Text.allBlank cs then none else some (String.ofList cs)

/-- The lines that are complete, and the bytes after the last of them. -/
def cutLines (bytes : List UInt8) : List (List UInt8) × List UInt8 :=
  match h : cutLine? bytes with
  | none => ([], bytes)
  | some (line, rest) =>
    have := length_lt_of_cutLine? h
    let (lines, rest) := cutLines rest
    (line :: lines, rest)
termination_by bytes.length

/-- The lines of a stream that has ended. -/
def streamLines (bytes : List UInt8) : List (List UInt8) :=
  let (lines, rest) := cutLines bytes
  if rest.isEmpty then lines else lines ++ [rest]

/-- What the reader is about to do. -/
inductive Phase where
  | unstarted
  | connecting
  | reading
  | posting (line : String)
  | pausing (delay : Duration)
  | gone
  deriving DecidableEq, Repr

/-- A request from outside or something the reader comes to. -/
inductive Step where
  | start
  | reconnect
  | shutdown
  /-- The attempt to connect succeeded. -/
  | opened
  /-- The attempt to connect failed. -/
  | failed
  /-- A line was read. -/
  | received (line : List UInt8)
  /-- The stream ended or could not be read on. -/
  | ended
  /-- The queue accepted the line that was to be posted. -/
  | posted
  /-- The queue was closed before it could accept the line. -/
  | dropped
  /-- The reader found its session cut. -/
  | closed
  /-- The pause is over. -/
  | resumed
  /-- The reader found the connection shut down when it had no session. -/
  | stopped
  deriving DecidableEq, Repr

/-- What a step shows to the outside. -/
inductive Act where
  | attempt
  | up
  | down
  | post (line : String) (provider : Provider)
  | pause (delay : Duration)
  deriving DecidableEq, Repr

/-- The server of a connection and the pauses between attempts. -/
structure Setup where
  provider : Provider
  backoff : Backoff

end Connection

structure Connection where
  phase : Connection.Phase := .unstarted
  /-- How many attempts have failed in a row. -/
  failures : UInt32 := 0
  /-- Whether the session is to be closed. -/
  cut : Bool := false
  /-- Whether a reconnect was requested and no session has been opened since. -/
  pending : Bool := false
  connected : Bool := false
  /-- How many reconnects were requested. -/
  reconnects : UInt64 := 0
  shutDown : Bool := false
  deriving DecidableEq, Repr

/-- Whether the event stream is up, and how often it was told to reconnect. -/
structure ConnectionStatus where
  connected : Bool := false
  reconnectCount : Nat := 0
  deriving DecidableEq, Repr

def ConnectionStatus.toJson (s : ConnectionStatus) : Json :=
  .object [("connected", .bool s.connected), ("reconnect_count", .ofNat s.reconnectCount)]

namespace Connection

def inSession (c : Connection) : Bool :=
  match c.phase with
  | .reading | .posting _ => true
  | _ => false

/-- Whether the open session has to be closed. -/
def isCut (c : Connection) : Bool := c.cut || c.shutDown

def status (c : Connection) : ConnectionStatus := ⟨c.connected, c.reconnects.toNat⟩

/-- One failure more. The count stays at its limit. -/
def countFailure (n : UInt32) : UInt32 := if n = 0xffffffff then n else n + 1

/-- Starts the reader, unless it was started before or the connection is shut down. -/
def start (c : Connection) : Connection × List Act :=
  if c.phase = .unstarted ∧ ¬c.shutDown then ({ c with phase := .connecting }, [.attempt])
  else (c, [])

def reconnect (c : Connection) : Connection :=
  if c.pending then { c with reconnects := c.reconnects + 1 }
  else { c with reconnects := c.reconnects + 1, pending := true, cut := c.cut || c.inSession }

/-- Shuts the connection down. If the reader is gone, nothing is connected any more. -/
def shutdown (c : Connection) : Connection :=
  { c with shutDown := true, connected := c.connected && c.phase ≠ .gone }

/-- The reader gives up for good and leaves everything as it is. -/
def breakOff (c : Connection) : Connection := { c with phase := .gone }

def openSession (c : Connection) : Connection × List Act :=
  ({ c with phase := .reading, failures := 0, cut := false, pending := false, connected := true },
    [.up])

/-- Pauses after a failed attempt. Where there is no pause the reader gives up. -/
def fail (S : Setup) (c : Connection) : Connection × List Act :=
  match S.backoff.delay? c.failures.toNat with
  | none => (c.breakOff, [])
  | some d => ({ c with phase := .pausing d, failures := countFailure c.failures }, [.pause d])

/-- Pauses after a session, or gives up if the connection is shut down. -/
def closeSession (S : Setup) (c : Connection) : Connection × List Act :=
  let closed : Connection := { c with cut := false, connected := false }
  if c.shutDown then (closed.breakOff, [.down])
  else ({ closed with phase := .pausing S.backoff.initial }, [.down, .pause S.backoff.initial])

/-- The state after a step and what the step shows, if it is possible. -/
def step? (S : Setup) (c : Connection) : Step → Option (Connection × List Act)
  | .start => some c.start
  | .reconnect => some (c.reconnect, [])
  | .shutdown => some (c.shutdown, [])
  | .opened => if c.phase = .connecting ∧ ¬c.shutDown then some c.openSession else none
  | .failed => if c.phase = .connecting ∧ ¬c.shutDown then some (c.fail S) else none
  | .received line =>
    if c.phase = .reading ∧ ¬c.isCut then
      match lineText? line with
      | none => some (c, [])
      | some text => some ({ c with phase := .posting text }, [])
    else none
  | .ended => if c.phase = .reading ∧ ¬c.isCut then some (c.closeSession S) else none
  | .posted =>
    match c.phase with
    | .posting text =>
      if c.isCut then none else some ({ c with phase := .reading }, [.post text S.provider])
    | _ => none
  | .dropped =>
    match c.phase with
    | .posting _ => if c.isCut then none else some ({ c with phase := .reading }, [])
    | _ => none
  | .closed => if c.inSession ∧ c.isCut then some (c.closeSession S) else none
  | .resumed =>
    match c.phase with
    | .pausing _ =>
      if c.shutDown then none else some ({ c with phase := .connecting }, [.attempt])
    | _ => none
  | .stopped =>
    match c.phase with
    | .connecting | .pausing _ => if c.shutDown then some (c.breakOff, []) else none
    | _ => none

/-- The state after steps and what they show, if each of them is possible in its turn. -/
def run? (S : Setup) (c : Connection) : List Step → Option (Connection × List Act)
  | [] => some (c, [])
  | s :: rest => do
    let (c, acts) ← c.step? S s
    let (c, more) ← run? S c rest
    return (c, acts ++ more)

end Connection

end ReviewStream

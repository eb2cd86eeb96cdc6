import ReviewStream.Connection.Basic
import ReviewStream.Watchdog.Basic
import ReviewStream.Work.Pool

/-!
# Rehearsed connections

A connection is rehearsed against a script of sessions on a clock that counts milliseconds and jumps
from one event to the next. Lines wait in a queue for one worker, which may need a permit to finish
each of them. A watchdog guards every session.
-/

namespace ReviewStream.Connection

inductive ConnectError where
  | refused (host : String) (port : Nat)
  | failed (reason : String)
  deriving DecidableEq, Repr

def ConnectError.message : ConnectError → String
  | .refused host port => "connection refused by " ++ host ++ ":" ++ Nat.repr port
  | .failed reason => "I/O error: " ++ reason

inductive Ending where
  | closed
  | broken
  deriving DecidableEq, Repr

/-- One scripted attempt to connect. It takes a while and fails, or bytes arrive in chunks, each
some time after the one before, until the stream ends or stays silent. -/
structure Session where
  delay : Nat := 0
  failure : Option ConnectError := none
  chunks : List (Nat × List UInt8) := []
  ending : Option Ending := none
  deriving DecidableEq, Repr

/-- Whom the connection tells that it is up or down. A listener is seen to be told or not, and it
may break off. -/
structure Listener where
  id : String
  seen : Bool
  breaksOff : Bool → Bool

inductive Sight where
  | attempt
  | told (listener : String) (up : Bool)
  deriving DecidableEq, Repr

/-- The fixed side of a rehearsal. -/
structure Stage where
  setup : Setup
  watchdog : WatchdogSettings
  wall : Duration → Calendar.Weekday × Watchdog.TimeOfDay
  /-- Whether the worker needs permits. -/
  rationed : Bool

structure Rehearsal where
  connection : Connection := {}
  now : Nat := 0
  /-- When the attempt or the pause under way is over. -/
  wakeAt : Nat := 0
  /-- The session that is under way, and those to come. -/
  session : Session := {}
  script : List Session
  /-- What is still to arrive in this session, and what has arrived but was not read yet. -/
  arriving : List (Nat × List UInt8) := []
  unread : List UInt8 := []
  guardian : Option Watchdog.Watch := none
  lines : Pool String
  permits : Nat := 0
  listeners : List Listener := []
  seen : List (Nat × Sight) := []
  taken : List (Nat × String) := []

namespace Rehearsal

/-- A rehearsal of a script with a queue of some capacity. -/
def ofScript (script : List Session) (capacity : Nat) : Except CapacityError Rehearsal :=
  (Pool.bounded? 1 capacity).map fun lines => { script, lines }

def clock (r : Rehearsal) : Duration := .ofMillis r.now

def see (r : Rehearsal) (x : Sight) : Rehearsal := { r with seen := r.seen ++ [(r.now, x)] }

/-- Tells listeners whether the connection is up. One that breaks off takes the reader with it. -/
def tellEach (up : Bool) : List Listener → Rehearsal → Rehearsal
  | [], r => r
  | l :: ls, r =>
    let r := if l.seen then r.see (.told l.id up) else r
    if l.breaksOff up then { r with connection := r.connection.breakOff } else tellEach up ls r

/-- Begins the next attempt. A script that is over goes on with silent sessions. -/
def attempt (r : Rehearsal) : Rehearsal :=
  let session := r.script.headD {}
  let wakeAt := r.now + (Duration.ofMillis session.delay).waitMillis
  (({ r with session, script := r.script.tail, wakeAt } : Rehearsal)).see .attempt

/-- The chunks with the moments at which they arrive. -/
def schedule (t : Nat) : List (Nat × List UInt8) → List (Nat × List UInt8)
  | [] => []
  | (after, bytes) :: rest =>
    let arrival := t + (Duration.ofMillis after).waitMillis
    (arrival, bytes) :: schedule arrival rest

/-- Lets an act of the connection take effect. -/
def perform (S : Stage) (r : Rehearsal) : Act → Rehearsal
  | .attempt => r.attempt
  | .up =>
    tellEach true r.listeners { r with
      arriving := schedule r.now r.session.chunks
      unread := []
      guardian := if S.watchdog.isEnabled then some (.start S.watchdog r.clock true) else none }
  | .down => tellEach false r.listeners { r with arriving := [], unread := [], guardian := none }
  | .post line _ => { r with lines := (r.lines.trySubmit line).toOption.getD r.lines }
  | .pause delay => { r with wakeAt := r.now + delay.waitMillis }

/-- Takes a step of the connection, if it is possible. -/
def take (S : Stage) (r : Rehearsal) (s : Step) : Rehearsal :=
  match r.connection.step? S.setup s with
  | some (connection, acts) => acts.foldl (perform S) { r with connection }
  | none => r

/-- The worker takes lines and finishes them as far as it can. -/
def work (S : Stage) (r : Rehearsal) : Rehearsal :=
  let permits := if S.rationed then r.permits else r.lines.busy.length + r.lines.queue.length
  let (turns, left, lines) := r.lines.spend permits
  let begun := turns.filterMap fun
    | .begun line => some (r.now, line)
    | .finished _ => none
  { r with lines, permits := if S.rationed then left else r.permits, taken := r.taken ++ begun }

/-- Reads a line: the watchdog is told, and the connection gets it. -/
def read (S : Stage) (r : Rehearsal) (line rest : List UInt8) : Rehearsal :=
  let guardian := r.guardian.map fun g => { g with watchdog := g.watchdog.signal r.clock }
  ({ r with unread := rest, guardian } : Rehearsal).take S (.received line)

/-- What the reader comes to now, if anything. -/
def react? (S : Stage) (r : Rehearsal) : Option Rehearsal :=
  let c := r.connection
  match c.phase with
  | .unstarted | .gone => none
  | .connecting =>
    if c.shutDown then some (r.take S .stopped)
    else if r.now < r.wakeAt then none
    else some (r.take S (if r.session.failure.isSome then .failed else .opened))
  | .pausing _ =>
    if c.shutDown then some (r.take S .stopped)
    else if r.now < r.wakeAt then none
    else some (r.take S .resumed)
  | .reading =>
    if c.isCut then some (r.take S .closed)
    else match cutLine? r.unread with
      | some (line, rest) => some (r.read S line rest)
      | none =>
        if !r.arriving.isEmpty then none
        else match r.session.ending with
          | none => none
          | some .broken => some (r.take S .ended)
          | some .closed =>
            some (if r.unread.isEmpty then r.take S .ended else r.read S r.unread [])
  | .posting line =>
    if c.isCut then some (r.take S .closed)
    else match r.lines.trySubmit line with
      | .ok _ => some (r.take S .posted)
      | .error .closed => some (r.take S .dropped)
      | .error (.full _) => none

/-- The moments at which something is due. -/
def dues (r : Rehearsal) : List Nat :=
  (match r.connection.phase with
    | .connecting | .pausing _ => [r.wakeAt]
    | _ => []) ++
  (r.arriving.head?.map Prod.fst).toList ++
    ((r.guardian.bind (·.due?)).map (·.millisRoundedUp)).toList

/-- The checks of the watchdog that are due, which may request reconnects. -/
def check (S : Stage) (r : Rehearsal) : Rehearsal :=
  match r.guardian with
  | none => r
  | some g =>
    let (requests, g) := g.pass S.wall r.clock
    requests.foldl (fun r _ => r.take S .reconnect) { r with guardian := some g }

/-- Moves the clock on to a moment at which something is due, and lets it happen. -/
def jump (S : Stage) (r : Rehearsal) (t : Nat) : Rehearsal :=
  let (arrived, arriving) := r.arriving.span (·.1 ≤ t)
  ({ r with now := t, unread := r.unread ++ arrived.flatMap Prod.snd, arriving } :
    Rehearsal).check S

/-- Lets everything happen up to a horizon, as long as the fuel lasts. -/
def runFor (S : Stage) (horizon : Nat) : Nat → Rehearsal → Rehearsal
  | 0, r => r
  | fuel + 1, r =>
    let r := r.work S
    match r.react? S with
    | some r => runFor S horizon fuel r
    | none =>
      match (r.dues.filter (· ≤ horizon)).min? with
      | some t => runFor S horizon fuel (r.jump S (max r.now t))
      | none => { r with now := horizon }

/-- More than can happen in a session once it has been opened: every byte may be a line of its own
that is read and posted. -/
def sessionBound (chunks : List (Nat × List UInt8)) : Nat :=
  chunks.foldr (fun c n => 2 * c.2.length + 1 + n) 8

/-- More than can happen up to a horizon. -/
def bound (r : Rehearsal) (horizon : Nat) : Nat :=
  2 * r.unread.length + sessionBound r.arriving + sessionBound r.session.chunks +
    r.script.foldr (fun s n => sessionBound s.chunks + n) (8 * (horizon - r.now + 1))

/-- Lets everything happen while one waits for some time. -/
def advance (S : Stage) (r : Rehearsal) (millis : Nat) : Rehearsal :=
  let horizon := r.now + (Duration.ofMillis millis).waitMillis
  runFor S horizon (r.bound horizon) r

/-- How long taking the worker away waits for it, in milliseconds. -/
def stopLimit : Nat := 1

/-- Takes the worker away. While it is not done with its line the queue stays open. -/
def closeQueue (S : Stage) (r : Rehearsal) : Rehearsal :=
  advance S { r with lines := r.lines.stop } (r.lines.stopWait stopLimit)

end Rehearsal

end ReviewStream.Connection

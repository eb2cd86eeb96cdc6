import ReviewStream.Event.Basic
import ReviewStream.Gate.Basic
import ReviewStream.Settings.SocketAddress
import ReviewStream.Text.Quoted
import ReviewStream.Watchdog.Basic

/-!
# Settings

Settings come from variables with a common start of their names. Values are trimmed, and a variable
that is unset, blank or does not parse leaves its own setting at the default.
-/

namespace ReviewStream

structure Settings where
  serverName : String := "gerrit"
  host : String := "localhost"
  port : UInt16 := 29418
  serverVersion : Option String := none
  watchdog : WatchdogSettings := {}
  receivingWorkers : UInt64 := 3
  sendingWorkers : UInt64 := 1
  queueCapacity : UInt64 := 1024
  buildScheduleDelay : Duration := .ofSeconds 3
  jobDependencies : List (JobName × String) := []
  httpAddress : Settings.SocketAddress := .v4 [0, 0, 0, 0] 3000
  deriving DecidableEq, Repr

namespace Settings

/-- The entry of a list of dependencies that is none. -/
structure InvalidEntry where
  entry : String
  deriving DecidableEq, Repr

def InvalidEntry.message (e : InvalidEntry) : String :=
  "expected `job=dependency,...`, got " ++ Text.quoted e.entry

/-- Reads one entry `job=dependencies`, which is trimmed. -/
def parseEntry (cs : List Char) : Except InvalidEntry (JobName × String) :=
  match Text.splitFirst? '=' cs with
  | none => .error ⟨String.ofList cs⟩
  | some (job, names) =>
    let job := Text.trim job
    if job.isEmpty then .error ⟨String.ofList cs⟩
    else .ok (String.ofList job, String.ofList (Text.trim names))

/-- Reads entries separated by semicolons, blank ones being skipped. -/
def parseDependencies (s : String) : Except InvalidEntry (List (JobName × String)) :=
  (((Text.pieces ';' s.toList).map Text.trim).filter fun p => !p.isEmpty).mapM parseEntry

/-- What servers put in front of their version. -/
def versionLabel : List Char := "gerrit version ".toList

/-- The version a server states, without the label in front of it. -/
def formatVersion (s : String) : String :=
  let cs := Text.trim s.toList
  let bare := if versionLabel.isPrefixOf cs then cs.drop versionLabel.length else cs
  String.ofList (Text.trim bare)

/-- What the names of all variables start with. -/
def variableLabel : String := "GERRIT_EVENTS_"

/-- The variables that settings come from, without what their names start with. -/
def variableNames : List String :=
  ["SERVER_NAME", "HOST", "PORT", "SERVER_VERSION", "WATCHDOG_TIMEOUT_SECS",
    "WATCHDOG_EXCEPTION_DAYS", "WATCHDOG_EXCEPTION_TIMES", "RECEIVING_WORKERS", "SENDING_WORKERS",
    "QUEUE_CAPACITY", "BUILD_SCHEDULE_DELAY_SECS", "JOB_DEPENDENCIES", "HTTP_ADDR"]

/-- The trimmed value of a variable, unless it is blank. -/
def value? (lookup : String → Option String) (name : String) : Option String :=
  (lookup (variableLabel ++ name)).bind Text.nonBlank?

def number? (lookup : String → Option String) (name : String) (bound : Nat) : Option Nat :=
  (value? lookup name).bind fun s => Text.unsignedBelow? bound s.toList

def number64? (lookup : String → Option String) (name : String) : Option UInt64 :=
  (number? lookup name UInt64.size).map UInt64.ofNat

/-- The duration in a variable, in seconds. -/
def seconds? (lookup : String → Option String) (name : String) : Option Duration :=
  (number? lookup name UInt64.size).map Duration.ofSeconds

/-- The list in a variable; one that does not parse counts as empty. -/
def list {α ε : Type} (lookup : String → Option String) (name : String)
    (parse : String → Except ε (List α)) : List α :=
  ((value? lookup name).bind fun s => (parse s).toOption).getD []

/-- The settings that variables give. -/
def ofLookup (lookup : String → Option String) : Settings where
  serverName := (value? lookup "SERVER_NAME").getD "gerrit"
  host := (value? lookup "HOST").getD "localhost"
  port := ((number? lookup "PORT" UInt16.size).map UInt16.ofNat).getD 29418
  serverVersion := (value? lookup "SERVER_VERSION").map formatVersion
  watchdog := {
    timeout := (seconds? lookup "WATCHDOG_TIMEOUT_SECS").getD ⟨0⟩
    exceptions := {
      days := list lookup "WATCHDOG_EXCEPTION_DAYS" Watchdog.parseDays
      spans := list lookup "WATCHDOG_EXCEPTION_TIMES" Watchdog.parseSpans } }
  receivingWorkers := (number64? lookup "RECEIVING_WORKERS").getD 3
  sendingWorkers := (number64? lookup "SENDING_WORKERS").getD 1
  queueCapacity := (number64? lookup "QUEUE_CAPACITY").getD 1024
  buildScheduleDelay := (seconds? lookup "BUILD_SCHEDULE_DELAY_SECS").getD (.ofSeconds 3)
  jobDependencies := list lookup "JOB_DEPENDENCIES" parseDependencies
  httpAddress := ((value? lookup "HTTP_ADDR").bind SocketAddress.parse?).getD
    (.v4 [0, 0, 0, 0] 3000)

def provider (s : Settings) : Provider :=
  { name := s.serverName, host := s.host, port := s.port, scheme := "ssh"
    version := s.serverVersion }

end Settings

end ReviewStream

import ReviewStream.Connection.Basic
import ReviewStream.Settings.Basic
import ReviewStream.Tracker
import ReviewStream.Work.Service

/-!
# Command line

Reads the settings from the environment and an event stream from standard input, and logs every
event that comes in.
-/

namespace ReviewStream.CommandLine

/-- A single listener, which logs the events that it is handed. -/
def logger : Fanout (List LogLine) Unit Empty Unit where
  listeners _ := [()]
  hooks _ _ := []
  deliver _ c log := (.returned, log ++ [⟨"INFO", "Received event", [("event", c.event.render)]⟩])
  tell h := h.elim

/-- When events are taken to have come in if they do not say. The log does not show it. -/
def arrival : Calendar.Timestamp := .epoch

/-- What is logged about a line, and the service after it. -/
def receive (provider : Provider) (service : Service Unit) (line : List UInt8) :
    List LogLine × Service Unit :=
  match (Connection.lineText? line).bind fun text => service.submit? (.line text provider) with
  | some (.ok service) => service.performAll logger arrival (fun _ log => log) []
  | _ => ([], service)

/-- Receives lines one after another and writes what is logged about them. -/
def receiveAll (provider : Provider) (service : Service Unit) (lines : List (List UInt8)) :
    IO (Service Unit) :=
  lines.foldlM (fun service line => do
    let (log, service) := receive provider service line
    log.forM fun l => IO.println l.render
    return service) service

/-- Receives the stream to its end. -/
partial def receiveStream (provider : Provider) (input : IO.FS.Stream) (service : Service Unit)
    (unread : List UInt8) : IO Unit := do
  let chunk ← input.read 65536
  if chunk.isEmpty then
    let _ ← receiveAll provider service (Connection.streamLines unread)
  else
    let (lines, rest) := Connection.cutLines (unread ++ chunk.toList)
    receiveStream provider input (← receiveAll provider service lines) rest

/-- The settings in the environment. -/
def readSettings : IO Settings := do
  let values ← Settings.variableNames.mapM fun name => do
    let name := Settings.variableLabel ++ name
    return (name, ← IO.getEnv name)
  return .ofLookup fun name => (values.lookup name).join

end ReviewStream.CommandLine

def main : IO Unit := do
  let settings ← ReviewStream.CommandLine.readSettings
  let line : ReviewStream.LogLine := ⟨"INFO", "Starting", [("provider", settings.provider.render)]⟩
  IO.println line.render
  match ReviewStream.Service.start settings.receivingWorkers.toNat
    settings.sendingWorkers.toNat settings.queueCapacity.toNat with
  | .ok service =>
    ReviewStream.CommandLine.receiveStream settings.provider (← IO.getStdin) service []
  | .error e => throw (IO.userError e.message)

/-!
# Builds

A build is one run of a job, known by the job's name and a number. It has a result once it is
finished.
-/

namespace ReviewStream

abbrev JobName := String

inductive BuildResult where
  | success
  | unstable
  | failure
  | notBuilt
  | aborted
  deriving DecidableEq, Repr

namespace BuildResult

def all : List BuildResult := [.success, .unstable, .failure, .notBuilt, .aborted]

def name : BuildResult → String
  | .success => "SUCCESS"
  | .unstable => "UNSTABLE"
  | .failure => "FAILURE"
  | .notBuilt => "NOT_BUILT"
  | .aborted => "ABORTED"

/-- The result with exactly the given name. -/
def ofName? (s : String) : Option BuildResult := all.find? fun r => r.name = s

end BuildResult

structure Build where
  job : JobName
  number : UInt64
  result : Option BuildResult
  deriving DecidableEq, Repr

namespace Build

/-- The number of a build as text. -/
def renderNumber (n : UInt64) : String := "#" ++ Nat.repr n.toNat

/-- The build as `job #number`. -/
def render (b : Build) : String := b.job ++ " " ++ renderNumber b.number

/-- A build without a result is still running. -/
def isRunning (b : Build) : Bool := b.result.isNone

end Build

end ReviewStream

import ReviewStream.Json.Basic

/-!
# Durations

Durations are counted in nanoseconds and shown as whole seconds and the rest.
-/

namespace ReviewStream

structure Duration where
  nanos : Nat
  deriving DecidableEq, Repr

namespace Duration

def ofSeconds (n : Nat) : Duration := ⟨n * 1000000000⟩

def ofMillis (n : Nat) : Duration := ⟨n * 1000000⟩

/-- The longest duration: its whole seconds take all of 64 bits. -/
def longest : Duration := ⟨UInt64.size * 1000000000 - 1⟩

def seconds (d : Duration) : Nat := d.nanos / 1000000000

/-- The nanoseconds beyond the whole seconds. -/
def subsecond (d : Duration) : Nat := d.nanos % 1000000000

/-- The milliseconds, a begun one counted in full. -/
def millisRoundedUp (d : Duration) : Nat := (d.nanos + 999999) / 1000000

/-- The longest wait: thirty years of 365 days. -/
def longestWait : Duration := .ofSeconds (30 * 365 * 86400)

/-- How long it takes to wait for `d`. -/
def wait (d : Duration) : Duration := ⟨min d.nanos longestWait.nanos⟩

/-- How many milliseconds it takes to wait for `d`. -/
def waitMillis (d : Duration) : Nat := d.wait.millisRoundedUp

def toJson (d : Duration) : Json :=
  .object [("secs", .ofNat d.seconds), ("nanos", .ofNat d.subsecond)]

end Duration

end ReviewStream

import ReviewStream.Text.Basic

/-!
# Socket addresses

An address is given as `a.b.c.d:port` or as `[ipv6]:port`. The octets of the first form have no
leading zeros. The groups of the second form are hexadecimal, `::` stands for at least one group of
zeros, the last two groups may be written as four octets, and a scope may follow behind `%`.
Addresses are written in canonical form: the first longest run of at least two zero groups as `::`,
and addresses that stand for one of four octets with these octets.
-/

namespace ReviewStream.Settings

inductive SocketAddress where
  | v4 (octets : List Nat) (port : Nat)
  | v6 (groups : List Nat) (scope : Nat) (port : Nat)
  deriving DecidableEq, Repr

namespace SocketAddress

/-- A reader of the start of a text, which yields what it read and what is left. -/
abbrev Reader (α : Type) := List Char → Option (α × List Char)

/-- The value of a digit in a base of at most sixteen. -/
def digitIn? (base : Nat) (c : Char) : Option Nat :=
  let value : Option Nat :=
    if c.isDigit then some (c.toNat - '0'.toNat)
    else if 'a' ≤ c ∧ c ≤ 'f' then some (c.toNat - 'a'.toNat + 10)
    else if 'A' ≤ c ∧ c ≤ 'F' then some (c.toNat - 'A'.toNat + 10)
    else none
  value.filter (· < base)

/-- Reads all digits that follow. There has to be at least one, the number has to lie below `bound`,
and there may be at most `most` digits if that is given. -/
def number (base bound : Nat) (most : Option Nat) (leadingZeros : Bool) : Reader Nat := fun cs =>
  let digits := cs.takeWhile fun c => (digitIn? base c).isSome
  let value := (digits.filterMap (digitIn? base)).foldl (fun n d => n * base + d) 0
  if digits.isEmpty || (most.map (decide <| digits.length > ·)).getD false
      || (!leadingZeros && digits.head? = some '0' && digits.length > 1) || bound ≤ value then none
  else some (value, cs.drop digits.length)

def char (c : Char) : Reader Unit
  | c' :: rest => if c' = c then some ((), rest) else none
  | [] => none

/-- Reads the separator in front of all but the first of several items. -/
def separator (c : Char) (index : Nat) : Reader Unit := fun cs =>
  if index = 0 then some ((), cs) else char c cs

def octet : Reader Nat := number 10 256 (some 3) false

def octets : Reader (List Nat) := fun cs => do
  let (a, cs) ← octet cs
  let (_, cs) ← char '.' cs
  let (b, cs) ← octet cs
  let (_, cs) ← char '.' cs
  let (c, cs) ← octet cs
  let (_, cs) ← char '.' cs
  let (d, cs) ← octet cs
  return ([a, b, c, d], cs)

def port : Reader Nat := fun cs => do
  let (_, cs) ← char ':' cs
  number 10 UInt16.size none true cs

/-- The two groups that four octets make up. -/
def groupsOfOctets : List Nat → List Nat
  | [a, b, c, d] => [a * 256 + b, c * 256 + d]
  | _ => []

/-- Reads up to `room` more groups separated by colons. Octets count for two and end the groups. The
flag tells whether there were octets. -/
def groups (index : Nat) : Nat → List Char → List Nat × Bool × List Char
  | 0, cs => ([], false, cs)
  | room + 1, cs =>
    let embedded :=
      if room = 0 then none else (separator ':' index cs).bind fun (_, cs) => octets cs
    match embedded with
    | some (os, rest) => (groupsOfOctets os, true, rest)
    | none =>
      match (separator ':' index cs).bind fun (_, cs) => number 16 UInt16.size (some 4) true cs with
      | some (g, rest) =>
        let (gs, hadOctets, rest) := groups (index + 1) room rest
        (g :: gs, hadOctets, rest)
      | none => ([], false, cs)

/-- Reads eight groups, some of which `::` may stand for. -/
def ipv6 : Reader (List Nat) := fun cs =>
  let (head, hadOctets, rest) := groups 0 8 cs
  if head.length = 8 then some (head, rest)
  else if hadOctets then none
  else do
    let (_, rest) ← char ':' rest
    let (_, rest) ← char ':' rest
    let (tail, _, rest) := groups 0 (7 - head.length) rest
    return (head ++ List.replicate (8 - head.length - tail.length) 0 ++ tail, rest)

def scope (cs : List Char) : Nat × List Char :=
  match (char '%' cs).bind fun (_, cs) => number 10 UInt32.size none true cs with
  | some (n, rest) => (n, rest)
  | none => (0, cs)

def readV4 : Reader SocketAddress := fun cs => do
  let (os, cs) ← octets cs
  let (p, cs) ← port cs
  return (.v4 os p, cs)

def readV6 : Reader SocketAddress := fun cs => do
  let (_, cs) ← char '[' cs
  let (gs, cs) ← ipv6 cs
  let (s, cs) := scope cs
  let (_, cs) ← char ']' cs
  let (p, cs) ← port cs
  return (.v6 gs s p, cs)

def parse? (s : String) : Option SocketAddress :=
  match readV4 s.toList <|> readV6 s.toList with
  | some (a, []) => some a
  | _ => none

def renderOctets (os : List Nat) : String := ".".intercalate (os.map Nat.repr)

def renderGroups (gs : List Nat) : String :=
  ":".intercalate (gs.map fun g => String.ofList (Nat.toDigits 16 g))

/-- The length of the run of zeros at the start. -/
def zeroRun (gs : List Nat) : Nat := (gs.takeWhile (· = 0)).length

/-- The place and the length of the first longest run of zeros. -/
def longestZeroRun (gs : List Nat) : Nat × Nat :=
  (List.range gs.length).foldl
    (fun best i => if best.2 < zeroRun (gs.drop i) then (i, zeroRun (gs.drop i)) else best) (0, 0)

def renderIpv6 (gs : List Nat) : String :=
  match gs with
  | [0, 0, 0, 0, 0, 0xFFFF, a, b] =>
    "::ffff:" ++ renderOctets [a / 256, a % 256, b / 256, b % 256]
  | gs =>
    let (start, length) := longestZeroRun gs
    if 1 < length then
      renderGroups (gs.take start) ++ "::" ++ renderGroups (gs.drop (start + length))
    else
      renderGroups gs

def render : SocketAddress → String
  | .v4 os p => renderOctets os ++ ":" ++ Nat.repr p
  | .v6 gs s p =>
    "[" ++ renderIpv6 gs ++ (if s = 0 then "" else "%" ++ Nat.repr s) ++ "]:" ++ Nat.repr p

end SocketAddress

end ReviewStream.Settings

import ReviewStream.Json.Parser

/-!
# Records in JSON

Rules by which the values of the library are read from their own JSON form. A record is an object or
an array of all its fields. In an object a known member may not be repeated, unknown members are
ignored, and a member that may be null may also be absent.
-/

namespace ReviewStream.Json

/-- Reads a value or refuses it. -/
abbrev Decoder (α : Type) := Json → Option α

namespace Decoder

def text : Decoder String
  | .string s => some s
  | _ => none

/-- An unsigned integer below `bound`. -/
def natBelow (bound : Nat) : Decoder Nat
  | .number n => n.nat?.filter (· < bound)
  | _ => none

def word16 : Decoder UInt16 := fun j => (natBelow UInt16.size j).map UInt16.ofNat

def word32 : Decoder UInt32 := fun j => (natBelow UInt32.size j).map UInt32.ofNat

def word64 : Decoder UInt64 := fun j => (natBelow UInt64.size j).map UInt64.ofNat

def nullable {α : Type} (read : Decoder α) : Decoder (Option α)
  | .null => some none
  | j => (read j).map some

def list {α : Type} (read : Decoder α) : Decoder (List α)
  | .array xs => xs.mapM read
  | _ => none

/-- One of several named values, given by its name or as an object of one member with that name,
whose value is null. -/
def named {α : Type} (ofName? : String → Option α) : Decoder α
  | .string s => ofName? s
  | .object [(s, .null)] => ofName? s
  | _ => none

end Decoder

/-- The member of the given name if there is exactly one, nothing if there is none, and a refusal if
there are several. -/
def single? (ms : Members) (name : String) : Option (Option Json) :=
  match ms.filter fun m => m.1 = name with
  | [] => some none
  | [m] => some (some m.2)
  | _ => none

def field? {α : Type} (ms : Members) (name : String) (read : Decoder α) : Option α :=
  match single? ms name with
  | some (some j) => read j
  | _ => none

/-- A member that may be null or absent. -/
def optionalField? {α : Type} (ms : Members) (name : String) (read : Decoder α) :
    Option (Option α) :=
  match single? ms name with
  | some (some j) => read.nullable j
  | some none => some none
  | none => none

end ReviewStream.Json

import ReviewStream.Proofs.Json.Printed
import ReviewStream.Wire

/-!
# Records read back

The decoders undo the writers. A record is written as an object whose members have different names,
so every field is found where it was put, and all that is written in this way can be read.
-/

namespace ReviewStream.Json

lemma ofText?_eq_ofOption : ofText? = ofOption .string := by
  funext s?
  cases s? <;> rfl

namespace Decoder

variable {α : Type} {read : Decoder α} {write : α → Json}

/-- The decoder gets each value back from how it is written, which is not as null. -/
def Undoes (read : Decoder α) (write : α → Json) : Prop :=
  ∀ a, read (write a) = some a ∧ write a ≠ .null

lemma undoes_text : Undoes text .string := fun _ => ⟨rfl, nofun⟩

lemma natBelow_ofNat {bound n : Nat} (h : n < bound) (hbound : bound ≤ UInt64.size) :
    natBelow bound (.ofNat n) = some n := by
  have hsize : n < UInt64.size := by omega
  have hnat : (Number.ofNat n).nat? = some n := by
    simp [Number.nat?, Number.ofNat, Number.isPlain, hsize]
  simp [natBelow, ofNat, hnat, h]

lemma word16_ofNat (n : UInt16) : word16 (.ofNat n.toNat) = some n := by
  rw [word16, natBelow_ofNat n.toNat_lt_size (by decide), Option.map_some, UInt16.ofNat_toNat]

lemma word32_ofNat (n : UInt32) : word32 (.ofNat n.toNat) = some n := by
  rw [word32, natBelow_ofNat n.toNat_lt_size (by decide), Option.map_some, UInt32.ofNat_toNat]

lemma word64_ofNat (n : UInt64) : word64 (.ofNat n.toNat) = some n := by
  rw [word64, natBelow_ofNat n.toNat_lt_size (by decide), Option.map_some, UInt64.ofNat_toNat]

lemma Undoes.nullable (h : Undoes read write) (a? : Option α) :
    nullable read (ofOption write a?) = some a? := by
  cases a? with
  | none => rfl
  | some a =>
    obtain ⟨hread, hnull⟩ := h a
    rw [ofOption, Decoder.nullable.eq_2 _ _ hnull, hread, Option.map_some]

lemma Undoes.list (h : Undoes read write) (as : List α) :
    list read (.array (as.map write)) = some as := by
  rw [Decoder.list]
  induction as with
  | nil => rfl
  | cons a as ih => simp [(h a).1, ih]

end Decoder

section Readable

variable {α : Type} {write : α → Json} {n : Nat}

lemma readable_ofNat {k : Nat} (h : k < UInt64.size) : readable n (.ofNat k) = true := by
  simp [ofNat, readable, Number.inRange, Number.nat?, Number.ofNat, Number.isPlain, h]

@[simp] lemma readable_word16 (k : UInt16) : readable n (.ofNat k.toNat) = true :=
  readable_ofNat (Nat.lt_trans k.toNat_lt_size (by decide))

@[simp] lemma readable_word32 (k : UInt32) : readable n (.ofNat k.toNat) = true :=
  readable_ofNat (Nat.lt_trans k.toNat_lt_size (by decide))

@[simp] lemma readable_word64 (k : UInt64) : readable n (.ofNat k.toNat) = true :=
  readable_ofNat k.toNat_lt_size

@[simp] lemma readable_string (s : String) : readable n (.string s) = true := by
  rw [readable]

lemma readable_ofOption (h : ∀ a, readable n (write a) = true) (a? : Option α) :
    readable n (ofOption write a?) = true := by
  cases a? with
  | none => rw [ofOption, readable]
  | some a => exact h a

@[simp] lemma readable_ofText? (s? : Option String) : readable n (ofText? s?) = true := by
  rw [ofText?_eq_ofOption]
  exact readable_ofOption readable_string s?

lemma readableElements_map (h : ∀ a, readable n (write a) = true) (as : List α) :
    readableElements n (as.map write) = true := by
  induction as with
  | nil => rw [List.map_nil, readableElements]
  | cons a as ih => rw [List.map_cons, readableElements, h a, ih, Bool.and_self]

end Readable

/-- A type with a JSON form. A strict codec reads the whole value before it looks for members, so
even what it has no use for has to be in order. -/
structure Codec (α : Type) where
  strict : Bool
  toJson : α → Json
  ofJson? : Decoder α

namespace Codec

variable {α : Type} (c : Codec α)

def write (a : α) : String := (c.toJson a).render

def read? (text : String) : Option α :=
  (if c.strict then (parse text).toOption else parseLenient text).bind c.ofJson?

/-- The text of what a text is read as. -/
def rewrite? (text : String) : Option String := (c.read? text).map c.write

/-- Every value is read back from its text, and a text that was rewritten once does not change when
it is rewritten again. -/
structure Faithful : Prop where
  read?_write : ∀ a, c.read? (c.write a) = some a
  rewrite?_rewrite? : ∀ text out, c.rewrite? text = some out → c.rewrite? out = some out

variable {c}

lemma faithful_of_undoes (h : c.ofJson?.Undoes c.toJson)
    (hreadable : ∀ a, readable depthLimit (c.toJson a) = true) : c.Faithful := by
  have hread : ∀ a, c.read? (c.write a) = some a := by
    intro a
    have hvalue : (if c.strict then (parse (c.write a)).toOption else parseLenient (c.write a)) =
        some (c.toJson a) := by
      rw [parse, parseLenient, write, parseChars_render _ (hreadable a),
        parseChars_render _ (hreadable a)]
      exact ite_self _
    rw [read?, hvalue]
    exact (h a).1
  refine ⟨hread, fun text out hout => ?_⟩
  obtain ⟨a, -, rfl⟩ := Option.map_eq_some_iff.mp hout
  rw [rewrite?, hread, Option.map_some]

end Codec

end ReviewStream.Json

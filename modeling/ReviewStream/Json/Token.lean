import ReviewStream.Json.Fault

/-!
# Tokens of JSON text

A text is cut into tokens up to its end or to the first character that continues no token. The
second half of the answer says which of the two happened, so that a reader of the tokens meets
every fault of the text at the place where it stands. Strict scanning refuses strings with half of
a surrogate pair; otherwise such a string is a token without a text.
-/

namespace ReviewStream.Json

/-- A problem, located by what is left of the text where it shows: `ahead` bytes into `rest`, or at
the end of the text where that comes first. -/
structure Flaw where
  problem : Problem
  rest : List Char
  ahead : Nat := 1

inductive Token where
  | openObject
  | closeObject
  | openArray
  | closeArray
  | comma
  | colon
  | null
  | bool (b : Bool)
  | number (n : Number)
  /-- A string, without a text where an escape in it is half of a surrogate pair. -/
  | string (text? : Option String)
  deriving DecidableEq, Repr

/-- The token at the start of a text and what follows it, or a flaw inside the token, which is a
string or another scalar. -/
inductive Lexeme where
  | token (t : Token) (rest : List Char)
  | flawed (inString : Bool) (flaw : Flaw)

/-- The blanks between tokens. -/
def isSpace (c : Char) : Bool := c = ' ' || c = '\t' || c = '\n' || c = '\r'

def hexDigit? (c : Char) : Option Nat :=
  if '0' ≤ c ∧ c ≤ '9' then some (c.toNat - '0'.toNat)
  else if 'a' ≤ c ∧ c ≤ 'f' then some (c.toNat - 'a'.toNat + 10)
  else if 'A' ≤ c ∧ c ≤ 'F' then some (c.toNat - 'A'.toNat + 10)
  else none

def hex4? (a b c d : Char) : Option Nat := do
  return ((← hexDigit? a) * 16 + (← hexDigit? b)) * 256 + (← hexDigit? c) * 16 + (← hexDigit? d)

/-- The character that a backslash and `c` stand for. -/
def simpleEscape? (c : Char) : Option Char :=
  match c with
  | '"' => some '"'
  | '\\' => some '\\'
  | '/' => some '/'
  | 'b' => some '\x08'
  | 'f' => some '\x0c'
  | 'n' => some '\n'
  | 'r' => some '\r'
  | 't' => some '\t'
  | _ => none

def isHighHalf (n : Nat) : Bool := 0xD800 ≤ n && n ≤ 0xDBFF

def isLowHalf (n : Nat) : Bool := 0xDC00 ≤ n && n ≤ 0xDFFF

/-- The character of a surrogate pair. -/
def joinHalves (high low : Nat) : Char :=
  Char.ofNat ((high - 0xD800) * 0x400 + (low - 0xDC00) + 0x10000)

def byteCount (cs : List Char) : Nat := cs.foldr (fun c n => c.utf8Size + n) 0

/-- How far a string has been scanned: its text, the latest character first, which is missing once
half a pair was found alone, and the first half of a pair that waits for the second. -/
structure Draft where
  text? : Option (List Char)
  half? : Option Nat

/-- A string of which nothing has been scanned. -/
def Draft.empty : Draft := ⟨some [], none⟩

def Draft.push (d : Draft) (c : Char) : Draft :=
  match d.half? with
  | none => ⟨d.text?.map (c :: ·), none⟩
  | some _ => ⟨none, none⟩

/-- What a text and a unit of sixteen bits behind it amount to. -/
def Draft.ofUnit (text? : Option (List Char)) (unit : Nat) : Draft :=
  if isHighHalf unit then ⟨text?, some unit⟩
  else if isLowHalf unit then ⟨none, none⟩
  else ⟨text?.map (Char.ofNat unit :: ·), none⟩

def Draft.pushUnit (d : Draft) (unit : Nat) : Draft :=
  match d.half? with
  | none => Draft.ofUnit d.text? unit
  | some high =>
    if isLowHalf unit then ⟨d.text?.map (joinHalves high unit :: ·), none⟩
    else Draft.ofUnit none unit

/-- The text of a string that was scanned to its end. -/
def Draft.close (d : Draft) : Option String :=
  if d.half?.isSome then none else d.text?.map fun cs => String.ofList cs.reverse

/-- Whether a strict reader insists on a further unit. -/
def Draft.waits (strict : Bool) (d : Draft) : Bool := strict && d.half?.isSome

/-- Scans a string behind its opening quote. -/
def scanString (strict : Bool) (d : Draft) : List Char → Lexeme
  | [] => .flawed true ⟨.endOfString, [], 0⟩
  | '\\' :: [] => .flawed true ⟨.endOfString, [], 0⟩
  | '\\' :: 'u' :: a :: b :: c :: e :: rest =>
    match hex4? a b c e with
    | some unit =>
      let next := d.pushUnit unit
      if strict && next.text?.isNone then .flawed true ⟨.loneHalf, rest, 0⟩
      else scanString strict next rest
    | none => .flawed true ⟨.badEscape, a :: b :: c :: e :: rest, 4⟩
  | '\\' :: 'u' :: rest =>
    .flawed true ⟨if byteCount rest < 4 then .endOfString else .badEscape, rest, 4⟩
  | '\\' :: c :: rest =>
    if d.waits strict then .flawed true ⟨.brokenPair, c :: rest, 1⟩
    else
      match simpleEscape? c with
      | some e => scanString strict (d.push e) rest
      | none => .flawed true ⟨.badEscape, c :: rest, 1⟩
  | c :: rest =>
    if d.waits strict then .flawed true ⟨.brokenPair, c :: rest, 1⟩
    else if c = '"' then .token (.string d.close) rest
    else if c < ' ' then .flawed true ⟨.controlCharacter, c :: rest, 1⟩
    else scanString strict (d.push c) rest

/-- The digits at the start of a text, as numbers. -/
def leadingDigits (cs : List Char) : List Nat :=
  (cs.takeWhile Char.isDigit).map fun c => c.toNat - '0'.toNat

/-- The text behind the digits at its start. -/
def pastDigits (cs : List Char) : List Char := cs.dropWhile Char.isDigit

/-- The number that a list of digits spells. -/
def ofDigits (ds : List Nat) : Nat := ds.foldl (fun n d => n * 10 + d) 0

/-- A number that cannot go on with `rest`. -/
def brokenNumber (rest : List Char) : Lexeme :=
  .flawed false ⟨if rest.isEmpty then .endOfValue else .badNumber, rest, 1⟩

/-- Scans the digits of an exponent. -/
def scanExponentDigits (n : Number) (negative : Bool) (cs : List Char) : Lexeme :=
  match leadingDigits cs with
  | [] => brokenNumber cs
  | d :: ds =>
    let e : Int := ofDigits (d :: ds)
    .token (.number { n with exponent := some (if negative then -e else e) }) (pastDigits cs)

/-- Scans the exponent of a number, if there is one. -/
def scanExponent (n : Number) (cs : List Char) : Lexeme :=
  match cs with
  | 'e' :: '-' :: rest | 'E' :: '-' :: rest => scanExponentDigits n true rest
  | 'e' :: '+' :: rest | 'E' :: '+' :: rest => scanExponentDigits n false rest
  | 'e' :: rest | 'E' :: rest => scanExponentDigits n false rest
  | cs => .token (.number n) cs

/-- Scans the digits after the point of a number, if there is one, and what follows them. -/
def scanFraction (n : Number) : List Char → Lexeme
  | '.' :: rest =>
    match leadingDigits rest with
    | [] => brokenNumber rest
    | d :: ds => scanExponent { n with fraction := d :: ds } (pastDigits rest)
  | rest => scanExponent n rest

def scanNumber (negative : Bool) (cs : List Char) : Lexeme :=
  match leadingDigits cs with
  | [] => brokenNumber cs
  | 0 :: _ :: _ => .flawed false ⟨.badNumber, cs.tail, 1⟩
  | ds => scanFraction { negative, whole := ofDigits ds } (pastDigits cs)

def scanKeyword (t : Token) : List Char → List Char → Lexeme
  | [], rest => .token t rest
  | _ :: _, [] => .flawed false ⟨.endOfValue, [], 0⟩
  | k :: ks, c :: rest =>
    if k = c then scanKeyword t ks rest else .flawed false ⟨.badKeyword, c :: rest, 1⟩

/-- The token at the start of a text that starts with `c`. -/
def scanToken (strict : Bool) (c : Char) (rest : List Char) : Lexeme :=
  match c with
  | '{' => .token .openObject rest
  | '}' => .token .closeObject rest
  | '[' => .token .openArray rest
  | ']' => .token .closeArray rest
  | ',' => .token .comma rest
  | ':' => .token .colon rest
  | '"' => scanString strict .empty rest
  | 'n' => scanKeyword .null ['u', 'l', 'l'] rest
  | 't' => scanKeyword (.bool true) ['r', 'u', 'e'] rest
  | 'f' => scanKeyword (.bool false) ['a', 'l', 's', 'e'] rest
  | '-' => scanNumber true rest
  | c =>
    if c.isDigit then scanNumber false (c :: rest)
    else .flawed false ⟨.noValue, c :: rest, 1⟩

/-! Every token takes at least one character, so cutting a text into tokens comes to an end. -/

theorem pastDigits_length_le (cs : List Char) : (pastDigits cs).length ≤ cs.length :=
  (List.dropWhile_sublist _).length_le

theorem pastDigits_length_lt {cs : List Char} (h : leadingDigits cs ≠ []) :
    (pastDigits cs).length < cs.length := by
  cases cs with
  | nil => simp [leadingDigits] at h
  | cons c rest =>
    cases hc : c.isDigit with
    | false => simp [leadingDigits, hc] at h
    | true =>
      have := pastDigits_length_le rest
      simp only [pastDigits, List.dropWhile_cons, hc, if_true, List.length_cons] at *
      omega

theorem scanString_length {strict : Bool} {d : Draft} {cs rest : List Char} {t : Token}
    (h : scanString strict d cs = .token t rest) : rest.length < cs.length := by
  fun_induction scanString strict d cs with
  | case4 | case8 | case13 =>
    rename_i ih
    have := ih h
    simp only [List.length_cons]
    omega
  | case11 => simp only [Lexeme.token.injEq] at h; simp [h.2]
  | _ => simp at h

theorem brokenNumber_ne_token (cs : List Char) (t : Token) (rest : List Char) :
    brokenNumber cs ≠ .token t rest := by
  simp [brokenNumber]

theorem scanExponentDigits_length {n : Number} {negative : Bool} {cs rest : List Char} {t : Token}
    (h : scanExponentDigits n negative cs = .token t rest) : rest.length ≤ cs.length := by
  unfold scanExponentDigits at h
  split at h
  · exact absurd h (brokenNumber_ne_token _ _ _)
  · simp only [Lexeme.token.injEq] at h
    exact h.2 ▸ pastDigits_length_le cs

theorem scanExponent_length {n : Number} {cs rest : List Char} {t : Token}
    (h : scanExponent n cs = .token t rest) : rest.length ≤ cs.length := by
  unfold scanExponent at h
  split at h
  case h_7 => simp only [Lexeme.token.injEq] at h; simp [h.2]
  all_goals
    have := scanExponentDigits_length h
    simp only [List.length_cons]
    omega

theorem scanFraction_length {n : Number} {cs rest : List Char} {t : Token}
    (h : scanFraction n cs = .token t rest) : rest.length ≤ cs.length := by
  unfold scanFraction at h
  split at h
  · rename_i cs
    split at h
    · exact absurd h (brokenNumber_ne_token _ _ _)
    · have := scanExponent_length h
      have := pastDigits_length_le cs
      rw [List.length_cons]
      omega
  · exact scanExponent_length h

theorem scanNumber_length {negative : Bool} {cs rest : List Char} {t : Token}
    (h : scanNumber negative cs = .token t rest) : rest.length < cs.length := by
  unfold scanNumber at h
  split at h
  · exact absurd h (brokenNumber_ne_token _ _ _)
  · simp at h
  · rename_i hne _
    have := scanFraction_length h
    have : (pastDigits cs).length < cs.length := pastDigits_length_lt hne
    omega

theorem scanKeyword_length {t u : Token} {ks cs rest : List Char}
    (h : scanKeyword t ks cs = .token u rest) : rest.length ≤ cs.length := by
  fun_induction scanKeyword t ks cs with
  | case1 => simp only [Lexeme.token.injEq] at h; simp [h.2]
  | case2 => simp at h
  | case3 ks c rest ih => exact Nat.le_succ_of_le (ih h)
  | case4 => simp at h

theorem scanToken_length {strict : Bool} {c : Char} {cs rest : List Char} {t : Token}
    (h : scanToken strict c cs = .token t rest) : rest.length < (c :: cs).length := by
  rw [List.length_cons]
  unfold scanToken at h
  split at h
  case h_7 => exact Nat.lt_succ_of_lt (scanString_length h)
  case h_8 | h_9 | h_10 => exact Nat.lt_succ_of_le (scanKeyword_length h)
  case h_11 => exact Nat.lt_succ_of_lt (scanNumber_length h)
  case h_12 =>
    split at h
    · exact scanNumber_length h
    · simp at h
  all_goals
    simp only [Lexeme.token.injEq] at h
    simp [h.2]

/-- A token in its text: `start` is the text from its first character on, `rest` what follows it. -/
structure Placed where
  token : Token
  start : List Char
  rest : List Char

/-- What follows the last whole token: the end of the text, or a flaw inside a further token that
starts at `start`. -/
inductive Ending where
  | complete
  | broken (inString : Bool) (start : List Char) (flaw : Flaw)

/-- The text behind the blanks at its start. -/
def skipSpaces (cs : List Char) : List Char := cs.dropWhile isSpace

/-- The tokens of a text and what stopped the scan. -/
def tokens (strict : Bool) (cs : List Char) : List Placed × Ending :=
  match hs : skipSpaces cs with
  | [] => ([], .complete)
  | c :: rest =>
    match h : scanToken strict c rest with
    | .flawed inString flaw => ([], .broken inString (c :: rest) flaw)
    | .token t rest' =>
      have : rest'.length < cs.length :=
        Nat.lt_of_lt_of_le (scanToken_length h) (hs ▸ (List.dropWhile_sublist isSpace).length_le)
      let (ts, ending) := tokens strict rest'
      (⟨t, c :: rest, rest'⟩ :: ts, ending)
termination_by cs.length

end ReviewStream.Json

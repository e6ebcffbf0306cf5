import Collocation.Double.Scan
import Collocation.Json.Basic
import Collocation.Text.Scan
import Collocation.Uuid.Text

/-!
# Tokens of JSON texts

A token is a mark or a scalar. A scalar can be well formed and yet have no value: a number beyond
all doubles, a string with half of a surrogate pair. Such a token is not refused before somebody
wants its value.
-/

set_option autoImplicit false

namespace Collocation.Json

open Text

/-- A character that stands for itself between values. -/
inductive Mark where
  | openArray
  | closeArray
  | openObject
  | closeObject
  | comma
  | colon
deriving DecidableEq

/-- The smallest parts of a text that mean something. -/
inductive Token where
  | mark (mark : Mark)
  | null
  | bool (value : Bool)
  /-- A number, unless it is beyond all doubles. -/
  | number (value : Option Scalar)
  /-- A string, unless it has half of a surrogate pair. -/
  | string (value : Option String)
deriving DecidableEq

/-- The blanks between tokens. -/
def isSpace (c : Char) : Bool :=
  c = ' ' || c = '\n' || c = '\r' || c = '\t'

/-! ## Numbers -/

def digitValue (c : Char) : Nat :=
  c.toNat - '0'.toNat

/-- The digits in front of a point: no zero leads others. -/
def readWhole (text : List Char) : Option (List Char × List Char) :=
  match spanDigits text with
  | ([], _) => none
  | ('0' :: _ :: _, _) => none
  | found => some found

/-- The digits behind a point, if there is a point. -/
def readPoint : List Char → Option (Option (List Char) × List Char)
  | '.' :: rest =>
    match spanDigits rest with
    | ([], _) => none
    | (digits, rest) => some (some digits, rest)
  | text => some (none, text)

/-- The power of ten behind an `e` of either case, if there is one. -/
def readPower : List Char → Option (Option Int × List Char)
  | c :: rest =>
    if c = 'e' ∨ c = 'E' then
      let (sign, rest) : Int × List Char := match rest with
        | '+' :: rest => (1, rest)
        | '-' :: rest => (-1, rest)
        | rest => (1, rest)
      match spanDigits rest with
      | ([], _) => none
      | (digits, rest) => some (some (sign * number digits), rest)
    else some (none, c :: rest)
  | [] => some (none, [])

/-- The number of a sign and digits without a point and a power: whole if sixty-four bits hold it,
with the sign in them if there is one. The negative zero is a double. -/
def wholeNumber? (negative : Bool) (digits : List Char) : Option Scalar :=
  let n := number digits
  if negative then
    if 0 < n ∧ Int64.minValue.toInt ≤ -n then some (.integer (-n)) else none
  else
    if n < UInt64.size then some (.integer n) else none

/-- The double of a sign, digits, digits behind a point, and a power. -/
def doubleNumber? (negative : Bool) (digits fraction : List Char) (power : Int) : Option Scalar :=
  let m := (Mantissa.ofWhole (digits.map digitValue)).addFraction (fraction.map digitValue)
  (Double.ofMantissa negative ⟨m.value, m.power + power⟩).map .double

/-- The number in front of a text. -/
def readNumber (text : List Char) : Option (Option Scalar × List Char) := do
  let (negative, rest) := match text with
    | '-' :: rest => (true, rest)
    | rest => (false, rest)
  let (digits, rest) ← readWhole rest
  let (fraction, rest) ← readPoint rest
  let (power, rest) ← readPower rest
  let double := doubleNumber? negative digits (fraction.getD []) (power.getD 0)
  match fraction, power with
  | none, none => some ((wholeNumber? negative digits).or double, rest)
  | _, _ => some (double, rest)

/-! ## Strings -/

/-- The unit that four hexadecimal digits write. -/
def readUnit (a b c d : Char) : Option Nat :=
  hexNumber [a, b, c, d]

def isHighSurrogate (unit : Nat) : Bool := 0xD800 ≤ unit && unit < 0xDC00

def isLowSurrogate (unit : Nat) : Bool := 0xDC00 ≤ unit && unit < 0xE000

/-- The character of a surrogate pair. -/
def joinSurrogates (high low : Nat) : Char :=
  Char.ofNat (0x10000 + (high - 0xD800) * 0x400 + (low - 0xDC00))

/-- The character that a letter behind a backslash stands for. -/
def unescape (c : Char) : Option Char :=
  if c = '"' ∨ c = '\\' ∨ c = '/' then some c
  else if c = 'b' then some '\x08'
  else if c = 'f' then some '\x0c'
  else if c = 'n' then some '\n'
  else if c = 'r' then some '\r'
  else if c = 't' then some '\t'
  else none

/-- A piece of a string: a character, or half of a surrogate pair. -/
inductive Piece where
  | char (c : Char)
  | half (unit : Nat)
deriving DecidableEq

/-- The piece of a unit. -/
def Piece.ofUnit (unit : Nat) : Piece :=
  if isHighSurrogate unit || isLowSurrogate unit then .half unit else .char (Char.ofNat unit)

/-- What stands between the quotes, and the rest behind the second. -/
def readPieces : List Char → List Piece → Option (List Piece × List Char)
  | '"' :: rest, read => some (read.reverse, rest)
  | '\\' :: 'u' :: a :: b :: c :: d :: rest, read => do
    let unit ← readUnit a b c d
    readPieces rest (.ofUnit unit :: read)
  | '\\' :: c :: rest, read => do
    let c ← unescape c
    readPieces rest (.char c :: read)
  | c :: rest, read => if c.toNat < 32 then none else readPieces rest (.char c :: read)
  | [], _ => none

/-- The characters of pieces, the halves of surrogate pairs joined; nothing if one stays alone. -/
def joinPieces : List Piece → List Char → Option (List Char)
  | [], read => some read.reverse
  | .char c :: rest, read => joinPieces rest (c :: read)
  | .half high :: .half low :: rest, read =>
    if isHighSurrogate high && isLowSurrogate low then
      joinPieces rest (joinSurrogates high low :: read)
    else none
  | .half _ :: _, _ => none

/-! ## Tokens -/

/-- The token in front of a text that does not begin with a space. -/
def readToken : List Char → Option (Token × List Char)
  | '[' :: rest => some (.mark .openArray, rest)
  | ']' :: rest => some (.mark .closeArray, rest)
  | '\x7b' :: rest => some (.mark .openObject, rest)
  | '\x7d' :: rest => some (.mark .closeObject, rest)
  | ',' :: rest => some (.mark .comma, rest)
  | ':' :: rest => some (.mark .colon, rest)
  | 'n' :: 'u' :: 'l' :: 'l' :: rest => some (.null, rest)
  | 't' :: 'r' :: 'u' :: 'e' :: rest => some (.bool true, rest)
  | 'f' :: 'a' :: 'l' :: 's' :: 'e' :: rest => some (.bool false, rest)
  | '"' :: rest => do
    let (pieces, rest) ← readPieces rest []
    some (.string ((joinPieces pieces []).map String.ofList), rest)
  | text => do
    let (value, rest) ← readNumber text
    some (.number value, rest)

/-! ## What is left gets shorter -/

/-- The digits at the head of a text and the rest of it are together as long as the text. -/
theorem length_spanDigits_le {text digits rest : List Char}
    (h : spanDigits text = (digits, rest)) : rest.length + digits.length = text.length := by
  have := congrArg List.length (spanDigits_append text)
  simp only [h, List.length_append] at this
  omega

/-- The whole part of a number takes at least one character off a text. -/
theorem length_lt_of_readWhole {text digits rest : List Char}
    (h : readWhole text = some (digits, rest)) : rest.length < text.length := by
  unfold readWhole at h
  split at h
  · cases h
  · cases h
  · next hnil _ =>
    have hspan := length_spanDigits_le (Option.some.inj h)
    have : digits ≠ [] := fun hd => hnil rest (by rw [Option.some.inj h, hd])
    have := List.length_pos_iff.2 this
    omega

/-- What follows a number's point, if it has one, makes no text longer. -/
theorem length_le_of_readPoint {text rest : List Char} {digits : Option (List Char)}
    (h : readPoint text = some (digits, rest)) : rest.length ≤ text.length := by
  unfold readPoint at h
  split at h
  · split at h
    · cases h
    · next heq => cases h; have := length_spanDigits_le heq; simp; omega
  · cases h; exact Nat.le_refl _

/-- What follows a number's power of ten, if it has one, makes no text longer. -/
theorem length_le_of_readPower {text rest : List Char} {power : Option Int}
    (h : readPower text = some (power, rest)) : rest.length ≤ text.length := by
  unfold readPower at h
  split at h
  · split at h
    · simp only at h
      split at h
      · cases h
      · next heq =>
        cases h
        have := length_spanDigits_le heq
        simp only [List.length_cons]
        split at this <;> simp only [List.length_cons] at * <;> omega
    · cases h; exact Nat.le_refl _
  · cases h; exact Nat.le_refl _

/-- A number takes at least one character off a text. -/
theorem length_lt_of_readNumber {text rest : List Char} {value : Option Scalar}
    (h : readNumber text = some (value, rest)) : rest.length < text.length := by
  unfold readNumber at h
  simp only [Option.bind_eq_bind, Option.bind_eq_some_iff] at h
  obtain ⟨⟨_, r1⟩, h1, ⟨_, r2⟩, h2, ⟨_, r3⟩, h3, h4⟩ := h
  have h1 := length_lt_of_readWhole h1
  have h2 := length_le_of_readPoint h2
  have h3 := length_le_of_readPower h3
  have : r3 = rest := by split at h4 <;> cases h4 <;> rfl
  subst this
  simp only at *
  split at h1 <;> simp only [List.length_cons] at * <;> omega

/-- The pieces of a string take at least the closing quote off a text. -/
theorem length_lt_of_readPieces {text rest : List Char} {read pieces : List Piece}
    (h : readPieces text read = some (pieces, rest)) : rest.length < text.length := by
  fun_induction readPieces text read with
  | case1 => cases h; simp
  | case2 a b c d r read ih =>
    obtain ⟨_, _, h⟩ := Option.bind_eq_some_iff.1 h
    have := ih _ h
    simp; omega
  | case3 c r read hn ih =>
    obtain ⟨_, _, h⟩ := Option.bind_eq_some_iff.1 h
    have := ih _ h
    simp; omega
  | case4 => cases h
  | case5 c r read _ _ _ _ ih => have := ih h; simp; omega
  | case6 => cases h

/-- A token takes at least one character off a text, so that reading tokens comes to an end. -/
theorem length_lt_of_readToken {text rest : List Char} {token : Token}
    (h : readToken text = some (token, rest)) : rest.length < text.length := by
  unfold readToken at h
  split at h
  case h_10 =>
    obtain ⟨⟨_, r⟩, h1, h2⟩ := Option.bind_eq_some_iff.1 h
    cases h2
    have := length_lt_of_readPieces h1
    simp; omega
  case h_11 =>
    obtain ⟨⟨_, r⟩, h1, h2⟩ := Option.bind_eq_some_iff.1 h
    cases h2
    exact length_lt_of_readNumber h1
  all_goals cases h; simp <;> omega

end Collocation.Json

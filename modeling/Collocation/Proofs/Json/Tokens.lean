import Collocation.Json.Draft
import Collocation.Json.Printer
import Collocation.Proofs.Text.Digits

/-!
# Tokens of written scalars

The text of a scalar is read as one token, whatever follows it. A string always is, for every
character that needs an escape has one. A number is if it is read back where it stands alone, and no
digit, point or power follows it.
-/

set_option autoImplicit false

namespace Collocation.Json

open Text

/-! ## Strings -/

/-- The escape of a control character is read back. -/
theorem readUnit_hexDigits : ∀ n < 32,
    readUnit '0' '0' (hexDigit (n / 16)) (hexDigit (n % 16)) = some n := by decide

/-- A written character is read as one piece. -/
theorem readPieces_escape (c : Char) (text : List Char) (read : List Piece) :
    readPieces (escape c ++ text) read = readPieces text (.char c :: read) := by
  unfold escape
  -- Seven characters have a short escape.
  iterate 7
    split
    · next h => subst h; simp [readPieces, unescape]
  split
  · next hLow =>
    have hUnit := readUnit_hexDigits c.toNat hLow
    have hPiece : Piece.ofUnit c.toNat = .char c := by
      have hHigh : isHighSurrogate c.toNat = false := by
        rw [isHighSurrogate, decide_eq_false (by omega), Bool.false_and]
      have hLow : isLowSurrogate c.toNat = false := by
        rw [isLowSurrogate, decide_eq_false (by omega), Bool.false_and]
      rw [Piece.ofUnit, hHigh, hLow, Char.ofNat_toNat]
      rfl
    simp only [List.cons_append, List.nil_append, readPieces, hUnit, Option.bind_eq_bind,
      Option.bind_some, hPiece]
  · next hQuote hSlash _ _ _ _ _ hLow =>
    rw [List.singleton_append, readPieces, if_neg hLow]
    · exact hQuote
    all_goals intros; simp_all

/-- An escaped string is read back, character by character, up to its closing quote. -/
theorem readPieces_escapes (chars rest : List Char) (read : List Piece) :
    readPieces (chars.foldr (fun c text => escape c ++ text) ('"' :: rest)) read =
      some (read.reverse ++ chars.map .char, rest) := by
  induction chars generalizing read with
  | nil => simp [readPieces]
  | cons c chars ih =>
    rw [List.foldr_cons, readPieces_escape, ih, List.reverse_cons, List.append_assoc]
    rfl

/-- Pieces that are characters are joined to these. -/
theorem joinPieces_chars (chars read : List Char) :
    joinPieces (chars.map .char) read = some (read.reverse ++ chars) := by
  induction chars generalizing read with
  | nil => simp [joinPieces]
  | cons c chars ih => simp [joinPieces, ih]

/-- A written string is read as one token. -/
theorem readToken_quoteOnto (s : String) (rest : List Char) :
    readToken (quoteOnto s rest) = some (.string (some s), rest) := by
  rw [quoteOnto, readToken, readPieces_escapes]
  simp [joinPieces_chars]

/-! ## Numbers -/

/-- A text does not go on with a number that stands in front of it. -/
def EndsNumber (rest : List Char) : Prop :=
  ∀ c ∈ rest.head?, c.isDigit = false ∧ c ≠ '.' ∧ c ≠ 'e' ∧ c ≠ 'E'

/-- At the end of a text no number goes on. -/
theorem endsNumber_nil : EndsNumber [] := by simp [EndsNumber]

/-- No number goes on before a character that is neither a digit nor a point nor the sign of a
power. -/
theorem endsNumber_cons {c : Char} (rest : List Char)
    (h : c.isDigit = false ∧ c ≠ '.' ∧ c ≠ 'e' ∧ c ≠ 'E') : EndsNumber (c :: rest) := by
  simpa [EndsNumber] using h

/-- The number that digits, a point and a power make behind a sign. -/
def readUnsigned (negative : Bool) (text : List Char) : Option (Option Scalar × List Char) := do
  let (digits, rest) ← readWhole text
  let (fraction, rest) ← readPoint rest
  let (power, rest) ← readPower rest
  let double := doubleNumber? negative digits (fraction.getD []) (power.getD 0)
  match fraction, power with
  | none, none => some ((wholeNumber? negative digits).or double, rest)
  | _, _ => some (double, rest)

/-- What does not begin with a sign is read as a number without one. -/
theorem readNumber_of_ne {c : Char} (h : c ≠ '-') (text : List Char) :
    readNumber (c :: text) = readUnsigned false (c :: text) := by
  rw [readNumber]
  · rfl
  · rintro rest ⟨⟩
    exact h rfl

section Append

variable {rest : List Char} (hRest : EndsNumber rest)
include hRest

/-- What follows a number does not change the digits at its head. -/
theorem spanDigits_append_of_endsNumber (text : List Char) :
    spanDigits (text ++ rest) = ((spanDigits text).1, (spanDigits text).2 ++ rest) := by
  induction text with
  | nil =>
    cases rest with
    | nil => rfl
    | cons c rest =>
      have hDigit := (hRest c rfl).1
      simp [spanDigits, hDigit]
  | cons c text ih =>
    simp only [spanDigits, Prod.mk.injEq] at ih
    cases hDigit : c.isDigit <;> simp [spanDigits, hDigit, ih]

/-- What follows a number does not change its whole part. -/
theorem readWhole_append {text digits left : List Char}
    (h : readWhole text = some (digits, left)) :
    readWhole (text ++ rest) = some (digits, left ++ rest) := by
  unfold readWhole at h ⊢
  rw [spanDigits_append_of_endsNumber hRest]
  generalize spanDigits text = found at h
  obtain ⟨found, after⟩ := found
  split at h
  · cases h
  · cases h
  · cases h
    split
    · simp_all
    · simp_all
    · rfl

/-- Digits are taken from in front of what does not go on with them. -/
theorem digits_append {α : Type} (value : List Char → α) {text left : List Char} {found : α}
    (h : (match spanDigits text with
      | ([], _) => none
      | (digits, rest) => some (value digits, rest)) = some (found, left)) :
    (match spanDigits (text ++ rest) with
      | ([], _) => none
      | (digits, rest) => some (value digits, rest)) = some (found, left ++ rest) := by
  rw [spanDigits_append_of_endsNumber hRest]
  generalize spanDigits text = span at h ⊢
  obtain ⟨digits, after⟩ := span
  cases digits with
  | nil => cases h
  | cons digit digits =>
    cases h
    rfl

/-- What follows a number does not change the digits behind its point. -/
theorem readPoint_append {text left : List Char} {digits : Option (List Char)}
    (h : readPoint text = some (digits, left)) :
    readPoint (text ++ rest) = some (digits, left ++ rest) := by
  unfold readPoint at h
  split at h
  · exact digits_append hRest some h
  · next hPoint =>
    cases h
    unfold readPoint
    split
    · next after hText =>
      cases text with
      | nil => exact absurd rfl (hRest '.' (by simp_all)).2.1
      | cons c text => simp_all
    · rfl

/-- What follows a number does not change its power of ten. -/
theorem readPower_append {text left : List Char} {power : Option Int}
    (h : readPower text = some (power, left)) :
    readPower (text ++ rest) = some (power, left ++ rest) := by
  cases text with
  | nil =>
    cases h
    cases rest with
    | nil => rfl
    | cons c rest =>
      obtain ⟨-, -, hLower, hUpper⟩ := hRest c rfl
      simp [readPower, hLower, hUpper]
  | cons c text =>
    by_cases hLetter : c = 'e' ∨ c = 'E'
    · -- Without digits there is no power, so that the sign is not in what follows.
      obtain - | ⟨d, text⟩ := text
      · simp [readPower, hLetter, spanDigits] at h
      by_cases hPlus : d = '+'
      · subst hPlus
        rw [readPower, if_pos hLetter] at h
        rw [List.cons_append, List.cons_append, readPower, if_pos hLetter]
        exact digits_append hRest (fun digits => some ((1 : Int) * number digits)) h
      by_cases hMinus : d = '-'
      · subst hMinus
        rw [readPower, if_pos hLetter] at h
        rw [List.cons_append, List.cons_append, readPower, if_pos hLetter]
        exact digits_append hRest (fun digits => some ((-1 : Int) * number digits)) h
      rw [readPower, if_pos hLetter] at h
      rw [List.cons_append, readPower, if_pos hLetter]
      · exact digits_append hRest (fun digits => some ((1 : Int) * number digits)) h
      all_goals simp [hPlus, hMinus]
    · unfold readPower at h ⊢
      simp only [List.cons_append, if_neg hLetter] at h ⊢
      cases h
      rfl

/-- What follows a number does not change it. -/
theorem readUnsigned_append {negative : Bool} {text left : List Char} {value : Option Scalar}
    (h : readUnsigned negative text = some (value, left)) :
    readUnsigned negative (text ++ rest) = some (value, left ++ rest) := by
  rw [readUnsigned] at h ⊢
  simp only [Option.bind_eq_bind, Option.bind_eq_some_iff] at h
  obtain ⟨⟨digits, afterWhole⟩, hWhole, ⟨fraction, afterPoint⟩, hPoint, ⟨power, afterPower⟩,
    hPower, hValue⟩ := h
  simp only [readWhole_append hRest hWhole, readPoint_append hRest hPoint,
    readPower_append hRest hPower, Option.bind_eq_bind, Option.bind_some]
  split at hValue <;> cases hValue <;> simp_all

/-- A number is read in front of what does not go on with it. -/
theorem readNumber_append {text left : List Char} {value : Option Scalar}
    (h : readNumber text = some (value, left)) :
    readNumber (text ++ rest) = some (value, left ++ rest) := by
  obtain - | ⟨c, text⟩ := text
  · cases h
  by_cases hMinus : c = '-'
  · subst hMinus
    exact readUnsigned_append hRest h
  · rw [readNumber_of_ne hMinus] at h
    rw [List.cons_append, readNumber_of_ne hMinus]
    exact readUnsigned_append hRest h

end Append

/-! ## Whole numbers -/

/-- The digits of a whole number are read as a whole part, to their end. -/
theorem readWhole_toDigits (n : Nat) :
    readWhole (Nat.toDigits 10 n) = some (Nat.toDigits 10 n, []) := by
  unfold readWhole
  rw [spanDigits_toDigits]
  split
  · next hNil =>
    exact absurd (congrArg Prod.fst hNil) Nat.toDigits_ne_nil
  · next hZero =>
    -- A zero stands in front only if it stands alone.
    have hHead : (Nat.toDigits 10 n).head? = some '0' := by
      rw [(Prod.mk.inj hZero).1]
      rfl
    obtain rfl | hPositive := Nat.eq_zero_or_pos n
    · simp at hZero
    · exact absurd hHead (head?_toDigits_ne_zero hPositive)
  · rfl

/-- The digits of a whole number are read as this number. -/
theorem readUnsigned_toDigits {negative : Bool} {n : Nat} {value : Scalar}
    (h : wholeNumber? negative (Nat.toDigits 10 n) = some value) :
    readUnsigned negative (Nat.toDigits 10 n) = some (some value, []) := by
  rw [readUnsigned, readWhole_toDigits]
  simp only [Option.bind_eq_bind, Option.bind_some, readPoint, readPower, h, Option.some_or]

/-- A whole number that sixty-four bits hold, with a sign or without one, is read back. -/
theorem readNumber_integerChars {n : Int} (hLower : Int64.minValue.toInt ≤ n)
    (hUpper : n < UInt64.size) : readNumber (integerChars n) = some (some (.integer n), []) := by
  by_cases hNegative : n < 0
  · have hWhole : wholeNumber? true (Nat.toDigits 10 n.natAbs) = some (.integer n) := by
      have hSize : -(n.natAbs : Int) = n := by omega
      rw [wholeNumber?, number_toDigits, hSize, if_pos rfl, if_pos ⟨by omega, hLower⟩]
    rw [integerChars, if_pos hNegative]
    exact readUnsigned_toDigits hWhole
  · have hWhole : wholeNumber? false (Nat.toDigits 10 n.natAbs) = some (.integer n) := by
      have hSize : (n.natAbs : Int) = n := by omega
      rw [wholeNumber?, number_toDigits, if_neg (by decide), if_pos (by omega), hSize]
    rw [integerChars, if_neg hNegative]
    obtain ⟨digit, digits, hDigits⟩ := List.exists_cons_of_ne_nil
      (Nat.toDigits_ne_nil (b := 10) (n := n.natAbs))
    have hMinus : digit ≠ '-' := by
      have hMem : digit ∈ Nat.toDigits 10 n.natAbs := hDigits ▸ List.mem_cons_self
      have hDigit := isDigit_of_mem_toDigits hMem
      rintro rfl
      cases hDigit
    rw [hDigits, readNumber_of_ne hMinus, ← hDigits]
    exact readUnsigned_toDigits hWhole

/-! ## Tokens -/

/-- A number is read as one token. -/
theorem readToken_of_readNumber {text rest : List Char} {value : Option Scalar}
    (h : readNumber text = some (value, rest)) : readToken text = some (.number value, rest) := by
  unfold readToken
  split
  case h_11 => rw [h]; rfl
  all_goals cases h

/-- No token begins with a space. -/
theorem dropWhile_of_readToken {text rest : List Char} {token : Token}
    (h : readToken text = some (token, rest)) : text.dropWhile isSpace = text := by
  cases text with
  | nil => rfl
  | cons c text =>
    cases hSpace : isSpace c with
    | false => rw [List.dropWhile_cons, hSpace, if_neg Bool.false_ne_true]
    | true =>
      simp only [isSpace, Bool.or_eq_true, decide_eq_true_eq] at hSpace
      rcases hSpace with ((rfl | rfl) | rfl) | rfl <;> cases h

end Collocation.Json

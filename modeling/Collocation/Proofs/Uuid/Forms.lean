import Collocation.Proofs.Archive.Submitting
import Collocation.Proofs.Uuid.Text
import Mathlib.Data.List.GetD
import Mathlib.Data.List.Induction

/-!
# The forms of identifiers

A uuid is written in groups, as digits alone, in braces, or as a URN. A text is read as a uuid just
if it is one of these forms in any letter case, and as the id of an execution just if there are
blanks around such a form, or none. So a text writes one id at most, and whoever asks for what is
stored may use any form of the id.
-/

set_option autoImplicit false

namespace Collocation

/-! ## Letter case -/

/-- A character is its lower case, if that is no letter. -/
theorem eq_of_toLower_eq {c d : Char} (h : c.toLower = d) (hLetter : d.toNat < 97 ∨ 122 < d.toNat) :
    c = d := by
  obtain hSame | ⟨hFirst, hLast, hApart⟩ := Text.toLower_cases c
  · exact hSame.symm.trans h
  · rw [h] at hApart
    omega

/-! ## Digits -/

/-- The digits that are printed have no capitals. -/
theorem toLower_hexDigit : ∀ n < 16, (hexDigit n).toLower = hexDigit n := by decide

/-- The value of a digit is the number whose digit it is in some case. -/
theorem hexValue_eq_some {c : Char} {n : Nat} (h : hexValue c = some n) :
    n < 16 ∧ c.toLower = hexDigit n := by
  rw [hexValue, List.findIdx?_eq_some_iff_getElem] at h
  obtain ⟨hLength, hDigit, -⟩ := h
  refine ⟨hLength, ?_⟩
  rw [hexDigit, List.getD_eq_getElem _ _ hLength]
  exact (beq_iff_eq.1 hDigit).symm

/-- Digits that are read have values below sixteen, and in lower case they are the printed digits of
these. -/
theorem mapM_hexValue_eq_some {digits : List Char} {values : List Nat}
    (h : digits.mapM hexValue = some values) :
    (∀ value ∈ values, value < 16) ∧ digits.map Char.toLower = values.map hexDigit := by
  induction digits generalizing values with
  | nil =>
    cases h
    exact ⟨fun _ hMem => absurd hMem List.not_mem_nil, rfl⟩
  | cons c digits ih =>
    simp only [List.mapM_cons, Option.bind_eq_bind, Option.bind_eq_some_iff] at h
    obtain ⟨value, hValue, others, hOthers, ⟨⟩⟩ := h
    obtain ⟨hLt, hCase⟩ := hexValue_eq_some hValue
    obtain ⟨hLts, hCases⟩ := ih hOthers
    exact ⟨List.forall_mem_cons.2 ⟨hLt, hLts⟩, by rw [List.map_cons, List.map_cons, hCase, hCases]⟩

/-- The case of digits does not matter for their number. -/
theorem hexNumber_congr {digits others : List Char}
    (h : digits.map Char.toLower = others.map Char.toLower) :
    hexNumber digits = hexNumber others := by
  -- The value of a digit is found by its lower case alone.
  have hLower : ∀ text : List Char, text.mapM hexValue =
      (text.map Char.toLower).mapM fun c => hexDigits.findIdx? (· == c) := by
    intro text
    rw [List.mapM_map]
    rfl
  rw [hexNumber, hexNumber, hLower digits, hLower others, h]

/-- So many hexadecimal digits make a number below as many powers of sixteen. -/
theorem foldl_lt_pow {values : List Nat} (h : ∀ value ∈ values, value < 16) :
    values.foldl (fun n value => 16 * n + value) 0 < Nat.pow 16 values.length := by
  induction values using List.reverseRecOn with
  | nil => exact Nat.one_pos
  | append_singleton values last ih =>
    have hLast : last < 16 := h last (by simp)
    have hOthers := ih fun value hValue => h value (List.mem_append_left _ hValue)
    have hPower : Nat.pow 16 (values.length + 1) = 16 * Nat.pow 16 values.length := Nat.pow_succ'
    rw [List.foldl_append, List.foldl_cons, List.foldl_nil, List.length_append,
      List.length_singleton, hPower]
    omega

/-- The digits of a number that was made of digits are these. -/
theorem digits_foldl {values : List Nat} (h : ∀ value ∈ values, value < 16) :
    (List.range values.length).map (fun i =>
        values.foldl (fun n value => 16 * n + value) 0 / Nat.pow 16 (values.length - 1 - i) % 16) =
      values := by
  induction values using List.reverseRecOn with
  | nil => rfl
  | append_singleton values last ih =>
    have hLast : last < 16 := h last (by simp)
    have hOthers := ih fun value hValue => h value (List.mem_append_left _ hValue)
    rw [List.foldl_append, List.foldl_cons, List.foldl_nil, List.length_append,
      List.length_singleton, List.range_succ, List.map_append, List.map_singleton]
    generalize values.foldl (fun n value => 16 * n + value) 0 = number at hOthers ⊢
    -- All digits but the last are those of the sixteenth part.
    have hUpper : (List.range values.length).map (fun i =>
        (16 * number + last) / Nat.pow 16 (values.length + 1 - 1 - i) % 16) = values := by
      refine Eq.trans (List.map_congr_left fun i hi => ?_) hOthers
      have hExponent : values.length + 1 - 1 - i = values.length - 1 - i + 1 := by
        have := List.mem_range.1 hi
        omega
      have hPower : Nat.pow 16 (values.length - 1 - i + 1) =
          16 * Nat.pow 16 (values.length - 1 - i) := Nat.pow_succ'
      rw [hExponent, hPower, ← Nat.div_div_eq_div_mul, Nat.mul_add_div (by decide),
        Nat.div_eq_of_lt hLast, Nat.add_zero]
    have hRemainder :
        (16 * number + last) / Nat.pow 16 (values.length + 1 - 1 - values.length) % 16 = last := by
      simp [Nat.mod_eq_of_lt hLast]
    rw [hUpper, hRemainder]

namespace Uuid

/-- Thirty-two digits make the uuid whose digits they are. -/
theorem digits_ofNat_foldl {values : List Nat} (h : ∀ value ∈ values, value < 16)
    (hLength : values.length = 32) :
    (ofNat (values.foldl (fun n value => 16 * n + value) 0)).digits = values.map hexDigit := by
  have hBound := foldl_lt_pow h
  have hDigits := digits_foldl h
  rw [hLength] at hBound hDigits
  have hNumber : (ofNat (values.foldl (fun n value => 16 * n + value) 0)).number.val =
      values.foldl (fun n value => 16 * n + value) 0 := Nat.mod_eq_of_lt hBound
  rw [digits, hNumber]
  conv_rhs => rw [← hDigits, List.map_map]
  rfl

/-- The digits of an id have no capitals. -/
theorem map_toLower_digits (id : Uuid) : id.digits.map Char.toLower = id.digits := by
  rw [digits, List.map_map]
  exact List.map_congr_left fun i _ => toLower_hexDigit _ (Nat.mod_lt _ (by decide))

/-- Digits are read as the uuid whose digits they are in some case. -/
theorem ofDigits?_eq_some_iff {text : List Char} {id : Uuid} :
    ofDigits? text = some id ↔ text.map Char.toLower = id.digits := by
  constructor
  · intro h
    rw [ofDigits?] at h
    split at h
    · next hLength =>
      obtain ⟨_, hNumber, rfl⟩ := Option.map_eq_some_iff.1 h
      obtain ⟨values, hValues, rfl⟩ := Option.map_eq_some_iff.1 hNumber
      obtain ⟨hLt, hCase⟩ := mapM_hexValue_eq_some hValues
      have hCount : values.length = 32 := by
        have hSame := congrArg List.length hCase
        rw [List.length_map, List.length_map] at hSame
        exact hSame.symm.trans hLength
      rw [digits_ofNat_foldl hLt hCount, hCase]
    · cases h
  · intro h
    have hLength : text.length = id.digits.length := by
      rw [← h, List.length_map]
    have hNumber : hexNumber text = hexNumber id.digits :=
      hexNumber_congr (h.trans id.map_toLower_digits.symm)
    rw [ofDigits?, hLength, hNumber]
    exact id.ofDigits?_digits

/-! ## Groups -/

/-- Thirty-two digits in groups are thirty-six characters. -/
theorem length_group {digits : List Char} (h : digits.length = 32) :
    (group digits).length = 36 := by
  simp [group, h]

/-- Digits may be put in lower case before they are put in groups or after. -/
theorem map_toLower_group (digits : List Char) :
    (group digits).map Char.toLower = group (digits.map Char.toLower) := by
  have hHyphen : '-'.toLower = '-' := rfl
  simp [group, hHyphen]

/-- Groups in some case are groups of digits in some case, for a hyphen has one case only. -/
theorem exists_of_map_eq_group {text digits : List Char} (hLength : digits.length = 32)
    (h : text.map Char.toLower = group digits) :
    ∃ written, text = group written ∧ written.map Char.toLower = digits := by
  have hHyphen : ∀ {c : Char}, c.toLower = '-' → c = '-' := fun h =>
    eq_of_toLower_eq h (by decide)
  rw [group] at h
  simp only [List.append_assoc, List.cons_append, List.map_eq_append_iff, List.map_eq_cons_iff] at h
  obtain ⟨first, _, rfl, hFirst, _, _, rfl, hc, second, _, rfl, hSecond, _, _, rfl, hc', third, _,
    rfl, hThird, _, _, rfl, hc'', fourth, _, rfl, hFourth, _, fifth, rfl, hc''', hFifth⟩ := h
  obtain rfl := hHyphen hc
  obtain rfl := hHyphen hc'
  obtain rfl := hHyphen hc''
  obtain rfl := hHyphen hc'''
  have hLengths : first.length = 8 ∧ second.length = 4 ∧ third.length = 4 ∧ fourth.length = 4 := by
    refine ⟨?_, ?_, ?_, ?_⟩
    · simpa [hLength] using congrArg List.length hFirst
    · simpa [hLength] using congrArg List.length hSecond
    · simpa [hLength] using congrArg List.length hThird
    · simpa [hLength] using congrArg List.length hFourth
  obtain ⟨h8, h12, h16, h20⟩ := hLengths
  refine ⟨first ++ second ++ third ++ fourth ++ fifth, ?_, ?_⟩
  · simp (disch := omega) [group, List.drop_append, List.drop_eq_nil_of_le, h8, h12, h16]
  · simp only [List.append_assoc, List.map_append, hFirst, hSecond, hThird, hFourth, hFifth]
    exact parts_append digits

/-- Groups are read as the uuid whose groups they are in some case. -/
theorem ofGroups?_eq_some_iff {text : List Char} {id : Uuid} :
    ofGroups? text = some id ↔ text.map Char.toLower = id.chars := by
  rw [ofGroups?, Option.bind_eq_some_iff, chars]
  constructor
  · rintro ⟨written, hGroups, hDigits⟩
    rw [ungroup] at hGroups
    split at hGroups
    · next hText =>
      cases hGroups
      rw [hText.2, map_toLower_group, ofDigits?_eq_some_iff.1 hDigits]
    · cases hGroups
  · intro h
    obtain ⟨written, rfl, hWritten⟩ := exists_of_map_eq_group id.length_digits h
    have hLength : written.length = 32 := by
      rw [← id.length_digits, ← hWritten, List.length_map]
    exact ⟨written, ungroup_group hLength, ofDigits?_eq_some_iff.2 hWritten⟩

/-! ## The four forms -/

/-- The forms in which a uuid is written. -/
inductive Form where
  /-- Five groups of digits with hyphens between them. -/
  | grouped
  /-- The digits alone. -/
  | plain
  /-- The groups in braces. -/
  | braced
  /-- The groups behind `urn:uuid:`. -/
  | urn

/-- What is written of a uuid in a form, in lower case. -/
def Form.chars (id : Uuid) : Form → List Char
  | grouped => id.chars
  | plain => id.digits
  | braced => '\x7b' :: id.chars ++ ['\x7d']
  | urn => ['u', 'r', 'n', ':', 'u', 'u', 'i', 'd', ':'] ++ id.chars

/-- The forms are told apart by how long they are. -/
def Form.length : Form → Nat
  | grouped => 36
  | plain => 32
  | braced => 38
  | urn => 45

/-- Each form has its own length, whatever the id. -/
theorem Form.length_chars (form : Form) (id : Uuid) : (form.chars id).length = form.length := by
  have hDigits := id.length_digits
  have hGroups := length_group hDigits
  cases form <;> simp [chars, length, Uuid.chars, hDigits, hGroups]

/-- What stands in braces is what is between them. -/
theorem unbrace?_eq_some_iff {text inner : List Char} :
    unbrace? text = some inner ↔ text = '\x7b' :: inner ++ ['\x7d'] := by
  constructor
  · intro h
    unfold unbrace? at h
    split at h
    · split at h
      · next hLast =>
        cases h
        rw [List.cons_append, List.dropLast_append_getLast? _ hLast]
      · cases h
    · cases h
  · rintro rfl
    simp [unbrace?]

/-- A text has the prefix if it begins so in any case, and then the rest of it is left. -/
theorem unprefix?_eq_some_iff {text rest : List Char} :
    unprefix? text = some rest ↔
      (text.take 9).map Char.toLower = ['u', 'r', 'n', ':', 'u', 'u', 'i', 'd', ':'] ∧
        text.drop 9 = rest := by
  simp [unprefix?]

/-- What a text of a form is read as. -/
def Form.read (text : List Char) : Form → Option Uuid
  | grouped => ofGroups? text
  | plain => ofDigits? text
  | braced => (unbrace? text).bind ofGroups?
  | urn => (unprefix? text).bind ofGroups?

/-- A text of a form is read as the uuid of which it is this form, in some case. -/
theorem Form.read_eq_some_iff {form : Form} {text : List Char} {id : Uuid} :
    form.read text = some id ↔ text.map Char.toLower = form.chars id := by
  cases form with
  | grouped => exact ofGroups?_eq_some_iff
  | plain => exact ofDigits?_eq_some_iff
  | braced =>
    simp only [read, chars, Option.bind_eq_some_iff, unbrace?_eq_some_iff, ofGroups?_eq_some_iff]
    constructor
    · rintro ⟨inner, rfl, hInner⟩
      rw [List.map_append, List.map_cons, hInner]
      rfl
    · intro h
      simp only [List.map_eq_append_iff, List.map_eq_cons_iff, List.map_eq_nil_iff] at h
      obtain ⟨_, _, rfl, ⟨first, inner, rfl, hFirst, hInner⟩, last, _, rfl, hLast, rfl⟩ := h
      -- Braces have one case only.
      obtain rfl := eq_of_toLower_eq hFirst (by decide)
      obtain rfl := eq_of_toLower_eq hLast (by decide)
      exact ⟨inner, rfl, hInner⟩
  | urn =>
    simp only [read, chars, Option.bind_eq_some_iff, unprefix?_eq_some_iff, ofGroups?_eq_some_iff]
    constructor
    · rintro ⟨_, ⟨hPrefix, rfl⟩, hRest⟩
      rw [← hPrefix, ← hRest, ← List.map_append, List.take_append_drop]
    · intro h
      obtain ⟨start, rest, rfl, hStart, hRest⟩ := List.map_eq_append_iff.1 h
      have hLength : start.length = 9 := by
        rw [← List.length_map (f := Char.toLower), hStart]
        rfl
      exact ⟨rest, ⟨by rw [List.take_left' hLength, hStart], List.drop_left' hLength⟩, hRest⟩

/-- What is read in a form has the length of the form. -/
theorem Form.length_of_read {form : Form} {text : List Char} {id : Uuid}
    (h : form.read text = some id) : text.length = form.length := by
  rw [← form.length_chars id, ← read_eq_some_iff.1 h, List.length_map]

/-- A text is read as a uuid just if it is one of its forms, in some case. -/
theorem parse?_eq_some_iff {text : List Char} {id : Uuid} :
    parse? text = some id ↔ ∃ form : Form, text.map Char.toLower = form.chars id := by
  have hParse : parse? text = (Form.grouped.read text).or ((Form.plain.read text).or
      ((Form.braced.read text).or (Form.urn.read text))) := rfl
  constructor
  · intro h
    simp only [hParse, Option.or_eq_some_iff] at h
    rcases h with h | ⟨-, h | ⟨-, h | ⟨-, h⟩⟩⟩
    all_goals exact ⟨_, Form.read_eq_some_iff.1 h⟩
  · rintro ⟨form, h⟩
    have hRead := Form.read_eq_some_iff.2 h
    have hOthers : ∀ other : Form, other.length ≠ form.length → other.read text = none := by
      intro other hOther
      refine Option.eq_none_iff_forall_ne_some.2 fun id' hRead' => hOther ?_
      rw [← Form.length_of_read hRead', Form.length_of_read hRead]
    rw [hParse]
    cases form with
    | grouped => rw [hRead, Option.some_or]
    | plain => rw [hOthers .grouped (by decide), hRead, Option.none_or, Option.some_or]
    | braced =>
      rw [hOthers .grouped (by decide), hOthers .plain (by decide), hRead, Option.none_or,
        Option.none_or, Option.some_or]
    | urn =>
      rw [hOthers .grouped (by decide), hOthers .plain (by decide), hOthers .braced (by decide),
        hRead, Option.none_or, Option.none_or, Option.none_or]

/-! ## Ids of executions -/

/-- No form of an id has a blank in it. -/
theorem Form.not_isBlank_of_mem {form : Form} {id : Uuid} {c : Char} (h : c ∈ form.chars id) :
    Text.isBlank c = false := by
  cases form with
  | grouped => exact not_isBlank_of_mem_chars h
  | plain => exact not_isBlank_of_mem_digits h
  | braced =>
    rcases List.mem_append.1 h with h | h
    · rcases List.mem_cons.1 h with rfl | h
      · rfl
      · exact not_isBlank_of_mem_chars h
    · rw [List.mem_singleton.1 h]
      rfl
  | urn =>
    have hPrefix : ∀ c ∈ ['u', 'r', 'n', ':', 'u', 'u', 'i', 'd', ':'],
        Text.isBlank c = false := by simp [Text.isBlank]
    rcases List.mem_append.1 h with h | h
    · exact hPrefix c h
    · exact not_isBlank_of_mem_chars h

/-- A text writes a uuid: it is one of its forms in any letter case, between blanks or not. -/
def WrittenBy (id : Uuid) (text : String) : Prop :=
  ∃ (form : Form) (before written after : List Char), text.toList = before ++ written ++ after ∧
    (∀ c ∈ before, Text.isBlank c = true) ∧ (∀ c ∈ after, Text.isBlank c = true) ∧
      written.map Char.toLower = form.chars id

/-- What a text writes is what it writes without the blanks at its ends. -/
theorem writtenBy_iff {id : Uuid} {text : String} :
    id.WrittenBy text ↔
      ∃ form : Form, (Text.trim text.toList).map Char.toLower = form.chars id := by
  constructor
  · rintro ⟨form, before, written, after, hText, hBefore, hAfter, hForm⟩
    have hWritten : ∀ c ∈ written, Text.isBlank c = false := by
      intro c hc
      have hLower := form.not_isBlank_of_mem (hForm ▸ List.mem_map_of_mem (f := Char.toLower) hc)
      cases hBlank : Text.isBlank c with
      | false => rfl
      | true => exact (Text.isBlank_toLower hBlank).symm.trans hLower
    rw [hText, Text.trim_between hBefore hAfter hWritten]
    exact ⟨form, hForm⟩
  · rintro ⟨form, hForm⟩
    obtain ⟨before, after, hText, hBefore, hAfter⟩ := Text.exists_eq_trim text.toList
    exact ⟨form, before, _, after, hText, hBefore, hAfter, hForm⟩

end Uuid

/-- The id of an execution is read from a text just if the text is one of its forms, with blanks
around it or not. -/
theorem parseExecutionId_eq_ok_iff {text : String} {id : Uuid} :
    parseExecutionId text = .ok id ↔ id.WrittenBy text := by
  rw [Uuid.writtenBy_iff, ← Uuid.parse?_eq_some_iff, parseExecutionId]
  cases Uuid.parse? (Text.trim text.toList) <;> simp

/-- Just the texts that write an id are read as that id, and any other text is given back in the
failure, as it is. So the text of an id is read as the id, no text writes two ids, and what is
stored of an execution can be asked for by whatever writes its id. -/
theorem parseExecutionId_of_forms :
    (∀ (text : String) (id : Uuid), parseExecutionId text = .ok id ↔ id.WrittenBy text) ∧
    (∀ text : String, (¬ ∃ id : Uuid, id.WrittenBy text) →
      parseExecutionId text = .error (.invalidExecutionId text)) ∧
    (∀ id : Uuid, parseExecutionId id.text = .ok id) ∧
    (∀ (text : String) (id other : Uuid), id.WrittenBy text → other.WrittenBy text →
      id = other) ∧
    ∀ (archive : Archive) (text : String) (id : Uuid) (trim : Bool), id.WrittenBy text →
      archive.retrieveText text trim = archive.retrieve id trim := by
  refine ⟨fun _ _ => parseExecutionId_eq_ok_iff, fun text hNone => ?_, parseExecutionId_text,
    fun text id other hId hOther => ?_, fun archive text id trim hId => ?_⟩
  · cases hParse : parseExecutionId text with
    | ok id => exact absurd ⟨id, parseExecutionId_eq_ok_iff.1 hParse⟩ hNone
    | error failure =>
      rw [parseExecutionId] at hParse
      split at hParse <;> cases hParse
      rfl
  · have hParse := parseExecutionId_eq_ok_iff.2 hId
    exact Except.ok.inj (hParse.symm.trans (parseExecutionId_eq_ok_iff.2 hOther))
  · rw [Archive.retrieveText, parseExecutionId_eq_ok_iff.2 hId]
    rfl

/-- A URN in mixed case, between a wide space and the end of a line, is an id; what lacks a brace is
none. -/
theorem parseExecutionId_of_forms_urn :
    parseExecutionId "\u2003URN:Uuid:00000000-0000-0000-0123-456789aBCDeF\n" =
      .ok (.ofNat 0x123456789abcdef) ∧
    parseExecutionId "\x7b00000000-0000-0000-0123-456789abcdef " =
      .error (.invalidExecutionId "\x7b00000000-0000-0000-0123-456789abcdef ") ∧
    (Archive.plainArchive none).retrieveText
        "\u2003URN:Uuid:00000000-0000-0000-0123-456789aBCDeF\n" true =
      (Archive.plainArchive none).retrieve (.ofNat 0x123456789abcdef) true := by
  obtain ⟨hForms, hOthers, -, -, hRetrieve⟩ := parseExecutionId_of_forms
  have hWritten : (Uuid.ofNat 0x123456789abcdef).WrittenBy
      "\u2003URN:Uuid:00000000-0000-0000-0123-456789aBCDeF\n" :=
    ⟨.urn, ['\u2003'], "URN:Uuid:00000000-0000-0000-0123-456789aBCDeF".toList, ['\n'],
      by decide +kernel, List.forall_mem_singleton.2 rfl, List.forall_mem_singleton.2 rfl,
      by decide +kernel⟩
  have hOpen : ¬ ∃ id : Uuid, id.WrittenBy "\x7b00000000-0000-0000-0123-456789abcdef " := by
    rintro ⟨id, hId⟩
    obtain ⟨form, hForm⟩ := Uuid.writtenBy_iff.1 hId
    -- No form has thirty-seven characters.
    have hLength := congrArg List.length hForm
    rw [List.length_map, form.length_chars] at hLength
    revert hLength
    cases form <;> decide +kernel
  exact ⟨(hForms _ _).2 hWritten, hOthers _ hOpen, hRetrieve _ _ _ true hWritten⟩

end Collocation

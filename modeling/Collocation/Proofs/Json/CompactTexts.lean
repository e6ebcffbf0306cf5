import Collocation.Proofs.Json.Arrangements
import Collocation.Proofs.Json.Tokens

/-!
# Compact texts

The compact text of a value has the draft of the value, if the numbers in it are read back one by
one. It is read as that value, as a payload, if moreover the names in its objects ascend, as they do
in all that is read as a payload. The arrays and objects around a value are frames while it is read,
so that its text completes the value among them.
-/

set_option autoImplicit false

namespace Collocation

/-- A number is read back from its text where it stands alone. Other scalars always are. -/
def Scalar.ReadsBack : Scalar → Prop
  | .integer n => Json.readNumber (Json.integerChars n) = some (some (.integer n), [])
  | .double x => Json.readNumber (Double.jsonLayout.text x) = some (some (.double x), [])
  | _ => True

instance : (value : Scalar) → Decidable value.ReadsBack
  | .integer _ => inferInstanceAs (Decidable (_ = _))
  | .double _ => inferInstanceAs (Decidable (_ = _))
  | .null | .bool _ | .string _ => inferInstanceAs (Decidable True)

namespace Json

open Expecting

/-! ## Values that are read back -/

mutual

/-- The numbers of a value are read back. -/
def ReadsBack : Json → Prop
  | .scalar value => value.ReadsBack
  | .array items => ReadsBackItems items
  | .object members => ReadsBackMembers members

def ReadsBackItems : List Json → Prop
  | [] => True
  | item :: items => item.ReadsBack ∧ ReadsBackItems items

def ReadsBackMembers : List (String × Json) → Prop
  | [] => True
  | (_, value) :: members => value.ReadsBack ∧ ReadsBackMembers members

end

/-- The numbers in items are read back just if those of each item are. -/
theorem readsBackItems_iff {items : List Json} :
    ReadsBackItems items ↔ ∀ item ∈ items, item.ReadsBack := by
  induction items with
  | nil => simp [ReadsBackItems]
  | cons item items ih => rw [ReadsBackItems, ih, List.forall_mem_cons]

/-- The numbers in members are read back just if those of each member are. -/
theorem readsBackMembers_iff {members : List (String × Json)} :
    ReadsBackMembers members ↔ ∀ member ∈ members, member.2.ReadsBack := by
  induction members with
  | nil => simp [ReadsBackMembers]
  | cons member members ih => rw [ReadsBackMembers, ih, List.forall_mem_cons]

mutual

/-- The numbers of a value are read back, and the names in its objects ascend. -/
def Legible : Json → Prop
  | .scalar value => value.ReadsBack
  | .array items => LegibleItems items
  | .object members => Ascending members ∧ LegibleMembers members

def LegibleItems : List Json → Prop
  | [] => True
  | item :: items => item.Legible ∧ LegibleItems items

def LegibleMembers : List (String × Json) → Prop
  | [] => True
  | (_, value) :: members => value.Legible ∧ LegibleMembers members

end

/-- Items are legible just if each of them is. -/
theorem legibleItems_iff {items : List Json} :
    LegibleItems items ↔ ∀ item ∈ items, item.Legible := by
  induction items with
  | nil => simp [LegibleItems]
  | cons item items ih => rw [LegibleItems, ih, List.forall_mem_cons]

/-- Members are legible just if the value of each is. -/
theorem legibleMembers_iff {members : List (String × Json)} :
    LegibleMembers members ↔ ∀ member ∈ members, member.2.Legible := by
  induction members with
  | nil => simp [LegibleMembers]
  | cons member members ih => rw [LegibleMembers, ih, List.forall_mem_cons]

/-- A legible value has only numbers that are read back. -/
theorem Legible.readsBack {value : Json} (h : value.Legible) : value.ReadsBack := by
  induction value using Json.induction with
  | scalar => exact h
  | array items ih =>
    rw [Legible, legibleItems_iff] at h
    exact readsBackItems_iff.2 fun item hItem => ih item hItem (h item hItem)
  | object members ih =>
    rw [Legible, legibleMembers_iff] at h
    exact readsBackMembers_iff.2 fun member hMember => ih member hMember (h.2 member hMember)

/-- In a legible value the names of members are in order. -/
theorem Legible.ordered {value : Json} (h : value.Legible) : value.Ordered := by
  induction value using Json.induction with
  | scalar value => exact .scalar value
  | array items ih =>
    rw [Legible, legibleItems_iff] at h
    exact .array fun item hItem => ih item hItem (h item hItem)
  | object members ih =>
    rw [Legible, legibleMembers_iff] at h
    exact .object h.1 fun member hMember => ih member hMember (h.2 member hMember)

/-! ## Drafts of compact texts -/

/-- What a reader of tokens does with a text: behind the spaces it ends, or stops at what is no
token, or goes on behind a token. -/
theorem readTokens_eq_match (expecting : Expecting) (text : List Char) :
    readTokens expecting text = match text.dropWhile isSpace with
      | [] => expecting.finish true
      | c :: rest => match readToken (c :: rest) with
        | none => expecting.finish false
        | some (token, rest') => readTokens (expecting.step token) rest' := by
  rw [readTokens]
  split
  · next hSpaces => rw [hSpaces]
  · next hSpaces =>
    rw [hSpaces]
    split
    · next hToken => simp only [hToken]
    · next hToken => simp only [hToken]

/-- Where a text begins with a token, this token is the next step. -/
theorem readTokens_of_readToken {expecting : Expecting} {token : Token} {text rest : List Char}
    (h : readToken text = some (token, rest)) :
    readTokens expecting text = readTokens (expecting.step token) rest := by
  rw [readTokens_eq_match, dropWhile_of_readToken h]
  cases text with
  | nil => cases h
  | cons c text => simp only [h]

/-- A value is expected within some frames. An array may end here too if it is its first item. -/
def Awaits (expecting : Expecting) (frames : List Frame) : Prop :=
  ∀ token, token ≠ .mark .closeArray → expecting.step token = begin frames token

/-- Where any value may stand, one is awaited. -/
theorem awaits_anyValue (frames : List Frame) : Awaits (.anyValue frames) frames :=
  fun _ _ => rfl

/-- At the head of an array its first item is awaited. -/
theorem awaits_firstItem (frames : List Frame) :
    Awaits (.firstItem frames) (.array [] :: frames) := by
  intro token hToken
  rw [step]
  exact hToken

variable {expecting : Expecting} {frames : List Frame}

/-- A scalar that is awaited is complete behind its text. -/
theorem readTokens_scalarOnto (hAwaits : Awaits expecting frames) {value : Scalar}
    (hValue : value.ReadsBack) {rest : List Char} (hRest : EndsNumber rest) :
    readTokens expecting (scalarOnto value rest) =
      readTokens (complete (.scalar value) frames) rest := by
  cases value with
  | null =>
    rw [scalarOnto, readTokens_of_readToken rfl, hAwaits _ (by simp)]
    rfl
  | bool value =>
    cases value <;>
    · rw [scalarOnto, readTokens_of_readToken rfl, hAwaits _ (by simp)]
      rfl
  | integer n =>
    have hToken := readToken_of_readNumber (readNumber_append hRest hValue)
    rw [scalarOnto, readTokens_of_readToken hToken, hAwaits _ (by simp)]
    rfl
  | double x =>
    have hToken := readToken_of_readNumber (readNumber_append hRest hValue)
    rw [scalarOnto, readTokens_of_readToken hToken, hAwaits _ (by simp)]
    rfl
  | string s =>
    rw [scalarOnto, readTokens_of_readToken (readToken_quoteOnto s rest), hAwaits _ (by simp)]
    rfl

/-- Behind an item of an array no number goes on. -/
theorem endsNumber_itemsOnto (items : List Json) (rest : List Char) :
    EndsNumber (itemsOnto items (']' :: rest)) := by
  cases items <;> exact endsNumber_cons _ (by decide)

/-- Behind a member of an object no number goes on. -/
theorem endsNumber_membersOnto (members : List (String × Json)) (rest : List Char) :
    EndsNumber (membersOnto members ('\x7d' :: rest)) := by
  cases members <;> exact endsNumber_cons _ (by decide)

mutual

/-- The text of a value completes the draft of the value. -/
theorem readTokens_compactOnto :
    ∀ (value : Json), value.ReadsBack → ∀ {expecting : Expecting} {frames : List Frame},
      Awaits expecting frames → ∀ {rest : List Char}, EndsNumber rest →
        readTokens expecting (compactOnto value rest) =
          readTokens (complete value.toDraft frames) rest
  | .scalar value, hValue, _, _, hAwaits, _, hRest => by
    rw [compactOnto, toDraft]
    exact readTokens_scalarOnto hAwaits hValue hRest
  | .array [], _, _, _, hAwaits, _, _ => by
    rw [compactOnto, readTokens_of_readToken rfl, hAwaits _ (by simp), readTokens_of_readToken rfl]
    rfl
  | .array (item :: items), hValue, _, frames, hAwaits, rest, _ => by
    rw [compactOnto, readTokens_of_readToken rfl, hAwaits _ (by simp)]
    exact (readTokens_compactOnto item hValue.1 (awaits_firstItem frames)
      (endsNumber_itemsOnto items rest)).trans (readTokens_itemsOnto items hValue.2 frames _ rest)
  | .object [], _, _, _, hAwaits, _, _ => by
    rw [compactOnto, readTokens_of_readToken rfl, hAwaits _ (by simp), readTokens_of_readToken rfl]
    rfl
  | .object ((name, value) :: members), hValue, _, frames, hAwaits, rest, _ => by
    rw [compactOnto, readTokens_of_readToken rfl, hAwaits _ (by simp),
      readTokens_of_readToken (readToken_quoteOnto _ _), readTokens_of_readToken rfl]
    exact (readTokens_compactOnto value hValue.1 (awaits_anyValue _)
      (endsNumber_membersOnto members rest)).trans
        (readTokens_membersOnto members hValue.2 frames _ rest)

/-- The items behind the first one of an array are read to its end. -/
theorem readTokens_itemsOnto :
    ∀ (items : List Json), ReadsBackItems items → ∀ (frames : List Frame) (read : List Draft)
      (rest : List Char),
        readTokens (.nextItem frames read) (itemsOnto items (']' :: rest)) =
          readTokens (complete (.array (read.reverse ++ toDrafts items)) frames) rest
  | [], _, frames, read, rest => by
    rw [itemsOnto, readTokens_of_readToken rfl, toDrafts, List.append_nil]
    rfl
  | item :: items, hItems, frames, read, rest => by
    rw [itemsOnto, readTokens_of_readToken rfl]
    have hItem := readTokens_compactOnto item hItems.1 (awaits_anyValue (.array read :: frames))
      (endsNumber_itemsOnto items rest)
    have hOthers := readTokens_itemsOnto items hItems.2 frames (item.toDraft :: read) rest
    rw [List.reverse_cons, List.append_assoc] at hOthers
    exact hItem.trans hOthers

/-- The members behind the first one of an object are read to its end. -/
theorem readTokens_membersOnto :
    ∀ (members : List (String × Json)), ReadsBackMembers members → ∀ (frames : List Frame)
      (read : List (Option String × Draft)) (rest : List Char),
        readTokens (.nextMember frames read) (membersOnto members ('\x7d' :: rest)) =
          readTokens (complete (.object (read.reverse ++ toMembers members)) frames) rest
  | [], _, frames, read, rest => by
    rw [membersOnto, readTokens_of_readToken rfl, toMembers, List.append_nil]
    rfl
  | (name, value) :: members, hMembers, frames, read, rest => by
    rw [membersOnto, readTokens_of_readToken rfl, step,
      readTokens_of_readToken (readToken_quoteOnto _ _), step, readTokens_of_readToken rfl, step]
    have hValue := readTokens_compactOnto value hMembers.1
      (awaits_anyValue (.object read (some name) :: frames)) (endsNumber_membersOnto members rest)
    have hOthers := readTokens_membersOnto members hMembers.2 frames
      ((some name, value.toDraft) :: read) rest
    rw [List.reverse_cons, List.append_assoc] at hOthers
    exact hValue.trans hOthers

end

/-- The draft of a compact text is that of the value. -/
theorem ofText_compact {value : Json} (h : value.ReadsBack) :
    Document.ofText value.compact.toList = ⟨value.toDraft, true⟩ := by
  rw [compact, String.toList_ofList, Document.ofText,
    readTokens_compactOnto value h (awaits_anyValue []) endsNumber_nil, complete, readTokens]
  rfl

/-! ## Payloads of compact texts -/

/-- A legible value is what its compact text says, if it does not nest too deeply. -/
theorem parse?_compact {value : Json} (h : value.Legible)
    (hDepth : value.toDraft.depth ≤ maxLevels) :
    parse? value.compact = some value := by
  have hPayload : value.toDraft.payload ⟨.text, maxLevels⟩ = .ok value :=
    (Arranges.refl value).payload h.ordered hDepth
  rw [parse?, ofText, ofText_compact h.readsBack, readPayload]
  simp only [bind, Except.bind, hPayload]
  rfl

end Json

end Collocation

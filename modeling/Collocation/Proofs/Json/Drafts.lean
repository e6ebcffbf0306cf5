import Collocation.Json.Draft
import Collocation.Proofs.Double.Finite

/-!
# Numbers in drafts

The numbers of a text are whole numbers of sixty-four bits or finite doubles. So are all numbers in
the draft of a text, of which a part may be open while the tokens are read.
-/

set_option autoImplicit false

namespace Collocation

/-- A whole number is one of sixty-four bits, with a sign or without, and a double is finite. -/
def Scalar.Sized : Scalar → Prop
  | .integer n => Int64.minValue.toInt ≤ n ∧ n < UInt64.size
  | .double x => x.isFinite = true
  | _ => True

namespace Json

/-! ## Numbers of texts -/

/-- A whole number that is read is one of sixty-four bits. -/
theorem sized_of_wholeNumber? {negative : Bool} {digits : List Char} {value : Scalar}
    (h : wholeNumber? negative digits = some value) : value.Sized := by
  rw [wholeNumber?] at h
  have hSize : (0 : Int) < UInt64.size := by decide
  have hMin : Int64.minValue.toInt < 0 := by decide
  split at h
  · split at h
    · next hRange =>
      cases h
      exact ⟨hRange.2, by omega⟩
    · cases h
  · split at h
    · next hRange =>
      cases h
      exact ⟨by omega, by omega⟩
    · cases h

/-- A double that is read is finite. -/
theorem sized_of_doubleNumber? {negative : Bool} {digits fraction : List Char} {power : Int}
    {value : Scalar} (h : doubleNumber? negative digits fraction power = some value) :
    value.Sized := by
  obtain ⟨x, hDouble, rfl⟩ := Option.map_eq_some_iff.1 h
  refine Double.isFinite_of_ofMantissa ?_ hDouble
  exact Mantissa.value_addFraction (Mantissa.value_ofWhole _) _

/-- A number that is read is sized. -/
theorem sized_of_readNumber {text rest : List Char} {value : Scalar}
    (h : readNumber text = some (some value, rest)) : value.Sized := by
  unfold readNumber at h
  simp only [Option.bind_eq_bind, Option.bind_eq_some_iff] at h
  obtain ⟨⟨digits, _⟩, -, ⟨fraction, _⟩, -, ⟨power, _⟩, -, hValue⟩ := h
  split at hValue
  · rw [Option.some.injEq, Prod.mk.injEq, Option.or_eq_some_iff] at hValue
    obtain ⟨hWhole | ⟨-, hDouble⟩, -⟩ := hValue
    · exact sized_of_wholeNumber? hWhole
    · exact sized_of_doubleNumber? hDouble
  · rw [Option.some.injEq, Prod.mk.injEq] at hValue
    exact sized_of_doubleNumber? hValue.1

/-- The number of a token is of this size. -/
def Token.Sized : Token → Prop
  | .number (some value) => value.Sized
  | _ => True

/-- The number of a token is sized. -/
theorem sized_of_readToken {text rest : List Char} {token : Token}
    (h : readToken text = some (token, rest)) : token.Sized := by
  unfold readToken at h
  split at h
  case h_10 =>
    obtain ⟨⟨_, _⟩, -, hToken⟩ := Option.bind_eq_some_iff.1 h
    cases hToken
    trivial
  case h_11 =>
    obtain ⟨⟨value, _⟩, hNumber, hToken⟩ := Option.bind_eq_some_iff.1 h
    cases hToken
    cases value with
    | none => trivial
    | some value => exact sized_of_readNumber hNumber
  all_goals
    cases h
    trivial

/-! ## Drafts -/

/-- All numbers in a draft are of this size. -/
inductive Draft.Sized : Draft → Prop
  | scalar {value : Scalar} (h : value.Sized) : Sized (.scalar value)
  | unreadable : Sized .unreadable
  | broken : Sized .broken
  | array {items : List Draft} (h : ∀ item ∈ items, item.Sized) : Sized (.array items)
  | object {members : List (Option String × Draft)} (h : ∀ member ∈ members, member.2.Sized) :
    Sized (.object members)

/-- All that was read of an open array or object. -/
def Frame.drafts : Frame → List Draft
  | .array read => read
  | .object read _ => read.map (·.2)

namespace Expecting

/-- All that was read so far. -/
def drafts : Expecting → List Draft
  | .anyValue frames => frames.flatMap Frame.drafts
  | .firstItem frames => frames.flatMap Frame.drafts
  | .nextItem frames read => read ++ frames.flatMap Frame.drafts
  | .firstName frames => frames.flatMap Frame.drafts
  | .anyName frames read => read.map (·.2) ++ frames.flatMap Frame.drafts
  | .colon frames read _ => read.map (·.2) ++ frames.flatMap Frame.drafts
  | .nextMember frames read => read.map (·.2) ++ frames.flatMap Frame.drafts
  | .nothing value => [value]
  | .settled document => [document.draft]

/-- The numbers in all that was read so far are of this size. -/
def Sized (expecting : Expecting) : Prop :=
  ∀ draft ∈ expecting.drafts, draft.Sized

variable {value : Draft} {frames : List Frame}
  (hFrames : ∀ draft ∈ frames.flatMap Frame.drafts, draft.Sized)
include hFrames

/-- A sized value completes what is open to something sized. -/
theorem sized_complete (hValue : value.Sized) : (complete value frames).Sized := by
  cases frames with
  | nil => simpa [complete, Sized, drafts] using hValue
  | cons frame frames =>
    cases frame <;>
    · simp only [List.flatMap_cons, List.forall_mem_append, Frame.drafts] at hFrames
      simpa [complete, Sized, drafts, hValue, or_imp, forall_and] using hFrames

/-- A sized value makes all that is open something sized, when it is closed behind the value. -/
theorem sized_close (hValue : value.Sized) : (close value frames).Sized := by
  induction frames generalizing value with
  | nil => exact hValue
  | cons frame frames ih =>
    simp only [List.flatMap_cons, List.forall_mem_append] at hFrames
    cases frame with
    | array read =>
      refine ih hFrames.2 (.array fun item hItem => ?_)
      rcases List.mem_cons.1 (List.mem_reverse.1 hItem) with rfl | hItem
      · exact hValue
      · exact hFrames.1 item hItem
    | object read name =>
      refine ih hFrames.2 (.object fun member hMember => ?_)
      rcases List.mem_cons.1 (List.mem_reverse.1 hMember) with rfl | hMember
      · exact hValue
      · exact hFrames.1 member.2 (List.mem_map_of_mem hMember)

/-- A text that is given up behind a sized value leaves something sized. -/
theorem sized_abandon (hValue : value.Sized) : (abandon value frames).Sized := by
  intro draft hDraft
  rw [List.mem_singleton.1 hDraft]
  exact sized_close hFrames hValue

/-- A sized token begins a sized value. -/
theorem sized_begin {token : Token} (hToken : token.Sized) : (begin frames token).Sized := by
  cases token with
  | mark mark =>
    cases mark with
    | openArray | openObject => exact hFrames
    | _ => exact sized_abandon hFrames .broken
  | null | bool => exact sized_complete hFrames (.scalar trivial)
  | number value =>
    cases value with
    | none => exact sized_complete hFrames .unreadable
    | some value => exact sized_complete hFrames (.scalar hToken)
  | string value =>
    cases value with
    | none => exact sized_complete hFrames .unreadable
    | some value => exact sized_complete hFrames (.scalar trivial)

omit hFrames

/-- What is open is closed as an array of what was read of it. -/
theorem sized_array {read : List Draft} (h : ∀ item ∈ read, item.Sized) :
    (Draft.array read.reverse).Sized :=
  .array fun item hItem => h item (List.mem_reverse.1 hItem)

/-- What is open is closed as an object of what was read of it. -/
theorem sized_object {read : List (Option String × Draft)}
    (h : ∀ draft ∈ read.map (·.2), draft.Sized) : (Draft.object read.reverse).Sized :=
  .object fun member hMember => h member.2 (List.mem_map_of_mem (List.mem_reverse.1 hMember))

/-- An object that breaks off before its first name is sized. -/
theorem sized_object_broken : (Draft.object [(none, .broken)]).Sized :=
  .object fun _ hMember => List.mem_singleton.1 hMember ▸ .broken

/-- One token more keeps the sizes. -/
theorem Sized.step {expecting : Expecting} (h : expecting.Sized) {token : Token}
    (hToken : token.Sized) : (expecting.step token).Sized := by
  fun_cases Expecting.step expecting token with
  | case1 frames => exact sized_begin h hToken
  | case2 frames => exact sized_complete h (.array (by simp))
  | case3 frames =>
    have hFrames : ∀ draft ∈ (Frame.array [] :: frames).flatMap Frame.drafts, draft.Sized := h
    exact sized_begin hFrames hToken
  | case4 frames read => exact h
  | case5 frames read =>
    obtain ⟨hRead, hFrames⟩ := List.forall_mem_append.1 h
    exact sized_complete hFrames (sized_array hRead)
  | case6 frames read =>
    obtain ⟨hRead, hFrames⟩ := List.forall_mem_append.1 h
    exact sized_abandon hFrames (sized_array (List.forall_mem_cons.2 ⟨.broken, hRead⟩))
  | case7 frames => exact sized_complete h (.object (by simp))
  | case8 frames name => exact h
  | case9 frames => exact sized_abandon h sized_object_broken
  | case10 frames read name => exact h
  | case11 frames read =>
    obtain ⟨hRead, hFrames⟩ := List.forall_mem_append.1 h
    exact sized_abandon hFrames (sized_object (List.forall_mem_cons.2 ⟨.broken, hRead⟩))
  | case12 frames read name => exact h
  | case13 frames read name =>
    obtain ⟨hRead, hFrames⟩ := List.forall_mem_append.1 h
    exact sized_abandon hFrames (sized_object (List.forall_mem_cons.2 ⟨.broken, hRead⟩))
  | case14 frames read => exact h
  | case15 frames read =>
    obtain ⟨hRead, hFrames⟩ := List.forall_mem_append.1 h
    exact sized_complete hFrames (sized_object hRead)
  | case16 frames read =>
    obtain ⟨hRead, hFrames⟩ := List.forall_mem_append.1 h
    exact sized_abandon hFrames (sized_object (List.forall_mem_cons.2 ⟨.broken, hRead⟩))
  | case17 value => exact h
  | case18 document => exact h

/-- At the end of a text all that was read is sized. -/
theorem Sized.finish {expecting : Expecting} (h : expecting.Sized) (atEnd : Bool) :
    (expecting.finish atEnd).draft.Sized := by
  cases expecting with
  | anyValue frames => exact sized_close h .broken
  | firstItem frames =>
    exact sized_close h (.array fun item hItem => List.mem_singleton.1 hItem ▸ .broken)
  | nextItem frames read =>
    obtain ⟨hRead, hFrames⟩ := List.forall_mem_append.1 h
    exact sized_close hFrames (sized_array (List.forall_mem_cons.2 ⟨.broken, hRead⟩))
  | firstName frames => exact sized_close h sized_object_broken
  | anyName frames read | colon frames read name | nextMember frames read =>
    obtain ⟨hRead, hFrames⟩ := List.forall_mem_append.1 h
    exact sized_close hFrames (sized_object (List.forall_mem_cons.2 ⟨.broken, hRead⟩))
  | nothing value => exact h value List.mem_cons_self
  | settled document => exact h document.draft List.mem_cons_self

end Expecting

/-- All that is read from tokens is sized if what was read before is. -/
theorem sized_readTokens {expecting : Expecting} (h : expecting.Sized) (text : List Char) :
    (readTokens expecting text).draft.Sized := by
  fun_induction readTokens expecting text with
  | case1 expecting text => exact h.finish true
  | case2 expecting text => exact h.finish false
  | case3 expecting text c rest hSpaces token after hToken ih =>
    exact ih (h.step (sized_of_readToken hToken))

/-- The numbers in the draft of a text are whole numbers of sixty-four bits or finite doubles. -/
theorem sized_ofText (text : List Char) : (Document.ofText text).draft.Sized :=
  sized_readTokens (by simp [Expecting.Sized, Expecting.drafts]) text

end Json

end Collocation

import Collocation.Proofs.Json.CompactTexts

/-!
# Texts in lines

The text of a value in lines has the tokens of the compact text of the value, with spaces between
them. Spaces are skipped, so that it is read like the compact text.
-/

set_option autoImplicit false

namespace Collocation.Json

/-! ## Texts that are read alike -/

/-- Two texts are read alike, whatever is expected. -/
def Alike (text other : List Char) : Prop :=
  ∀ expecting, readTokens expecting text = readTokens expecting other

namespace Alike

variable {text other rest rest' : List Char}

/-- A text is read as itself. -/
theorem refl (text : List Char) : Alike text text :=
  fun _ => rfl

/-- The same token in front of texts that are read alike. -/
theorem token {token : Token} (h : readToken text = some (token, rest))
    (h' : readToken other = some (token, rest')) (hRest : Alike rest rest') : Alike text other := by
  intro expecting
  rw [readTokens_of_readToken h, readTokens_of_readToken h', hRest]

/-- Spaces in front of a text do not matter. -/
theorem spaces {spaces : List Char} (hSpaces : ∀ c ∈ spaces, isSpace c = true)
    (h : Alike text other) : Alike (spaces ++ text) other := by
  intro expecting
  rw [readTokens_eq_match, List.dropWhile_append_of_pos hSpaces, ← readTokens_eq_match, h]

/-- A new line with its indentation does not matter in front of a text. -/
theorem newlineOnto (depth : Nat) (h : Alike text other) :
    Alike (newlineOnto depth text) other := by
  have hSpaces : ∀ c ∈ '\n' :: List.replicate (2 * depth) ' ', isSpace c = true :=
    List.forall_mem_cons.2 ⟨rfl, fun c hc => (List.mem_replicate.1 hc).2 ▸ rfl⟩
  exact h.spaces hSpaces

/-- The same string in front of texts that are read alike. -/
theorem quoteOnto (s : String) (h : Alike rest rest') :
    Alike (quoteOnto s rest) (quoteOnto s rest') :=
  h.token (readToken_quoteOnto s rest) (readToken_quoteOnto s rest')

/-- A member begins on a line of its own, with a space behind its colon. -/
theorem member (depth : Nat) (name : String) (h : Alike rest rest') :
    Alike (Json.newlineOnto depth (Json.quoteOnto name (':' :: ' ' :: rest)))
      (Json.quoteOnto name (':' :: rest')) := by
  have hSpace : ∀ c ∈ [' '], isSpace c = true := List.forall_mem_singleton.2 rfl
  have hColon : Alike (':' :: ' ' :: rest) (':' :: rest') := (h.spaces hSpace).token rfl rfl
  exact (hColon.quoteOnto name).newlineOnto depth

/-- A scalar is the same token whatever follows it. -/
theorem scalarOnto {value : Scalar} (hValue : value.ReadsBack) (h : Alike rest rest')
    (hRest : EndsNumber rest) (hRest' : EndsNumber rest') :
    Alike (scalarOnto value rest) (scalarOnto value rest') := by
  cases value with
  | null => exact h.token rfl rfl
  | bool value => cases value <;> exact h.token rfl rfl
  | string s => exact h.quoteOnto s
  | integer n | double x =>
    exact h.token (readToken_of_readNumber (readNumber_append hRest hValue))
      (readToken_of_readNumber (readNumber_append hRest' hValue))

end Alike

/-! ## Lines -/

/-- Behind an item on its line no number goes on. -/
theorem endsNumber_itemLinesOnto (depth : Nat) (items : List Json) (rest : List Char) :
    EndsNumber (itemLinesOnto (depth + 1) items (newlineOnto depth rest)) := by
  cases items <;> exact endsNumber_cons _ (by decide)

/-- Behind a member on its line no number goes on. -/
theorem endsNumber_memberLinesOnto (depth : Nat) (members : List (String × Json))
    (rest : List Char) :
    EndsNumber (memberLinesOnto (depth + 1) members (newlineOnto depth rest)) := by
  cases members <;> exact endsNumber_cons _ (by decide)

mutual

/-- The text of a value in lines is read like the compact text. -/
theorem alike_linesOnto :
    ∀ (value : Json), value.ReadsBack → ∀ (depth : Nat) {rest rest' : List Char},
      Alike rest rest' → EndsNumber rest → EndsNumber rest' →
        Alike (linesOnto depth value rest) (compactOnto value rest')
  | .scalar value, hValue, _, _, _, h, hRest, hRest' => h.scalarOnto hValue hRest hRest'
  | .array [], _, _, _, _, h, _, _ => (h.token rfl rfl).token rfl rfl
  | .array (item :: items), hValue, depth, rest, rest', h, _, _ => by
    have hEnd : Alike (newlineOnto depth (']' :: rest)) (']' :: rest') :=
      Alike.newlineOnto depth (h.token rfl rfl)
    have hItems := alike_itemLinesOnto items hValue.2 depth hEnd
    have hItem := alike_linesOnto item hValue.1 (depth + 1) hItems
      (endsNumber_itemLinesOnto depth items _) (endsNumber_itemsOnto items rest')
    exact (hItem.newlineOnto (depth + 1)).token rfl rfl
  | .object [], _, _, _, _, h, _, _ => (h.token rfl rfl).token rfl rfl
  | .object ((name, value) :: members), hValue, depth, rest, rest', h, _, _ => by
    have hEnd : Alike (newlineOnto depth ('\x7d' :: rest)) ('\x7d' :: rest') :=
      Alike.newlineOnto depth (h.token rfl rfl)
    have hMembers := alike_memberLinesOnto members hValue.2 depth hEnd
    have hFirst := alike_linesOnto value hValue.1 (depth + 1) hMembers
      (endsNumber_memberLinesOnto depth members _) (endsNumber_membersOnto members rest')
    exact (hFirst.member (depth + 1) name).token rfl rfl

/-- Further items on lines are read as in a compact text. -/
theorem alike_itemLinesOnto :
    ∀ (items : List Json), ReadsBackItems items → ∀ (depth : Nat) {rest rest' : List Char},
      Alike (newlineOnto depth (']' :: rest)) (']' :: rest') →
        Alike (itemLinesOnto (depth + 1) items (newlineOnto depth (']' :: rest)))
          (itemsOnto items (']' :: rest'))
  | [], _, _, _, _, h => h
  | item :: items, hItems, depth, rest, rest', h => by
    have hOthers := alike_itemLinesOnto items hItems.2 depth h
    have hItem := alike_linesOnto item hItems.1 (depth + 1) hOthers
      (endsNumber_itemLinesOnto depth items _) (endsNumber_itemsOnto items rest')
    exact (hItem.newlineOnto (depth + 1)).token rfl rfl

/-- Further members on lines are read as in a compact text. -/
theorem alike_memberLinesOnto :
    ∀ (members : List (String × Json)), ReadsBackMembers members →
      ∀ (depth : Nat) {rest rest' : List Char},
        Alike (newlineOnto depth ('\x7d' :: rest)) ('\x7d' :: rest') →
          Alike (memberLinesOnto (depth + 1) members (newlineOnto depth ('\x7d' :: rest)))
            (membersOnto members ('\x7d' :: rest'))
  | [], _, _, _, _, h => h
  | (name, value) :: members, hMembers, depth, rest, rest', h => by
    have hOthers := alike_memberLinesOnto members hMembers.2 depth h
    have hValue := alike_linesOnto value hMembers.1 (depth + 1) hOthers
      (endsNumber_memberLinesOnto depth members _) (endsNumber_membersOnto members rest')
    exact (hValue.member (depth + 1) name).token rfl rfl

end

/-- The draft of a text in lines is that of the value. -/
theorem ofText_lines {value : Json} (h : value.ReadsBack) :
    Document.ofText value.lines.toList = ⟨value.toDraft, true⟩ := by
  rw [← ofText_compact h, lines, compact, String.toList_ofList, String.toList_ofList]
  exact alike_linesOnto value h 0 (.refl []) endsNumber_nil endsNumber_nil _

end Collocation.Json

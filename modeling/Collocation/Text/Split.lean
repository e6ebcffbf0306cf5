/-!
# Lists in a text

Words of a text that are parted by a separator. Every text has one word at least.
-/

set_option autoImplicit false

namespace Collocation.Text

variable (separator : Char)

/-- The words between separators. -/
def split : List Char → List (List Char)
  | [] => [[]]
  | c :: rest =>
    if c = separator then [] :: split rest
    else match split rest with
      | [] => [[c]]
      | word :: words => (c :: word) :: words

/-- Words with separators between them. -/
def join (words : List (List Char)) : List Char :=
  [separator].intercalate words

/-- The words of a string between commas. -/
def splitCommas (s : String) : List String :=
  (split ',' s.toList).map String.ofList

/-- A string of words with commas between them. -/
def joinCommas (words : List String) : String :=
  String.ofList (join ',' (words.map String.toList))

/-- A text has at least one part. -/
theorem split_ne_nil (text : List Char) : split separator text ≠ [] := by
  cases text with
  | nil => simp [split]
  | cons c rest =>
    rw [split]
    split
    · simp
    · split <;> simp

/-- What is split and joined again is the text it was. -/
theorem join_split (text : List Char) : join separator (split separator text) = text := by
  induction text with
  | nil => rfl
  | cons c rest ih =>
    rw [split]
    split
    · next h =>
      obtain ⟨word, words, heq⟩ := List.exists_cons_of_ne_nil (split_ne_nil separator rest)
      rw [heq] at ih ⊢
      simp only [join, List.intercalate_cons_cons, List.nil_append, List.singleton_append,
        List.cons.injEq] at ih ⊢
      exact ⟨h.symm, ih⟩
    · split
      · next heq => exact absurd heq (split_ne_nil separator rest)
      · next word words heq =>
        rw [heq] at ih
        cases words <;> simp_all [join]

end Collocation.Text

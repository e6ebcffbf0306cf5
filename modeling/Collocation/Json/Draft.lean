import Collocation.Json.Token

/-!
# Drafts of JSON texts

A draft is what can be said of a text from left to right, up to where it stops being JSON. Who reads
a shape out of a draft finds the first fault of either kind, of the text or of the shape, where it
stands.
-/

set_option autoImplicit false

namespace Collocation.Json

/-- A value as far as the text goes. -/
inductive Draft where
  | scalar (value : Scalar)
  /-- A scalar that is well formed and has no value. -/
  | unreadable
  /-- Here the text stops being JSON. -/
  | broken
  | array (items : List Draft)
  /-- The members in the order of the text. A name can be unreadable. -/
  | object (members : List (Option String × Draft))

/-- A whole text: the draft of its first value, and whether nothing follows that value. -/
structure Document where
  draft : Draft
  ended : Bool

/-! ## The draft of a text -/

/-- An array or an object that is still open: what was read of it, the last first, and in an object
the name of the member whose value comes next. -/
inductive Frame where
  | array (read : List Draft)
  | object (read : List (Option String × Draft)) (name : Option String)

/-- What the next token has to be. The first frame is the innermost. -/
inductive Expecting where
  | anyValue (frames : List Frame)
  /-- The first item of an array, or its end. -/
  | firstItem (frames : List Frame)
  /-- What follows an item. -/
  | nextItem (frames : List Frame) (read : List Draft)
  /-- The first name of an object, or its end. -/
  | firstName (frames : List Frame)
  | anyName (frames : List Frame) (read : List (Option String × Draft))
  | colon (frames : List Frame) (read : List (Option String × Draft)) (name : Option String)
  /-- What follows a member. -/
  | nextMember (frames : List Frame) (read : List (Option String × Draft))
  /-- Nothing: the value is complete. -/
  | nothing (value : Draft)
  /-- Nothing any more: the draft is settled. -/
  | settled (document : Document)

namespace Expecting

/-- After a complete value. -/
def complete (value : Draft) : List Frame → Expecting
  | [] => .nothing value
  | .array read :: frames => .nextItem frames (value :: read)
  | .object read name :: frames => .nextMember frames ((name, value) :: read)

/-- The draft of everything that is open around a value in which the text broke. -/
def close (value : Draft) : List Frame → Draft
  | [] => value
  | .array read :: frames => close (.array (value :: read).reverse) frames
  | .object read name :: frames => close (.object ((name, value) :: read).reverse) frames

/-- The text broke inside a value. -/
def abandon (value : Draft) (frames : List Frame) : Expecting :=
  .settled ⟨close value frames, true⟩

/-- A value begins with a token. -/
def begin (frames : List Frame) : Token → Expecting
  | .null => complete (.scalar .null) frames
  | .bool value => complete (.scalar (.bool value)) frames
  | .number (some value) => complete (.scalar value) frames
  | .number none => complete .unreadable frames
  | .string (some value) => complete (.scalar (.string value)) frames
  | .string none => complete .unreadable frames
  | .mark .openArray => .firstItem frames
  | .mark .openObject => .firstName frames
  | .mark _ => abandon .broken frames

/-- One token more. -/
def step : Expecting → Token → Expecting
  | .anyValue frames, token => begin frames token
  | .firstItem frames, .mark .closeArray => complete (.array []) frames
  | .firstItem frames, token => begin (.array [] :: frames) token
  | .nextItem frames read, .mark .comma => .anyValue (.array read :: frames)
  | .nextItem frames read, .mark .closeArray => complete (.array read.reverse) frames
  | .nextItem frames read, _ => abandon (.array (.broken :: read).reverse) frames
  | .firstName frames, .mark .closeObject => complete (.object []) frames
  | .firstName frames, .string name => .colon frames [] name
  | .firstName frames, _ => abandon (.object [(none, .broken)]) frames
  | .anyName frames read, .string name => .colon frames read name
  | .anyName frames read, _ => abandon (.object ((none, .broken) :: read).reverse) frames
  | .colon frames read name, .mark .colon => .anyValue (.object read name :: frames)
  | .colon frames read name, _ => abandon (.object ((name, .broken) :: read).reverse) frames
  | .nextMember frames read, .mark .comma => .anyName frames read
  | .nextMember frames read, .mark .closeObject => complete (.object read.reverse) frames
  | .nextMember frames read, _ => abandon (.object ((none, .broken) :: read).reverse) frames
  | .nothing value, _ => .settled ⟨value, false⟩
  | .settled document, _ => .settled document

/-- The text ends, or stops being one of tokens. -/
def finish (atEnd : Bool) : Expecting → Document
  | .anyValue frames => ⟨close .broken frames, true⟩
  | .firstItem frames => ⟨close (.array [.broken]) frames, true⟩
  | .nextItem frames read => ⟨close (.array (.broken :: read).reverse) frames, true⟩
  | .firstName frames => ⟨close (.object [(none, .broken)]) frames, true⟩
  | .anyName frames read => ⟨close (.object ((none, .broken) :: read).reverse) frames, true⟩
  | .colon frames read name => ⟨close (.object ((name, .broken) :: read).reverse) frames, true⟩
  | .nextMember frames read => ⟨close (.object ((none, .broken) :: read).reverse) frames, true⟩
  | .nothing value => ⟨value, atEnd⟩
  | .settled document => document

end Expecting

/-! ## Reading token by token -/

/-- Reads the tokens of a text, the spaces between them skipped. -/
def readTokens (expecting : Expecting) (text : List Char) : Document :=
  match _spaces : text.dropWhile isSpace with
  | [] => expecting.finish true
  | c :: rest =>
    match _token : readToken (c :: rest) with
    | none => expecting.finish false
    | some (token, rest') => readTokens (expecting.step token) rest'
termination_by text.length
decreasing_by
  have := length_lt_of_readToken _token
  have := congrArg List.length _spaces
  have := (List.dropWhile_suffix (p := isSpace) (l := text)).length_le
  omega

/-- The draft of a text. -/
def Document.ofText (text : List Char) : Document :=
  readTokens (.anyValue []) text

end Collocation.Json

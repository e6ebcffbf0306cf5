import Collocation.Json.Record

/-!
# Records that are written with all their fields

An object that has the fields of a record, all of them and in their order, is read field by field;
the first fault of a field is that of the record.
-/

set_option autoImplicit false

namespace Collocation.Json

variable {α β γ : Type} {setting inside : Setting} (hEnter : setting.enter = .ok inside)
include hEnter

/-- A record of one field is read as the field. -/
theorem readRecord_single (f : α → β) (name : String) (read : Reader α) (draft : Draft) :
    readRecord [name] (fun record => (record.required name read).map f) setting
      (.object [(some name, draft)]) = (read inside draft).map f := by
  have hFields : Record.memberFaults [name] [] 0 [(some name, draft)] = .found () := by
    simp [Record.memberFaults]
  have hFind : (Record.mk inside [name] (.members [(some name, draft)])).find? name =
      some (0, draft) := by
    simp [Record.find?]
  simp only [readRecord, hEnter, bind, Except.bind, hFields, Record.required, hFind]
  cases read inside draft <;> rfl

/-- A record of two fields is read as the first and then the second. -/
theorem readRecord_pair (f : α → β → γ) {first second : String} (hNames : first ≠ second)
    (readFirst : Reader α) (readSecond : Reader β) (a b : Draft) :
    readRecord [first, second]
        (fun record => f <$> record.required first readFirst <*> record.required second readSecond)
        setting (.object [(some first, a), (some second, b)]) = do
      let x ← readFirst inside a
      let y ← readSecond inside b
      return f x y := by
  have hFields : Record.memberFaults [first, second] [] 0 [(some first, a), (some second, b)] =
      .found () := by
    simp [Record.memberFaults, Ne.symm hNames]
  have hFirst : (Record.mk inside [first, second]
      (.members [(some first, a), (some second, b)])).find? first = some (0, a) := by
    simp [Record.find?, List.findIdx_cons]
  have hSecond : (Record.mk inside [first, second]
      (.members [(some first, a), (some second, b)])).find? second = some (1, b) := by
    simp [Record.find?, List.findIdx_cons, beq_false_of_ne hNames]
  simp only [readRecord, hEnter, bind, Except.bind, hFields, Record.required, hFirst, hSecond]
  cases readFirst inside a <;> cases readSecond inside b <;> rfl

end Collocation.Json

import WorldPlugins.Attr.Basic

/-! # The fields of a list attribute

Stored lists may hold several fields of one name.  `find` takes the first of them, `fieldMap` the last; both
readings occur.  `withField` writes a field by name and collapses such duplicates: the first keeps the place,
the last the content.
-/

namespace WorldPlugins.Attr

/-- Sets a field by name: in the place of the first field of that name, or at the end. -/
def upsert : List Attr → Attr → List Attr
  | [], field => [field]
  | a :: rest, field => if a.name = field.name then field :: rest else a :: upsert rest field

@[simp] theorem find?_upsert_self (fields : List Attr) (field : Attr) :
    (upsert fields field).find? (fun f => f.name == field.name) = some field := by
  induction fields with
  | nil => simp [upsert]
  | cons a rest ih =>
    unfold upsert
    split
    · simp
    · next h => simp [h, ih]

theorem find?_upsert_of_ne (fields : List Attr) {field : Attr} {name : String} (h : name ≠ field.name) :
    (upsert fields field).find? (fun f => f.name == name) = fields.find? fun f => f.name == name := by
  have h' : (field.name == name) = false := by simpa using Ne.symm h
  induction fields with
  | nil => simp [upsert, h']
  | cons a rest ih =>
    unfold upsert
    split
    · next ha => simp [h', ha]
    · simp [List.find?_cons, ih]

/-- The fields with one entry for each name: in its first place, with its last content. -/
def collapse (fields : List Attr) : List Attr := fields.foldl upsert []

def find (a : Attr) (field : String) : Except AttrError Attr := do
  match (← a.listValue).find? fun f => f.name == field with
  | some f => pure f
  | none => .error (.fieldNotFound field)

/-- The last field of each name. -/
def byName (fields : List Attr) : Keyed Attr := Keyed.ofList (fields.map fun f => (f.name, f))

def fieldMap (a : Attr) : Except AttrError (Keyed Attr) := do
  pure (byName (← a.listValue))

/-- A list attribute of the fields in a map, in the order of their own names. -/
def ofFieldMap (name : String) (fields : Keyed Attr) : Attr :=
  list name ((fields.map Prod.snd).mergeSort fun a b => a.name ≤ b.name)

/-- The list attribute with one field set by name. -/
def withField (a field : Attr) : Except AttrError Attr := do
  pure (list a.name (upsert (collapse (← a.listValue)) field))

end WorldPlugins.Attr

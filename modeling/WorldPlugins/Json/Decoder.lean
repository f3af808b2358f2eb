import WorldPlugins.Json.Reader

/-! # Decoders of one shape

A `Decoder` reads values of one shape in two ways: straight from text, where the first thing wrong from left to
right is reported, and from a free-form value.  Records are read from an object, with their fields by name and
in any order, or from an array, with their fields by place.
-/

namespace WorldPlugins.Json

open Lexeme Reader
open Text (Raw)

/-- Reads values of one shape. -/
structure Decoder (α : Type) where
  /-- Reads from text that may nest `levels` deeper; `fuel` is at least the length of the text. -/
  read : (fuel levels : Nat) → Raw → Read (α × Raw)
  /-- Reads from a free-form value. -/
  ofJson : Json → Except Mismatch α

namespace Decoder

variable {α β σ : Type}

def ofRaw (d : Decoder α) (s : Raw) : Read α := do
  let (a, rest) ← d.read (s.length + 1) deepest s
  finish rest
  pure a

/-- Reads a whole text that is well formed as text. -/
def ofString (d : Decoder α) (s : String) : Read α := d.ofRaw (Raw.ofString s)

/-- What stands at the head of the text; of arrays and objects only the bracket is looked at. -/
def foundAt (s : Raw) : Read Found :=
  match skipSpace s with
  | [] => fail .endInValue
  | none :: _ => fail .expectedValue
  | some c :: rest =>
    if c = 'n' then do let _ ← word ['u', 'l', 'l'] rest; pure .null
    else if c = 't' then do let _ ← word ['r', 'u', 'e'] rest; pure (.bool true)
    else if c = 'f' then do let _ ← word ['a', 'l', 's', 'e'] rest; pure (.bool false)
    else if c = '"' then do let (s, _) ← literal rest; pure (.string s)
    else if c = '-' || c.isDigit then do let (n, _) ← numeral (some c :: rest); pure (.number n)
    else if c = '[' then .ok .sequence
    else if c = '{' then .ok .map
    else fail .expectedValue

/-- Reading fails because the text holds something else than `expected`. -/
def misfit (expected : String) (s : Raw) : Read β := do
  .error (.mismatch (.invalidType (← foundAt s) expected))

/-- The mismatch of a value that is something else than `expected`. -/
def unfit (expected : String) (value : Json) : Except Mismatch β :=
  .error (.invalidType (found value) expected)

def any : Decoder Json where
  read fuel levels s := value fuel levels s
  ofJson value := .ok value

def string : Decoder String where
  read _ _ s :=
    match skipSpace s with
    | some '"' :: rest => literal rest
    | s => misfit "a string" s
  ofJson
    | .string s => .ok s
    | value => unfit "a string" value

def bool : Decoder Bool where
  read _ _ s :=
    match skipSpace s with
    | some 't' :: rest => do pure (true, ← word ['r', 'u', 'e'] rest)
    | some 'f' :: rest => do pure (false, ← word ['a', 'l', 's', 'e'] rest)
    | s => misfit "a boolean" s
  ofJson
    | .bool b => .ok b
    | value => unfit "a boolean" value

/-- The integer that a number is, if it fits 64 bits with a sign. -/
def int64OfNumber : Number → Except Mismatch Int
  | .int i => if Text.IsInt64 i then .ok i else .error (.invalidValue (.number (.int i)) "i64")
  | .float bits => .error (.invalidType (.number (.float bits)) "i64")

/-- An integer that fits 64 bits with a sign. -/
def int64 : Decoder Int where
  read _ _ s :=
    match skipSpace s with
    | [] => fail .endInValue
    | g :: rest =>
      if g = some '-' ∨ (digit? g).isSome then do
        let (n, rest) ← numeral (g :: rest)
        match int64OfNumber n with
        | .ok i => pure (i, rest)
        | .error m => .error (.mismatch m)
      else misfit "i64" (g :: rest)
  ofJson
    | .number n => int64OfNumber n
    | value => unfit "i64" value

/-- Nothing but `null`. -/
def unit : Decoder Unit where
  read _ _ s :=
    match skipSpace s with
    | some 'n' :: rest => do pure ((), ← word ['u', 'l', 'l'] rest)
    | s => misfit "unit" s
  ofJson
    | .null => .ok ()
    | value => unfit "unit" value

/-- A value that may be `null`. -/
def optional (d : Decoder α) : Decoder (Option α) where
  read fuel levels s :=
    match skipSpace s with
    | some 'n' :: rest => do pure (none, ← word ['u', 'l', 'l'] rest)
    | s => do
      let (a, rest) ← d.read fuel levels s
      pure (some a, rest)
  ofJson
    | .null => .ok none
    | value => do pure (some (← d.ofJson value))

/-- What a decoder reads, changed by a function. -/
def map (f : α → β) (d : Decoder α) : Decoder β where
  read fuel levels s := do
    let (a, rest) ← d.read fuel levels s
    pure (f a, rest)
  ofJson value := do pure (f (← d.ofJson value))

/-- A free-form value that is then looked at as a whole. -/
def refine (f : Json → Except Mismatch β) : Decoder β where
  read fuel levels s := do
    let (a, rest) ← value fuel levels s
    match f a with
    | .ok b => pure (b, rest)
    | .error m => .error (.mismatch m)
  ofJson := f

/-- An array. -/
def list (d : Decoder α) : Decoder (List α) where
  read fuel levels s :=
    match skipSpace s with
    | some '[' :: rest =>
      nested levels fun levels => arrayOf (fun s => d.read fuel levels s) fuel rest
    | s => misfit "a sequence" s
  ofJson
    | .array items => items.mapM d.ofJson
    | value => unfit "a sequence" value

/-- An object, as its members in the order of their keys. -/
def members : Decoder Members where
  read fuel levels s :=
    match skipSpace s with
    | some '{' :: rest =>
      nested levels fun levels => do
        let (entries, rest) ← objectOf (fun s => value fuel levels s) fuel rest
        pure (Keyed.ofList entries, rest)
    | s => misfit "a map" s
  ofJson
    | .object members => .ok members
    | value => unfit "a map" value

/-- One of a closed list of names; it may also be the only key of an object, over `null`. -/
def oneOf (known : List String) (ofName? : String → Option α) : Decoder α where
  read fuel levels s :=
    let variant (name : String) : Read α :=
      match ofName? name with
      | some a => .ok a
      | none => .error (.mismatch (.unknownVariant name known))
    match skipSpace s with
    | [] => fail .endInValue
    | some '"' :: rest => do
      let (name, rest) ← literal rest
      pure (← variant name, rest)
    | some '{' :: rest =>
      nested levels fun levels => do
        match ← key? true rest with
        | none => fail .expectedValue
        | some rest =>
          let (name, rest) ← literal rest
          let a ← variant name
          let ((), rest) ← unit.read fuel levels (← colon rest)
          match skipSpace rest with
          | [] => fail .endInObject
          | some '}' :: rest => pure (a, rest)
          | _ => fail .expectedValue
    | _ => fail .expectedValue
  ofJson
    | .string name =>
      match ofName? name with
      | some a => .ok a
      | none => .error (.unknownVariant name known)
    | .object [(name, value)] =>
      match ofName? name with
      | some a => do
        let () ← unit.ofJson value
        pure a
      | none => .error (.unknownVariant name known)
    | .object _ => .error (.invalidValue .map "map with a single key")
    | value => unfit "string or map" value

end Decoder

/-- One field of a record `σ`: how it is read, as the change that it makes to the record. -/
structure Field (σ : Type) where
  key : String
  /-- Whether the field has to be there. -/
  required : Bool
  read : (fuel levels : Nat) → Raw → Read ((σ → σ) × Raw)
  ofJson : Json → Except Mismatch (σ → σ)

namespace Field

variable {α σ : Type}

/-- A field that is read by `d` and set by `set`. -/
def make (required : Bool) (key : String) (d : Decoder α) (set : α → σ → σ) : Field σ where
  key := key
  required := required
  read := (d.map set).read
  ofJson := (d.map set).ofJson

def needed (key : String) (d : Decoder α) (set : α → σ → σ) : Field σ := make true key d set

def spare (key : String) (d : Decoder α) (set : α → σ → σ) : Field σ := make false key d set

/-- The first required field of which no key was seen. -/
def missing? (fields : List (Field σ)) (seen : List String) : Option String :=
  (fields.find? fun field => field.required && !seen.contains field.key).map Field.key

/-- The members of a record from an object, up to its closing brace, with the keys seen. -/
def readMembers (fields : List (Field σ)) (fuel levels : Nat) :
    (steps : Nat) → (first : Bool) → (seen : List String) → σ → Raw → Read ((List String × σ) × Raw)
  | 0, _, _, _, _ => fail .endInObject
  | steps + 1, first, seen, record, s => do
    match ← key? first s with
    | none => pure ((seen, record), s)
    | some s =>
      let (key, s) ← literal s
      match fields.find? fun field => field.key == key with
      | none =>
        let s ← skipValue fuel [] (← colon s)
        readMembers fields fuel levels steps false seen record s
      | some field =>
        if seen.contains key then .error (.mismatch (.duplicateField key))
        else
          let (set, s) ← field.read fuel levels (← colon s)
          readMembers fields fuel levels steps false (key :: seen) (set record) s

/-- The items of a record from an array, by place. -/
def readItems (shape : String) (fuel levels : Nat) :
    List (Field σ) → (index : Nat) → (first : Bool) → σ → Raw → Read (σ × Raw)
  | [], _, _, record, s => .ok (record, s)
  | field :: fields, index, first, record, s => do
    match ← item? first s with
    | none =>
      if field.required then .error (.mismatch (.invalidLength index shape))
      else readItems shape fuel levels fields (index + 1) first record s
    | some s =>
      let (set, s) ← field.read fuel levels s
      readItems shape fuel levels fields (index + 1) false (set record) s

/-- The members of a record from a free-form object, with the keys seen. -/
def ofMembers (fields : List (Field σ)) :
    Members → (seen : List String) → σ → Except Mismatch (List String × σ)
  | [], seen, record => .ok (seen, record)
  | (key, value) :: rest, seen, record =>
    match fields.find? fun field => field.key == key with
    | none => ofMembers fields rest seen record
    | some field => do
      let set ← field.ofJson value
      ofMembers fields rest (key :: seen) (set record)

/-- The items of a record from a free-form array, by place. -/
def ofItems (shape : String) (length : Nat) :
    List (Field σ) → (index : Nat) → List Json → σ → Except Mismatch σ
  | [], _, [], record => .ok record
  | [], _, _ :: _, _ => .error (.invalidLength length "fewer elements in array")
  | field :: fields, index, [], record =>
    if field.required then .error (.invalidLength index shape)
    else ofItems shape length fields (index + 1) [] record
  | field :: fields, index, value :: values, record => do
    let set ← field.ofJson value
    ofItems shape length fields (index + 1) values (set record)

end Field

namespace Decoder

variable {σ : Type}

def readArray (shape : String) (fields : List (Field σ)) (blank : σ) (fuel levels : Nat) (s : Raw) :
    Read (σ × Raw) := do
  let (record, s) ← Field.readItems shape fuel levels fields 0 true blank s
  pure (record, ← closeArray s)

def readObject (fields : List (Field σ)) (blank : σ) (fuel levels : Nat) (s : Raw) :
    Read (σ × Raw) := do
  let ((seen, record), s) ← Field.readMembers fields fuel levels fuel true [] blank s
  match Field.missing? fields seen with
  | some key => .error (.mismatch (.missingField key))
  | none => pure (record, ← closeObject s)

/-- What a record of `n` fields is called when it is too short. -/
def shapeName (type : String) (n : Nat) : String :=
  type ++ " with " ++ Text.showNatural n ++ " elements"

/-- A record: an object with these fields, or an array of them. -/
def record (type : String) (fields : List (Field σ)) (blank : σ) : Decoder σ where
  read fuel levels s :=
    match skipSpace s with
    | some '[' :: rest =>
      nested levels fun levels =>
        readArray (shapeName type fields.length) fields blank fuel levels rest
    | some '{' :: rest => nested levels fun levels => readObject fields blank fuel levels rest
    | s => misfit type s
  ofJson
    | .array values =>
      Field.ofItems (shapeName type fields.length) values.length fields 0 values blank
    | .object members => do
      let (seen, record) ← Field.ofMembers fields members [] blank
      match Field.missing? fields seen with
      | some key => .error (.missingField key)
      | none => .ok record
    | value => unfit type value

/-- A record without field names: an array of its fields. -/
def tuple (type : String) (fields : List (Field σ)) (blank : σ) : Decoder σ where
  read fuel levels s :=
    match skipSpace s with
    | some '[' :: rest =>
      nested levels fun levels =>
        readArray (shapeName type fields.length) fields blank fuel levels rest
    | s => misfit type s
  ofJson
    | .array values =>
      Field.ofItems (shapeName type fields.length) values.length fields 0 values blank
    | value => unfit type value

end Decoder

end WorldPlugins.Json

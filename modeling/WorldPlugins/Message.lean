import WorldPlugins.Json.Decoder

/-! # Structured messages

What a player can be sent besides plain text: a record of keys with values, or a table of rows under columns.
-/

namespace WorldPlugins

open Json (Decoder Field)

/-- A listing of keys with their values. -/
structure Record where
  keys : List String
  values : List String
  deriving DecidableEq, Repr, Inhabited

namespace Record

def ofPairs (pairs : List (String × String)) : Record := ⟨pairs.map Prod.fst, pairs.map Prod.snd⟩

def toJson (r : Record) : Json :=
  .object [("keys", .strings r.keys), ("values", .strings r.values)]

def decoder : Decoder Record :=
  Decoder.record "struct Record"
    [Field.needed "keys" (Decoder.list Decoder.string) fun keys r => { r with keys },
     Field.needed "values" (Decoder.list Decoder.string) fun values r => { r with values }]
    ⟨[], []⟩

end Record

/-- A column of a table: its header, and how its cells are formatted. -/
structure Column where
  header : String
  format : String
  deriving DecidableEq, Repr, Inhabited

namespace Column

def toJson (c : Column) : Json := .strings [c.header, c.format]

def decoder : Decoder Column :=
  Decoder.tuple "tuple struct Column"
    [Field.needed "0" Decoder.string fun header c => { c with header },
     Field.needed "1" Decoder.string fun format c => { c with format }]
    ⟨"", ""⟩

end Column

/-- Rows of cells under columns. -/
structure Table where
  columns : List Column
  rows : List (List String)
  deriving DecidableEq, Repr, Inhabited

namespace Table

def toJson (t : Table) : Json :=
  .object [("columns", .array (t.columns.map Column.toJson)), ("rows", .array (t.rows.map .strings))]

def decoder : Decoder Table :=
  Decoder.record "struct Table"
    [Field.needed "columns" (Decoder.list Column.decoder) fun columns t => { t with columns },
     Field.needed "rows" (Decoder.list (Decoder.list Decoder.string)) fun rows t => { t with rows }]
    ⟨[], []⟩

end Table

end WorldPlugins

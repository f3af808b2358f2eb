/-! # Lists of names in one text

Several names are stored in one text with commas between them.  No names at all are the empty text, which
therefore stands for the empty list and not for one empty name.
-/

namespace WorldPlugins.NameList

/-- The pieces of a text between the occurrences of a separator. -/
def pieces (separator : Char) : List Char → List (List Char)
  | [] => [[]]
  | c :: cs =>
    if c = separator then [] :: pieces separator cs
    else
      match pieces separator cs with
      | [] => [[c]]
      | piece :: rest => (c :: piece) :: rest

theorem pieces_ne_nil (separator : Char) (cs : List Char) : pieces separator cs ≠ [] := by
  induction cs with
  | nil => simp [pieces]
  | cons c cs ih =>
    unfold pieces
    split
    · simp
    · split <;> simp

/-- There is one piece more than there are separators. -/
theorem length_pieces (separator : Char) (cs : List Char) :
    (pieces separator cs).length = cs.count separator + 1 := by
  induction cs with
  | nil => rfl
  | cons c cs ih =>
    unfold pieces
    split
    · next h => simp [h, ih]
    · next h =>
      have hne := pieces_ne_nil separator cs
      rw [List.count_cons_of_ne h, ← ih]
      split <;> simp_all

def split (text : String) : List String :=
  if text = "" then [] else (pieces ',' text.toList).map String.ofList

/-- The pieces with a separator between each two. -/
def joinWith (separator : Char) (names : List String) : String :=
  String.ofList ([separator].intercalate (names.map String.toList))

def join (names : List String) : String := joinWith ',' names

/-- Whether a name can be stored in such a list: it is not empty and has no comma. -/
def isStorable (name : String) : Bool := name ≠ "" && !name.toList.contains ','

end WorldPlugins.NameList

/-! # Text that may not be text

Input arrives as bytes.  `decode` reads them as UTF-8 and keeps every byte that belongs to no character as
`none`, so a reader can go on and complain only where such a byte matters.
-/

namespace WorldPlugins.Text

/-- Text as it arrives: characters, with `none` for a byte that belongs to no character. -/
abbrev Raw := List (Option Char)

/-- Text that is known to be well formed. -/
def Raw.ofChars (cs : List Char) : Raw := cs.map some

def Raw.ofString (s : String) : Raw := Raw.ofChars s.toList

/-- The payload of a continuation byte. -/
def continuation? (b : UInt8) : Option Nat :=
  if 0x80 ≤ b.toNat ∧ b.toNat < 0xC0 then some (b.toNat - 0x80) else none

/-- The character with this code, if it has one and needs no fewer bytes than it was given. -/
def scalar? (least code : Nat) : Option Char :=
  if h : least ≤ code ∧ code.isValidChar then some (Char.ofNatAux code h.2) else none

/-- The character that starts with byte `b`, and how many of the following bytes it takes. -/
def leading? (b : UInt8) (rest : List UInt8) : Option (Char × Nat) :=
  let n := b.toNat
  if n < 0x80 then (scalar? 0 n).map (·, 0)
  else if n < 0xE0 then
    match rest.take 1 |>.mapM continuation? with
    | some [x] => (scalar? 0x80 ((n - 0xC0) * 64 + x)).map (·, 1)
    | _ => none
  else if n < 0xF0 then
    match rest.take 2 |>.mapM continuation? with
    | some [x, y] => (scalar? 0x800 (((n - 0xE0) * 64 + x) * 64 + y)).map (·, 2)
    | _ => none
  else if n < 0xF8 then
    match rest.take 3 |>.mapM continuation? with
    | some [x, y, z] => (scalar? 0x10000 ((((n - 0xF0) * 64 + x) * 64 + y) * 64 + z)).map (·, 3)
    | _ => none
  else none

/-- Decodes the bytes that follow `skip` bytes already taken. -/
def decodeFrom : (skip : Nat) → List UInt8 → Raw
  | _, [] => []
  | k + 1, _ :: bs => decodeFrom k bs
  | 0, b :: bs =>
    match leading? b bs with
    | some (c, extra) => some c :: decodeFrom extra bs
    | none => none :: decodeFrom 0 bs

def decode (bytes : List UInt8) : Raw := decodeFrom 0 bytes

/-- The text, if every byte of it belonged to a character. -/
def Raw.toString? (raw : Raw) : Option String := (raw.mapM id).map String.ofList

/-- Number of bytes that a piece of the input took. -/
def Raw.width (raw : Raw) : Nat := raw.foldr (fun g n => (g.map Char.utf8Size).getD 1 + n) 0

end WorldPlugins.Text

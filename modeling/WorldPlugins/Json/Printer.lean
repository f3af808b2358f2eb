import WorldPlugins.Decimal.Shortest
import WorldPlugins.Json.Basic
import WorldPlugins.Text.Integer

/-! # The compact written form

A value is written without any space.  In strings only quotes, backslashes and the controls below `U+0020` are
escaped.  Members are written in the order in which they are listed.
-/

namespace WorldPlugins.Json

def hexDigit (n : Nat) : Char := Nat.digitChar n

/-- One character of a written string. -/
def escapeChar (c : Char) : List Char :=
  if c = '"' then ['\\', '"']
  else if c = '\\' then ['\\', '\\']
  else if c = '\n' then ['\\', 'n']
  else if c = '\r' then ['\\', 'r']
  else if c = '\t' then ['\\', 't']
  else if c.toNat = 8 then ['\\', 'b']
  else if c.toNat = 12 then ['\\', 'f']
  else if c.toNat < 32 then ['\\', 'u', '0', '0', hexDigit (c.toNat / 16), hexDigit (c.toNat % 16)]
  else [c]

def quote (s : String) : List Char := '"' :: (s.toList.flatMap escapeChar ++ ['"'])

def numberChars : Number → List Char
  | .int i => Text.integer i
  | .float bits => Decimal.ofBits bits

mutual

def chars : Json → List Char
  | .null => ['n', 'u', 'l', 'l']
  | .bool true => ['t', 'r', 'u', 'e']
  | .bool false => ['f', 'a', 'l', 's', 'e']
  | .number n => numberChars n
  | .string s => quote s
  | .array items => '[' :: itemChars items
  | .object members => '{' :: memberChars members

/-- The items of an array, with commas between them, and its closing bracket. -/
def itemChars : List Json → List Char
  | [] => [']']
  | item :: items => chars item ++ moreItemChars items

/-- The items that follow another, each after a comma, and the closing bracket. -/
def moreItemChars : List Json → List Char
  | [] => [']']
  | item :: items => ',' :: (chars item ++ moreItemChars items)

/-- The members of an object, with commas between them, and its closing brace. -/
def memberChars : List (String × Json) → List Char
  | [] => ['}']
  | (key, value) :: members => quote key ++ ':' :: (chars value ++ moreMemberChars members)

/-- The members that follow another, each after a comma, and the closing brace. -/
def moreMemberChars : List (String × Json) → List Char
  | [] => ['}']
  | (key, value) :: members => ',' :: (quote key ++ ':' :: (chars value ++ moreMemberChars members))

end

def print (value : Json) : String := String.ofList value.chars

end WorldPlugins.Json

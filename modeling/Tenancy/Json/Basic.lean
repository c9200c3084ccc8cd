import Tenancy.Text.Digits

/-!
# JSON values

Values and their compact text: no blanks, members in the order they are held, and only those
characters escaped that have to be. A number with a fraction or an exponent, or one that is too long
for 64 bits, is held as the characters that wrote it. What it comes to as a floating-point number, and
how that would be written, is not said here.
-/

namespace Tenancy

/-- `real` keeps a number that is no 64-bit integer as the characters that wrote it, so it is written as
it was read. -/
inductive Json where
  | null
  | bool (b : Bool)
  | int (n : Int)
  | real (literal : List Char)
  | text (s : String)
  | list (items : List Json)
  | object (members : List (String × Json))
  deriving Repr, Inhabited, BEq

namespace Json

/-- A character inside a quoted text. -/
def escape (c : Char) : List Char :=
  if c = '"' then ['\\', '"']
  else if c = '\\' then ['\\', '\\']
  else if c = '\n' then ['\\', 'n']
  else if c = '\r' then ['\\', 'r']
  else if c = '\t' then ['\\', 't']
  else if c.toNat = 8 then ['\\', 'b']
  else if c.toNat = 12 then ['\\', 'f']
  else if c.toNat < 32 then '\\' :: 'u' :: Text.hexPadded 4 c.toNat
  else [c]

def quote (s : String) : List Char := '"' :: s.toList.flatMap escape ++ ['"']

mutual

def chars : Json → List Char
  | .null => ['n', 'u', 'l', 'l']
  | .bool true => ['t', 'r', 'u', 'e']
  | .bool false => ['f', 'a', 'l', 's', 'e']
  | .int n => Text.signed n
  | .real literal => literal
  | .text s => quote s
  | .list items => '[' :: itemChars items ++ [']']
  | .object members => '{' :: memberChars members ++ ['}']

def itemChars : List Json → List Char
  | [] => []
  | j :: rest => chars j ++ (match rest with | [] => [] | _ :: _ => ',' :: itemChars rest)

def memberChars : List (String × Json) → List Char
  | [] => []
  | m :: rest => pairChars m ++ (match rest with | [] => [] | _ :: _ => ',' :: memberChars rest)

def pairChars : String × Json → List Char
  | (name, j) => quote name ++ ':' :: chars j

end

/-- The compact text. -/
def compact (j : Json) : String := String.ofList j.chars

/-- Puts a member among members that are sorted by name, over an earlier one of that name. -/
def putMember (name : String) (j : Json) : List (String × Json) → List (String × Json)
  | [] => [(name, j)]
  | (n, k) :: rest =>
    if name = n then (name, j) :: rest
    else if name < n then (name, j) :: (n, k) :: rest
    else (n, k) :: putMember name j rest

/-- An object with its members sorted by name; of equal names the last one stays. -/
def sorted (members : List (String × Json)) : Json :=
  .object (members.foldl (fun acc m => putMember m.1 m.2 acc) [])

/-- The member of an object under `name`. -/
def member? (name : String) : Json → Option Json
  | .object members => (members.find? (·.1 = name)).map (·.2)
  | _ => none

end Json

end Tenancy

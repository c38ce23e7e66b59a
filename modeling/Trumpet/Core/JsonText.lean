import Trumpet.Core.Json
import Trumpet.Lib.Digits

/-! The texts of JSON values without doubles: on one line, and spread over lines. -/

namespace Trumpet

namespace Json

def escape (c : Char) : List Char :=
  match c.toNat with
  | 8 => ['\x5c', 'b']
  | 9 => ['\x5c', 't']
  | 10 => ['\x5c', 'n']
  | 12 => ['\x5c', 'f']
  | 13 => ['\x5c', 'r']
  | 34 => ['\x5c', '\x22']
  | 92 => ['\x5c', '\x5c']
  | n => if n < 32 then '\x5c' :: 'u' :: Digits.fixed 16 4 n else [c]

def quote (s : String) : List Char := '\x22' :: s.toList.flatMap escape ++ ['\x22']

/-- Doubles have no text here. -/
def numberText : JsonNumber → List Char
  | .posInt n => Nat.toDigits 10 n.toNat
  | .negInt n _ => '-' :: Nat.toDigits 10 n.toInt.natAbs
  | .float _ _ => []

/-- Parts between separators. -/
def separated (separator : List Char) : List (List Char) → List Char
  | [] => []
  | [part] => part
  | part :: parts => part ++ separator ++ separated separator parts

mutual

def compactText : Json → List Char
  | null => "null".toList
  | bool b => (if b then "true" else "false").toList
  | number n => numberText n
  | string s => quote s
  | array items => '[' :: separated [','] (compactItems items) ++ [']']
  | object fields => '\x7b' :: separated [','] (compactMembers fields) ++ ['\x7d']

def compactItems : List Json → List (List Char)
  | [] => []
  | j :: rest => compactText j :: compactItems rest

def compactMembers : List (String × Json) → List (List Char)
  | [] => []
  | (name, j) :: rest => (quote name ++ ':' :: compactText j) :: compactMembers rest

end

/-- `serde_json::to_string` -/
def compact (j : Json) : String := String.ofList (compactText j)

def newLine (depth : Nat) : List Char := '\n' :: List.replicate (2 * depth) ' '

/-- The parts of an array or an object, each on a line. -/
def block (depth : Nat) (first last : Char) : List (List Char) → List Char
  | [] => [first, last]
  | parts => first :: newLine (depth + 1) ++
      separated (',' :: newLine (depth + 1)) parts ++ newLine depth ++ [last]

mutual

def prettyText (depth : Nat) : Json → List Char
  | null => "null".toList
  | bool b => (if b then "true" else "false").toList
  | number n => numberText n
  | string s => quote s
  | array items => block depth '[' ']' (prettyItems (depth + 1) items)
  | object fields => block depth '\x7b' '\x7d' (prettyMembers (depth + 1) fields)

def prettyItems (depth : Nat) : List Json → List (List Char)
  | [] => []
  | j :: rest => prettyText depth j :: prettyItems depth rest

def prettyMembers (depth : Nat) : List (String × Json) → List (List Char)
  | [] => []
  | (name, j) :: rest =>
    (quote name ++ ':' :: ' ' :: prettyText depth j) :: prettyMembers depth rest

end

/-- `serde_json::to_string_pretty` -/
def pretty (j : Json) : String := String.ofList (prettyText 0 j)

example : compact (.object [("a", .array [.null, .string "x\ny"])]) =
    "\x7b\"a\":[null,\"x\\ny\"]\x7d" := by decide +kernel

end Json

end Trumpet

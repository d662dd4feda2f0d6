import DeviceTelemetry.Json.Shape

/-!
# Printing JSON

A document is written without blanks, or on lines of its own with two blanks for each level; empty
lists and objects stay on their line. In texts, quotes, backslashes and control characters are
escaped and all else is written as it is.
-/

set_option autoImplicit false

namespace DeviceTelemetry.Json.Value

def natChars (n : Nat) : List Char := Nat.toDigits 10 n

def intChars (n : Int) : List Char :=
  if n < 0 then '-' :: natChars n.natAbs else natChars n.natAbs

def hexChar (n : Nat) : Char := Char.ofNat (if n < 10 then 48 + n else 87 + n)

def escapeChar (c : Char) : List Char :=
  if c = '"' then ['\\', '"']
  else if c = '\\' then ['\\', '\\']
  else if c = '\x08' then ['\\', 'b']
  else if c = '\x0c' then ['\\', 'f']
  else if c = '\n' then ['\\', 'n']
  else if c = '\r' then ['\\', 'r']
  else if c = '\t' then ['\\', 't']
  else if c.toNat < 0x20 then
    ['\\', 'u', '0', '0', hexChar (c.toNat / 16), hexChar (c.toNat % 16)]
  else [c]

def quote (s : String) : List Char :=
  '"' :: s.toList.flatMap escapeChar ++ ['"']

def boolChars (b : Bool) : List Char := (if b then "true" else "false").toList

def nullChars : List Char := "null".toList

mutual

def compactChars : Value → List Char
  | null => nullChars
  | bool b => boolChars b
  | unsigned n => natChars n.toNat
  | signed n => intChars n.toInt
  | text s => quote s
  | list [] => ['[', ']']
  | list (v :: vs) => '[' :: compactChars v ++ compactList vs
  | object [] => ['{', '}']
  | object ((k, v) :: ms) => '{' :: quote k ++ ':' :: compactChars v ++ compactMembers ms

def compactList : List Value → List Char
  | [] => [']']
  | v :: vs => ',' :: compactChars v ++ compactList vs

def compactMembers : List (String × Value) → List Char
  | [] => ['}']
  | (k, v) :: ms => ',' :: quote k ++ ':' :: compactChars v ++ compactMembers ms

end

def newLine (level : Nat) : List Char := '\n' :: List.replicate (2 * level) ' '

mutual

def prettyChars (level : Nat) : Value → List Char
  | null => nullChars
  | bool b => boolChars b
  | unsigned n => natChars n.toNat
  | signed n => intChars n.toInt
  | text s => quote s
  | list [] => ['[', ']']
  | list (v :: vs) =>
    '[' :: newLine (level + 1) ++ prettyChars (level + 1) v ++ prettyList level vs
  | object [] => ['{', '}']
  | object ((k, v) :: ms) =>
    '{' :: newLine (level + 1) ++ quote k ++ ':' :: ' ' :: prettyChars (level + 1) v
      ++ prettyMembers level ms

def prettyList (level : Nat) : List Value → List Char
  | [] => newLine level ++ [']']
  | v :: vs => ',' :: newLine (level + 1) ++ prettyChars (level + 1) v ++ prettyList level vs

def prettyMembers (level : Nat) : List (String × Value) → List Char
  | [] => newLine level ++ ['}']
  | (k, v) :: ms =>
    ',' :: newLine (level + 1) ++ quote k ++ ':' :: ' ' :: prettyChars (level + 1) v
      ++ prettyMembers level ms

end

def compact (v : Value) : String := String.ofList v.compactChars

def pretty (v : Value) : String := String.ofList (prettyChars 0 v)

end DeviceTelemetry.Json.Value

import Surety.Json.Basic
import Surety.Text.Hex

/-!
# The text of a JSON value

Values are written without blanks.  A quote, a backslash and a control character inside a string are
escaped, by a single character where there is one for it and by the number otherwise; every other
character stands for itself.
-/

namespace Surety.Json

/-- What stands for a character behind a backslash, where a single character does. -/
def shortEscape? (c : Char) : Option Char :=
  if c = '"' then some '"'
  else if c = '\\' then some '\\'
  else if c = Char.ofNat 8 then some 'b'
  else if c = '\t' then some 't'
  else if c = '\n' then some 'n'
  else if c = Char.ofNat 12 then some 'f'
  else if c = '\r' then some 'r'
  else none

/-- A character inside a quoted string. -/
def escapeChar (c : Char) : List Char :=
  match shortEscape? c with
  | some short => ['\\', short]
  | none =>
      if c.toNat < 32 then
        ['\\', 'u', '0', '0', Hex.digitChar (c.toNat / 16), Hex.digitChar (c.toNat % 16)]
      else [c]

/-- A quoted string. -/
def quote (s : String) : String := "\"" ++ String.ofList (s.toList.flatMap escapeChar) ++ "\""

mutual

/-- The text of a value. -/
def render : Json → String
  | .null => "null"
  | .bool true => "true"
  | .bool false => "false"
  | .int n => toString n
  | .real negative x => realText negative x
  | .str s => quote s
  | .arr items => "[" ++ renderItems items ++ "]"
  | .obj fields => "\x7b" ++ renderFields fields ++ "\x7d"

/-- The texts of list items, separated by commas. -/
def renderItems : List Json → String
  | [] => ""
  | [last] => render last
  | item :: rest => render item ++ "," ++ renderItems rest

/-- The texts of object fields, separated by commas. -/
def renderFields : List (String × Json) → String
  | [] => ""
  | [(name, value)] => quote name ++ ":" ++ render value
  | (name, value) :: rest => quote name ++ ":" ++ render value ++ "," ++ renderFields rest

end

end Surety.Json

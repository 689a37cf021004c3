import CodeTabs.Json.Basic

/-!
Writing JSON on one line. Every character that could end a line is written as an escape.
-/

namespace CodeTabs.Json

def hex4 (n : Nat) : Text :=
  let digits := Nat.toDigits 16 n
  List.replicate (4 - digits.length) '0' ++ digits

def renderChar (c : Char) : Text :=
  let n := c.toNat
  if c = '"' then "\\\""
  else if c = '\\' then "\\\\"
  else if n < 0x20 || (0x7F ≤ n && n < 0xA0) || n = 0x2028 || n = 0x2029 then "\\u" ++ hex4 n
  else [c]

def renderString (text : Text) : Text := '"' :: text.flatMap renderChar ++ "\""

mutual

def render : Json → Text
  | .null => "null"
  | .bool true => "true"
  | .bool false => "false"
  | .nat n => Text.decimal n
  | .number literal => literal
  | .string text => renderString text
  | .broken => "\"\\ufffd\""
  | .array items => '[' :: renderItems items ++ "]"
  | .object members => '\x7b' :: renderMembers members ++ "\x7d"

def renderItems : List Json → Text
  | [] => []
  | [item] => render item
  | item :: rest => render item ++ ',' :: renderItems rest

def renderMembers : List (Text × Json) → Text
  | [] => []
  | [(key, value)] => renderString key ++ ':' :: render value
  | (key, value) :: rest => renderString key ++ ':' :: render value ++ ',' :: renderMembers rest

end

end CodeTabs.Json

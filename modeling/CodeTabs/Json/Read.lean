import CodeTabs.Json.Basic

/-!
Reading JSON, strictly: one value with white space around it and nothing else. Numbers have no
leading zeros and no sign but a minus; control characters stand in strings only as escapes.
-/

namespace CodeTabs.Json

def isSpace (c : Char) : Bool := c == ' ' || c == '\t' || c == '\n' || c == '\r'

def skipSpace (text : Text) : Text := text.dropWhile isSpace

def hexDigit? (c : Char) : Option Nat :=
  if c.isDigit then some (c.toNat - '0'.toNat)
  else if 'a' ≤ c && c ≤ 'f' then some (c.toNat - 'a'.toNat + 10)
  else if 'A' ≤ c && c ≤ 'F' then some (c.toNat - 'A'.toNat + 10)
  else none

def hex? (digits : List Char) : Option Nat :=
  digits.foldlM (fun n c => (hexDigit? c).map (16 * n + ·)) 0

inductive StringUnit
  | char (c : Char)
  | code (n : Nat)

def escape? : Char → Option Char
  | '"' => some '"'
  | '\\' => some '\\'
  | '/' => some '/'
  | 'b' => some '\x08'
  | 'f' => some '\x0c'
  | 'n' => some '\n'
  | 'r' => some '\r'
  | 't' => some '\t'
  | _ => none

def stringUnits? : Text → Option (List StringUnit × Text)
  | [] => none
  | '"' :: rest => some ([], rest)
  | '\\' :: 'u' :: a :: b :: c :: d :: rest => do
    let n ← hex? [a, b, c, d]
    let (units, rest) ← stringUnits? rest
    return (.code n :: units, rest)
  | '\\' :: c :: rest => do
    let c ← escape? c
    let (units, rest) ← stringUnits? rest
    return (.char c :: units, rest)
  | c :: rest => do
    if c.toNat < 0x20 then none
    let (units, rest) ← stringUnits? rest
    return (.char c :: units, rest)

def isHighSurrogate (n : Nat) : Bool := 0xD800 ≤ n && n < 0xDC00

def isLowSurrogate (n : Nat) : Bool := 0xDC00 ≤ n && n < 0xE000

def unitsText? : List StringUnit → Option Text
  | [] => some []
  | .char c :: rest => (unitsText? rest).map (c :: ·)
  | .code high :: .code low :: rest =>
    if isHighSurrogate high && isLowSurrogate low then
      (unitsText? rest).map (.ofNat (0x10000 + (high - 0xD800) * 0x400 + (low - 0xDC00)) :: ·)
    else if isHighSurrogate high || isLowSurrogate high then none
    else (unitsText? (.code low :: rest)).map (.ofNat high :: ·)
  | .code n :: rest =>
    if isHighSurrogate n || isLowSurrogate n then none
    else (unitsText? rest).map (.ofNat n :: ·)

def digits1? (text : Text) : Option (Text × Text) :=
  let digits := text.takeWhile Char.isDigit
  if digits.isEmpty then none else some (digits, text.dropWhile Char.isDigit)

def fraction? : Text → Option (Text × Text)
  | '.' :: rest => (digits1? rest).map fun (digits, rest) => ('.' :: digits, rest)
  | rest => some ([], rest)

def exponent? : Text → Option (Text × Text)
  | e :: rest =>
    if e = 'e' || e = 'E' then
      let (sign, rest) := match rest with
        | '+' :: rest => (['+'], rest)
        | '-' :: rest => (['-'], rest)
        | rest => ([], rest)
      (digits1? rest).map fun (digits, rest) => (e :: sign ++ digits, rest)
    else some ([], e :: rest)
  | [] => some ([], [])

def number? (text : Text) : Option (Json × Text) := do
  let (sign, rest) := match text with
    | '-' :: rest => (['-'], rest)
    | rest => ([], rest)
  let (digits, rest) ← digits1? rest
  if digits.head? == some '0' && digits.length != 1 then none
  let (fraction, rest) ← fraction? rest
  let (exponent, rest) ← exponent? rest
  if sign.isEmpty && fraction.isEmpty && exponent.isEmpty then
    return (.nat (digits.foldl (fun n c => 10 * n + (c.toNat - '0'.toNat)) 0), rest)
  return (.number (sign ++ digits ++ fraction ++ exponent), rest)

def word? (text : Text) : Option (Json × Text) :=
  [(("null" : Text), Json.null), ("true", .bool true), ("false", .bool false)].findSome?
    fun (word, value) => (Text.after? word text).map fun rest => (value, rest)

/-- The object of some members, each with its key unless that stands for no text. -/
def ofMembers (members : List (Option Text × Json)) : Json :=
  match members.mapM fun (key, value) => key.map (·, value) with
  | some members => .object members
  | none => .broken

mutual

def value? : (fuel : Nat) → Text → Option (Json × Text)
  | 0, _ => none
  | fuel + 1, text =>
    match skipSpace text with
    | '[' :: rest =>
      match skipSpace rest with
      | ']' :: rest => some (.array [], rest)
      | rest => (items? fuel rest).map fun (items, rest) => (.array items, rest)
    | '\x7b' :: rest =>
      match skipSpace rest with
      | '\x7d' :: rest => some (.object [], rest)
      | rest => (members? fuel rest).map fun (members, rest) => (ofMembers members, rest)
    | '"' :: rest => (stringUnits? rest).map fun (units, rest) =>
      ((unitsText? units).elim .broken .string, rest)
    | c :: rest =>
      if c.isDigit || c == '-' then number? (c :: rest) else word? (c :: rest)
    | [] => none

def items? : (fuel : Nat) → Text → Option (List Json × Text)
  | 0, _ => none
  | fuel + 1, text => do
    let (item, rest) ← value? fuel text
    match skipSpace rest with
    | ',' :: rest =>
      let (items, rest) ← items? fuel rest
      return (item :: items, rest)
    | ']' :: rest => return ([item], rest)
    | _ => none

def members? : (fuel : Nat) → Text → Option (List (Option Text × Json) × Text)
  | 0, _ => none
  | fuel + 1, text => do
    let '"' :: rest := skipSpace text | none
    let (units, rest) ← stringUnits? rest
    let ':' :: rest := skipSpace rest | none
    let (value, rest) ← value? fuel rest
    match skipSpace rest with
    | ',' :: rest =>
      let (members, rest) ← members? fuel rest
      return ((unitsText? units, value) :: members, rest)
    | '\x7d' :: rest => return ([(unitsText? units, value)], rest)
    | _ => none

end

def parse? (text : Text) : Option Json :=
  match value? (2 * text.length + 2) text with
  | some (value, rest) => if (skipSpace rest).isEmpty then some value else none
  | none => none

end CodeTabs.Json

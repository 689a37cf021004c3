import CodeTabs.Text.Basic

/-!
JSON values. Members of an object keep their order, and a key may occur more than once. Numbers
are natural numbers where they are written as one, and their text otherwise. A string that names
half of a surrogate pair is read, and so is an object with such a key, but they are broken: they
stand for no text and no object.
-/

namespace CodeTabs

inductive Json
  | null
  | bool (value : Bool)
  | nat (value : Nat)
  | number (literal : Text)
  | string (text : Text)
  | broken
  | array (items : List Json)
  | object (members : List (Text × Json))
deriving Inhabited

namespace Json

def key? (key : Text) : List (Text × Json) → Option Json
  | [] => none
  | (k, value) :: rest => if k = key then some value else key? key rest

def get? (key : Text) : Json → Option Json
  | .object members => key? key members
  | _ => none

def asText? : Json → Option Text
  | .string text => some text
  | _ => none

def asBool? : Json → Option Bool
  | .bool value => some value
  | _ => none

def asNat? : Json → Option Nat
  | .nat value => if value < UInt64.size then some value else none
  | _ => none

def asArray? : Json → Option (List Json)
  | .array items => some items
  | _ => none

def ofOption {α : Type} (write : α → Json) : Option α → Json
  | none => .null
  | some a => write a

end Json

end CodeTabs

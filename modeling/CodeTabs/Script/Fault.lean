import CodeTabs.Text.Basic

/-!
What can be wrong with the grammar of a script. A flaw is a fault and the byte offset it is
reported at.
-/

namespace CodeTabs.Script

inductive Fault
  | unexpectedToken
  | expected (wanted : List Text) (found : Text)
  | invalidCharacter (c : Char)
  | unterminatedString
  | charactersAfterNumber
  | missingInitializer
  | missingSemicolon
  | duplicateExport (name : Text)
deriving DecidableEq

def inTicks (text : Text) : Text := '`' :: text ++ "`"

def Fault.message : Fault → Text
  | .unexpectedToken => "Unexpected token"
  | .expected wanted found =>
    "Expected " ++ Text.joined " or " (wanted.map inTicks) ++ " but found " ++ inTicks found
  | .invalidCharacter c => "Invalid Character " ++ inTicks [c]
  | .unterminatedString => "Unterminated string"
  | .charactersAfterNumber => "Invalid characters after number"
  | .missingInitializer => "Missing initializer in const declaration"
  | .missingSemicolon =>
    "Expected a semicolon or an implicit semicolon after a statement, but found none"
  | .duplicateExport name => "Duplicated export '" ++ name ++ "'"

structure Flaw where
  fault : Fault
  offset : Nat
deriving DecidableEq

end CodeTabs.Script

import CodeTabs.Script.Fault
import CodeTabs.Script.Name

/-!
Scripts are read as tokens: names, numbers, strings and single characters of punctuation, with
their places in bytes. The tokens end at the end of the text, or at the first thing that is no
token, which stands in the list as a fault.
-/

namespace CodeTabs.Script

inductive TokenKind
  | name (text : Text)
  | number (text : Text)
  | string (contents : Text)
  | mark (c : Char)
  | broken (flaw : Flaw)
  | finish
deriving DecidableEq

structure Token where
  kind : TokenKind
  start : Nat
  stop : Nat
  startsLine : Bool

namespace Token

def reservedWords : List Text :=
  Text.words (
    ("await break case catch class const continue debugger default delete do else " : Text) ++
      "enum export extends false finally for function if import in instanceof new null " ++
      "return super switch this throw true try typeof var void while with")

def contextualWords : List Text :=
  Text.words (
    ("abstract accessor any as asserts assert async bigint boolean constructor " : Text) ++
      "declare defer from get global implements infer interface intrinsic is keyof let " ++
      "meta module namespace never number object of out override package private " ++
      "protected public readonly require satisfies set source static string symbol " ++
      "target type undefined unique unknown using yield")

def description (token : Token) : Text :=
  match token.kind with
  | .name text =>
    if reservedWords.contains text || contextualWords.contains text then text else "Identifier"
  | .number _ => "decimal"
  | .string _ => "string"
  | .mark c => [c]
  | .broken _ => "Unknown"
  | .finish => "EOF"

def endsAll (token : Token) : Bool :=
  match token.kind with
  | .broken _ | .finish => true
  | _ => false

def isLineEnd (c : Char) : Bool :=
  c == '\n' || c == '\r' || c == '\u2028' || c == '\u2029'

def isSpace (c : Char) : Bool := isBlank c || c == '\u200b' || c == '\ufeff'

def read (offset : Nat) (c : Char) (rest : Text) : TokenKind × Text :=
  if isNameStart c then
    let text := c :: rest.takeWhile isNamePart
    (.name text, text)
  else if c.isDigit then
    let digits := c :: rest.takeWhile Char.isDigit
    match (rest.dropWhile Char.isDigit).head?.any isNameStart with
    | true => (.broken ⟨.charactersAfterNumber, offset + Text.byteSize digits⟩, digits)
    | false => (.number digits, digits)
  else if c == '"' || c == '\'' then
    let contents := rest.takeWhile fun d => d != c && d != '\n' && d != '\r'
    match rest.drop contents.length with
    | d :: _ => if d = c then (.string contents, c :: contents ++ [d])
      else (.broken ⟨.unterminatedString, offset⟩, [c])
    | [] => (.broken ⟨.unterminatedString, offset⟩, [c])
  else if 0x80 ≤ c.toNat then (.broken ⟨.invalidCharacter c, offset⟩, [c])
  else (.mark c, [c])

def scanFrom : (fuel offset : Nat) → (startsLine : Bool) → Text → List Token
  | 0, offset, startsLine, _ => [⟨.finish, offset, offset, startsLine⟩]
  | _ + 1, offset, startsLine, [] => [⟨.finish, offset, offset, startsLine⟩]
  | fuel + 1, offset, startsLine, c :: rest =>
    if isSpace c then scanFrom fuel (offset + c.utf8Size) (startsLine || isLineEnd c) rest
    else
      let (kind, taken) := read offset c rest
      let stop := offset + Text.byteSize taken
      let token : Token := ⟨kind, offset, stop, startsLine⟩
      match kind with
      | .broken _ => [token]
      | _ => token :: scanFrom fuel stop false ((c :: rest).drop taken.length)

def scan (text : Text) : List Token := scanFrom text.length 0 true text

end Token

end CodeTabs.Script

import CodeTabs.Script.Statement
import CodeTabs.Script.Token

/-!
From tokens to statements. The grammar of a plain script knows no types; where types are allowed
they are read and left out, and declarations of types alone need no values. The first flaw ends
the reading.
-/

namespace CodeTabs.Script

inductive Dialect
  | plain
  | typed
  | declarations
deriving DecidableEq

def Dialect.isTyped (dialect : Dialect) : Bool := dialect != .plain

namespace Grammar

structure Cursor where
  reached : Nat
  tokens : List Token

abbrev Parse (α : Type) := StateT Cursor (Except Flaw) α

def look : Parse Token := do
  let cursor ← get
  match cursor.tokens with
  | [] => return ⟨.finish, cursor.reached, cursor.reached, true⟩
  | token :: _ => return token

/-- The next token. Something that is no token is found out here; only where `from` and what goes
with it are expected, it is just something else. -/
def peek : Parse Token := do
  let token ← look
  match token.kind with
  | .broken flaw => throw flaw
  | _ => return token

def advance : Parse Unit :=
  modify fun cursor => match cursor.tokens with
    | [] => cursor
    | token :: rest => ⟨token.stop, rest⟩

def fail {α : Type} (fault : Fault) (token : Token) : Parse α := throw ⟨fault, token.start⟩

def isMark (token : Token) (c : Char) : Bool := token.kind == .mark c

def isName (token : Token) (name : Text) : Bool := token.kind == .name name

def eatAt (next : Parse Token) (c : Char) : Parse Bool := do
  if isMark (← next) c then
    advance
    return true
  return false

def eat (c : Char) : Parse Bool := eatAt peek c

def peekSecond : Parse Token := do
  match (← get).tokens with
  | _ :: second :: _ => return second
  | _ => peek

def atWord : Parse Bool := do
  match (← peek).kind with
  | .name _ => return true
  | _ => return false

def eatName (name : Text) : Parse Bool := do
  if isName (← peek) name then
    advance
    return true
  return false

def expectName (name : Text) : Parse Unit := do
  let token ← look
  if isName token name then advance
  else fail (.expected [name] token.description) token

def expectMark (c : Char) : Parse Unit := do
  let token ← peek
  if isMark token c then advance
  else fail (.expected [[c]] token.description) token

def anyName : Parse Binding := do
  let token ← peek
  match token.kind with
  | .name name =>
    advance
    return ⟨name, token.start⟩
  | _ => fail .unexpectedToken token

def binding : Parse Binding := do
  let token ← peek
  match token.kind with
  | .name name =>
    if Token.reservedWords.contains name then fail .unexpectedToken token
    advance
    return ⟨name, token.start⟩
  | _ => fail .unexpectedToken token

def source : Parse Text := do
  let token ← peek
  match token.kind with
  | .string contents =>
    advance
    return contents
  | _ => fail .unexpectedToken token

/-- A statement ends at a semicolon, or where none is needed: at the end of a line, at the end of
the text and before a closing brace. -/
def endStatement : Parse Unit := do
  let token ← peek
  if isMark token ';' then advance
  else if token.startsLine || token.kind == .finish || isMark token '\x7d' then return
  else throw ⟨.missingSemicolon, (← get).reached⟩

def items {α : Type} (next : Parse Token) (item : Parse α) : (fuel : Nat) → Parse (List α)
  | 0 => return []
  | fuel + 1 => do
    if ← eatAt next '\x7d' then return []
    let token ← next
    if token.endsAll then fail (.expected ["\x7d"] token.description) token
    let first ← item
    if ← eatAt next ',' then return first :: (← items next item fuel)
    if ← eatAt next '\x7d' then return [first]
    let token ← next
    let wanted : List Text := if token.endsAll then ["\x7d"] else [",", "\x7d"]
    fail (.expected wanted token.description) token

def list {α : Type} (next : Parse Token) (item : Parse α) : Parse (List α) := do
  expectMark '\x7b'
  items next item ((← get).tokens.length + 1)

def typeWords : List Text := ["false", "null", "this", "true", "void"]

def typeOperators : List Text := ["keyof", "readonly", "unique"]

mutual

/-- A type: alternatives of names, each with arguments and array brackets. A word that makes a
type of another one is no type alone. -/
def typeExpression : (fuel : Nat) → Parse Unit
  | 0 => do fail .unexpectedToken (← peek)
  | fuel + 1 => do
    let token ← peek
    match token.kind with
    | .name name =>
      if Token.reservedWords.contains name && !typeWords.contains name then
        fail .unexpectedToken token
      advance
      if typeOperators.contains name then return ← typeExpression fuel
    | .number _ | .string _ => advance
    | _ => fail .unexpectedToken token
    if ← eat '<' then typeArguments fuel
    arrayBrackets fuel
    if ← eat '|' then typeExpression fuel

def typeArguments : (fuel : Nat) → Parse Unit
  | 0 => do fail .unexpectedToken (← peek)
  | fuel + 1 => do
    typeExpression fuel
    if ← eat ',' then typeArguments fuel
    else expectMark '>'

def arrayBrackets : (fuel : Nat) → Parse Unit
  | 0 => return
  | fuel + 1 => do
    if ← eat '[' then
      expectMark ']'
      arrayBrackets fuel

end

def type : Parse Unit := do
  typeExpression (2 * (← get).tokens.length + 2)

def assertions : (fuel : Nat) → Parse Unit
  | 0 => return
  | fuel + 1 => do
    let token ← peek
    if token.startsLine then return
    if isMark token '!' then
      advance
      assertions fuel
    else if isName token "as" then
      advance
      type
      assertions fuel

def valueEnd (dialect : Dialect) : Parse Unit := do
  if dialect.isTyped then assertions (← get).tokens.length

def constants : List Text := ["true", "false", "null", "this"]

def value (dialect : Dialect) : Parse Value := do
  let token ← peek
  let value ← match token.kind with
    | .number text => pure (Value.number text)
    | .string contents => pure (Value.string contents)
    | .name name =>
      if Token.reservedWords.contains name && !constants.contains name then
        fail .unexpectedToken token
      pure (Value.name name)
    | _ => fail .unexpectedToken token
  advance
  valueEnd dialect
  return value

def declaration (dialect : Dialect) (exported constant : Bool) : Parse Statement := do
  let declared ← binding
  if dialect.isTyped then
    if ← eat ':' then type
  if ← eat '=' then
    let initial ← value dialect
    endStatement
    return .declare exported constant declared (some initial)
  if constant && dialect != .declarations then throw ⟨.missingInitializer, declared.offset⟩
  endStatement
  return .declare exported constant declared none

def interfaceMembers : (fuel : Nat) → Parse Unit
  | 0 => return
  | fuel + 1 => do
    if ← eat '\x7d' then return
    let _ ← anyName
    let _ ← eat '?'
    expectMark ':'
    type
    let token ← peek
    if isMark token ';' || isMark token ',' then
      advance
      interfaceMembers fuel
    else if token.startsLine then interfaceMembers fuel
    else expectMark '\x7d'

def typeDeclaration (exported isAlias : Bool) : Parse Statement := do
  let declared ← binding
  if isAlias then
    expectMark '='
    type
    endStatement
  else
    expectMark '\x7b'
    interfaceMembers ((← get).tokens.length + 1)
  return .type exported (if isAlias then .typeAlias else .interface) declared

def expressionEnd (dialect : Dialect) (offset : Nat) (first : Value) : Parse Statement := do
  valueEnd dialect
  match first with
  | .name name =>
    if ← eat '=' then
      let assigned ← value dialect
      endStatement
      return .assign ⟨name, offset⟩ assigned
    endStatement
    return .evaluate first
  | _ =>
    endStatement
    return .evaluate first

def renamed (name : Binding) : Parse Binding := do
  if ← eatName "as" then anyName else return name

def renamedType (first second : Binding) : Parse Specifier := do
  if !(← atWord) then return ⟨second.name, second, true⟩
  let third ← anyName
  if third.name = "as" && (← atWord) then return ⟨second.name, ← anyName, true⟩
  return ⟨first.name, third, false⟩

def specifier (dialect : Dialect) : Parse Specifier := do
  let first ← anyName
  if dialect.isTyped && first.name = "type" && (← atWord) then
    let second ← anyName
    if second.name = "as" then renamedType first second
    else return ⟨second.name, ← renamed second, true⟩
  else return ⟨first.name, ← renamed first, false⟩

def whole : Parse Binding := do
  expectName "as"
  binding

def importNames (dialect : Dialect) (isType : Bool) (default : Option Binding) :
    Parse ImportClause := do
  let token ← peek
  match token.kind with
  | .mark '*' =>
    advance
    return ⟨isType, default, some (← whole), [], []⟩
  | .mark '\x7b' => return ⟨isType, default, none, ← list look (specifier dialect), []⟩
  | _ => fail .unexpectedToken token

def importClause (dialect : Dialect) (isType : Bool) : Parse ImportClause := do
  let token ← look
  match token.kind with
  | .name _ =>
    let default ← binding
    if ← eatAt look ',' then importNames dialect isType (some default)
    else return ⟨isType, some default, none, [], []⟩
  | .mark '*' | .mark '\x7b' => importNames dialect isType none
  | _ => fail (.expected ["from"] token.description) token

/-- Whether `type` after `import` says that only types are imported, by the two tokens after
it: `from` is a name there if it stands twice. -/
def marksTypes (next second : Token) : Bool :=
  match next.kind with
  | .name name =>
    !Token.reservedWords.contains name && (name != "from".toList || isName second "from")
  | .mark c => c == '*' || c == '\x7b'
  | _ => false

def importTyped (dialect : Dialect) : Parse ImportClause := do
  let word ← look
  if dialect.isTyped && isName word "type" then
    advance
    if marksTypes (← peek) (← peekSecond) then importClause dialect true
    else if ← eat ',' then importNames dialect false (some ⟨"type", word.start⟩)
    else return ⟨false, some ⟨"type", word.start⟩, none, [], []⟩
  else importClause dialect false

def importStatement (dialect : Dialect) : Parse Statement := do
  let token ← look
  match token.kind with
  | .string contents =>
    advance
    endStatement
    return .imports ⟨false, none, none, [], contents⟩
  | _ =>
    let clause ← importTyped dialect
    expectName "from"
    let source ← source
    endStatement
    return .imports { clause with source }

def exportStatement (dialect : Dialect) : Parse Statement := do
  let token ← peek
  match token.kind with
  | .mark '\x7b' =>
    let names ← list peek (specifier dialect)
    let source ← if ← eatName "from" then some <$> source else pure none
    endStatement
    return .exportNames names source
  | .mark '*' =>
    advance
    let rename ← if ← eatName "as" then some <$> anyName else pure none
    expectName "from"
    let source ← source
    endStatement
    return .exportAll rename source
  | .name name =>
    advance
    if name = "default" then
      let value ← value dialect
      endStatement
      return .exportDefault token.start value
    else if name = "const" then declaration dialect true true
    else if name = "let" then declaration dialect true false
    else if dialect.isTyped && name = "type" then typeDeclaration true true
    else if dialect.isTyped && name = "interface" then typeDeclaration true false
    else fail .unexpectedToken token
  | _ => fail .unexpectedToken token

def statement (dialect : Dialect) : Parse Statement := do
  let token ← peek
  match token.kind with
  | .name name =>
    advance
    if name = "import" then importStatement dialect
    else if name = "export" then exportStatement dialect
    else if name = "const" then declaration dialect false true
    else if name = "break" then
      endStatement
      return .leave token.start
    else
      let next ← peek
      match next.kind with
      | .name _ =>
        if name = "let" then declaration dialect false false
        else if dialect.isTyped && !next.startsLine && name = "type" then
          typeDeclaration false true
        else if dialect.isTyped && !next.startsLine && name = "interface" then
          typeDeclaration false false
        else expressionEnd dialect token.start (.name name)
      | _ => expressionEnd dialect token.start (.name name)
  | _ => expressionEnd dialect token.start (← value dialect)

def statements (dialect : Dialect) : (fuel : Nat) → Parse (List Statement)
  | 0 => return []
  | fuel + 1 => do
    if (← peek).kind == .finish then return []
    if ← eat ';' then return .empty :: (← statements dialect fuel)
    else return (← statement dialect) :: (← statements dialect fuel)

end Grammar

def checkExports (dialect : Dialect) (script : List Statement) : Except Flaw Unit :=
  let names := (script.flatMap Statement.exports).map fun binding => (Role.variable, binding)
  match dialect, Binding.repeated [] names with
  | .plain, first :: _ => .error ⟨.duplicateExport first.name, first.offset⟩
  | _, _ => .ok ()

def parse (dialect : Dialect) (text : Text) : Except Flaw (List Statement) := do
  let (script, _) ← (Grammar.statements dialect (text.length + 1)).run ⟨0, Token.scan text⟩
  checkExports dialect script
  return script

end CodeTabs.Script

import CodeTabs.Compiler

/-!
An engine compiles texts one at a time: it parses a text, checks the program, takes the types out
of it and prints what is left. The path of a file says in what dialect it is written. A text that
does not parse is only told what is wrong with it.
-/

namespace CodeTabs

/-- Something that an engine finds in a text, and the byte it points at, if it points at one. -/
structure Finding where
  message : Text
  offset : Option Nat
deriving DecidableEq

def Finding.diagnostic (finding : Finding) (source : Text) : Diagnostic :=
  match finding.offset with
  | none => .unlocated finding.message
  | some offset => .atOffset finding.message source offset

structure Parsed (π : Type) where
  program : π
  findings : List Finding
  panicked : Bool

structure Engine (δ π : Type) where
  dialect? : (path : Text) → Option δ
  parse : δ → (code : Text) → Parsed π
  check : (semantics : Bool) → π → List Finding
  transform : Settings → (path : Text) → π → π × List Finding
  print : π → Text

namespace Engine

variable {δ π : Type}

def compileText (engine : Engine δ π) (settings : Settings) (dialect : δ) (path code : Text) :
    Text × List Diagnostic :=
  let locate (findings : List Finding) : List Diagnostic :=
    findings.map fun finding => finding.diagnostic code
  let parsed := engine.parse dialect code
  if parsed.panicked || !parsed.findings.isEmpty then ([], locate parsed.findings)
  else
    let (program, findings) := engine.transform settings path parsed.program
    (engine.print program,
      locate (engine.check settings.checkSemantics parsed.program) ++ locate findings)

def compileFile (engine : Engine δ π) (settings : Settings) (path : Text) (file : SourceFile) :
    Except CompilerError CompiledFile :=
  match engine.dialect? path with
  | none => .error (.invalidSourceType path)
  | some dialect =>
    let (code, diagnostics) := engine.compileText settings dialect path file.code
    .ok ⟨code, diagnostics, file.skip⟩

end Engine

end CodeTabs

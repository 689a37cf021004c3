import CodeTabs.Text.Basic

/-!
What can go wrong with a document. A `Cause` says what happened and fixes the words for it; a
`Failure` is what a reader is shown, the words together with the place they are about.
-/

namespace CodeTabs

/-- Failures of a compiler itself, as opposed to what it finds in the code it is given. -/
inductive CompilerError
  | missingSettings
  | invalidSourceType (path : Text)
  | internal (message : Text)
deriving DecidableEq

def CompilerError.message : CompilerError → Text
  | .missingSettings => "No compiler configured: provide compiler settings or a compiler instance"
  | .invalidSourceType path => "Cannot determine source type for virtual file '" ++ path ++ "'"
  | .internal message => "Compiler failure: " ++ message

namespace Failure

inductive Kind
  | diagnostic
  | parse
  | compiler
  | postProcess
  | assembly
  | configuration
deriving DecidableEq

namespace Kind

def all : List Kind := [.diagnostic, .parse, .compiler, .postProcess, .assembly, .configuration]

def name : Kind → Text
  | .diagnostic => "diagnostic"
  | .parse => "parse"
  | .compiler => "compiler"
  | .postProcess => "post-process"
  | .assembly => "assembly"
  | .configuration => "configuration"

def ofName? (name : Text) : Option Kind := all.find? fun kind => kind.name == name

theorem ofName?_name (kind : Kind) : ofName? kind.name = some kind := by
  cases kind <;> decide

end Kind

end Failure

structure Failure where
  kind : Failure.Kind
  message : Text
  file : Option Text
  virtualFile : Option Text
  line : Option Nat
  column : Option Nat
  context : Option Text
  suggestion : Option Text
deriving DecidableEq

namespace Failure

def ofMessage (kind : Kind) (message : Text) : Failure :=
  ⟨kind, message, none, none, none, none, none, none⟩

def withFile (failure : Failure) (path : Text) : Failure := { failure with file := some path }

def withVirtualFile (failure : Failure) (path : Text) : Failure :=
  { failure with virtualFile := some path }

def withLocation (failure : Failure) (line column : Nat) : Failure :=
  { failure with line := some line, column := some column }

def withLine (failure : Failure) (line : Nat) : Failure :=
  { failure with line := some line, column := none }

def withContext (failure : Failure) (context : Text) : Failure :=
  { failure with context := some context }

def withSuggestion (failure : Failure) (suggestion : Text) : Failure :=
  { failure with suggestion := some suggestion }

def isDiagnostic (failure : Failure) : Bool := failure.kind == .diagnostic

def place : (line column : Option Nat) → Text
  | some line, some column =>
    "\n  at line " ++ Text.decimal line ++ ", column " ++ Text.decimal column
  | some line, none => "\n  at line " ++ Text.decimal line
  | none, _ => []

def display (failure : Failure) : Text :=
  let shown (label : Text) (value : Option Text) : Text := value.elim [] (label ++ ·)
  failure.message ++ shown "\n  in " failure.file ++
    shown "\n  virtual file " failure.virtualFile ++ place failure.line failure.column ++
    shown "\n\n" failure.context ++ shown "\nSuggestion: " failure.suggestion

end Failure

/-- The reasons for which a document is given up. Errors of hooks come as a chain of messages,
the outermost first. -/
inductive Cause
  | diagnostic (file : Text) (line : Option Nat) (message : Text)
  | unparsable (message : Text)
  | compiler (error : CompilerError)
  | postProcess (stage : Text) (chain : List Text)
  | assembly (chain : List Text)
  | configuration (message : Text)

namespace Cause

def kind : Cause → Failure.Kind
  | .diagnostic .. => .diagnostic
  | .unparsable _ => .parse
  | .compiler .missingSettings => .configuration
  | .compiler _ => .compiler
  | .postProcess .. => .postProcess
  | .assembly _ => .assembly
  | .configuration _ => .configuration

def message : Cause → Text
  | .diagnostic file none message => "TypeScript error in " ++ file ++ ":\n" ++ message
  | .diagnostic file (some line) message =>
    "TypeScript error in line " ++ Text.decimal line ++ " of " ++ file ++ ":\n" ++ message
  | .unparsable message => "Failed to parse document: " ++ message
  | .compiler error => error.message
  | .postProcess stage chain => stage ++ " post-processing failed: " ++ Text.joined ": " chain
  | .assembly chain => "Failed to assemble replacement nodes: " ++ Text.joined ": " chain
  | .configuration message => message

def suggestion : Cause → Option Text
  | .unparsable _ =>
    some "Check the MDX syntax of the document around the reported position."
  | _ => none

def failure (cause : Cause) : Failure :=
  { Failure.ofMessage cause.kind cause.message with suggestion := cause.suggestion }

end Cause

end CodeTabs

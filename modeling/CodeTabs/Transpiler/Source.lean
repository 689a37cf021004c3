import CodeTabs.Markdown.Document
import CodeTabs.Transpiler.Basic

/-!
Transforming a document from its text. The text is parsed before anything else is looked at, and
when that fails the failure names the document by the path it was given.
-/

namespace CodeTabs

namespace Markdown

def parseWith (reader : Reader) (statements : Text → List Finding) (source : Text) :
    Except Failure Node :=
  match reader.read (Esm.check statements) source with
  | .error message => .error (Cause.unparsable message).failure
  | .ok tree => .ok tree

def parse (source : Text) : Except Failure Node := parseWith reader Esm.findings source

end Markdown

namespace Transpiler

variable {σ : Type}

def transformSource (transpiler : Transpiler σ) (source path : Text) :
    Action σ Failure (Node × TransformReport) :=
  ExceptT.mk do
    match Markdown.parse source with
    | .error failure => return .error (failure.withFile path)
    | .ok tree =>
      let outcome ← transpiler.transform tree path
      return outcome.result.map fun report => (outcome.tree, report)

end Transpiler

end CodeTabs

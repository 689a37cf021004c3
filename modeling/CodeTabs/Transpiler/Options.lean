import CodeTabs.Compiler
import CodeTabs.Registry.Basic

/-!
The options of a transpiler, and the text that describes them. Either a compiler or settings for
the built-in one must be given; a compiler wins over settings.
-/

namespace CodeTabs

structure Options (σ : Type) where
  settings : Option SharedSettings
  compiler : Option (Compiler σ)
  relocate : Option (Text → Text)
  typeScriptHook : Option (SourceHook σ)
  javaScriptHook : Option (CompiledHook σ)
  assembler : Option (Assembler σ)
  fileExtensions : List Text
  tabsImport : Text
  tabItemImport : Text

namespace Options

variable {σ : Type}

def defaultTabsImport : Text := "import Tabs from '@theme/Tabs'"

def defaultTabItemImport : Text := "import TabItem from '@theme/TabItem'"

def defaultFileExtensions : List Text := [".mdx"]

def unset : Options σ :=
  ⟨none, none, none, none, none, none, defaultFileExtensions, defaultTabsImport,
    defaultTabItemImport⟩

end Options

namespace Describe

def quotedChar (c : Char) : Text :=
  match c with
  | '"' => "\\\""
  | '\\' => "\\\\"
  | '\n' => "\\n"
  | '\r' => "\\r"
  | '\t' => "\\t"
  | c => [c]

def quoted (text : Text) : Text := '"' :: text.flatMap quotedChar ++ "\""

def flag (b : Bool) : Text := if b then "true" else "false"

def list (items : List Text) : Text := '[' :: Text.joined ", " items ++ "]"

def record (name : Text) (fields : List (Text × Text)) : Text :=
  name ++ " \x7b " ++ Text.joined ", " (fields.map fun (key, value) => key ++ ": " ++ value) ++
    " \x7d"

end Describe

def Settings.describe (settings : Settings) : Text :=
  Describe.record "CompilerSettings"
    [("preserve_jsx", Describe.flag settings.preserveJsx),
      ("only_remove_type_imports", Describe.flag settings.onlyRemoveTypeImports),
      ("check_semantics", Describe.flag settings.checkSemantics)]

def Options.describe {σ : Type} (options : Options σ) : Text :=
  Describe.record "TranspileOptions"
    [("compiler_settings",
        options.settings.elim "None" fun shared => "Some(" ++ shared.settings.describe ++ ")"),
      ("has_compiler", Describe.flag options.compiler.isSome),
      ("has_rewrite_path", Describe.flag options.relocate.isSome),
      ("has_post_process_ts", Describe.flag options.typeScriptHook.isSome),
      ("has_post_process_js", Describe.flag options.javaScriptHook.isSome),
      ("has_assemble_replacement_nodes", Describe.flag options.assembler.isSome),
      ("file_extensions", Describe.list (options.fileExtensions.map Describe.quoted)),
      ("tabs_import", Describe.quoted options.tabsImport),
      ("tab_item_import", Describe.quoted options.tabItemImport)]

end CodeTabs

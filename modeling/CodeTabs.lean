import CodeTabs.BuiltinCompiler
import CodeTabs.Json.Read
import CodeTabs.Json.Records
import CodeTabs.Json.Render
import CodeTabs.Proofs.CachedCompiler
import CodeTabs.Proofs.Diagnostic.Excerpt
import CodeTabs.Proofs.Diagnostic.Located
import CodeTabs.Proofs.Diagnostic.Origin
import CodeTabs.Proofs.Diagnostic.Report
import CodeTabs.Proofs.Files.Hidden
import CodeTabs.Proofs.Files.Indivisible
import CodeTabs.Proofs.Files.MarkerGrammar
import CodeTabs.Proofs.Files.NormalForm
import CodeTabs.Proofs.Files.Partition
import CodeTabs.Proofs.Files.RoundTrip
import CodeTabs.Proofs.Imports
import CodeTabs.Proofs.JavaScriptNames.Metadata
import CodeTabs.Proofs.JavaScriptNames.TitleValue
import CodeTabs.Proofs.Markdown.Esm
import CodeTabs.Proofs.Registry.Identity
import CodeTabs.Proofs.Shaping.Directives
import CodeTabs.Proofs.Shaping.Renaming
import CodeTabs.Proofs.Tabs
import CodeTabs.Proofs.Text.Places
import CodeTabs.Proofs.Transpiler.FirstFailure
import CodeTabs.Proofs.Transpiler.HiddenFiles
import CodeTabs.Proofs.Transpiler.Imports
import CodeTabs.Proofs.Transpiler.Namespaces
import CodeTabs.Proofs.Transpiler.OnePass
import CodeTabs.Proofs.Transpiler.Rebuild
import CodeTabs.Registry.Session
import CodeTabs.Transpiler.Source

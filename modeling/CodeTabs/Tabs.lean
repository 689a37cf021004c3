import CodeTabs.Files.Split
import CodeTabs.JavaScriptNames
import CodeTabs.Tree.Basic

/-!
A compiled block is shown as two tabs. Five nodes take its place: markup that opens the tabs, the
TypeScript code, markup between the tabs, the JavaScript code and markup that closes them.
-/

namespace CodeTabs.Tabs

def choices : Text :=
  "\x7b[\x7b label: 'TypeScript', value: 'ts' \x7d, \x7b label: 'JavaScript', value: 'js' \x7d]\x7d"

def opening : Text :=
  "<Tabs groupId=\"language\" defaultValue=\"ts\" values=" ++ choices ++
    ">\n<TabItem value=\"ts\">"

def middle : Text := "</TabItem>\n<TabItem value=\"js\">"

def closing : Text := "</TabItem>\n</Tabs>"

def typeScriptBlock (block : CodeBlock) (files : FileSet) (folder : Text) : CodeBlock :=
  { block with value := files.assemble folder }

def javaScriptBlock (block : CodeBlock) (files : FileSet) (folder : Text) : CodeBlock :=
  { block with
    value := files.assemble folder
    lang := block.lang.map JavaScriptNames.lang
    metadata := block.metadata.map JavaScriptNames.metadata }

def nodes (block : CodeBlock) (folder : Text) (typeScript javaScript : FileSet) : List Node :=
  [.html opening, .code (typeScriptBlock block typeScript folder), .html middle,
    .code (javaScriptBlock block javaScript folder), .html closing]

end CodeTabs.Tabs

import CodeTabs.Text.Basic

/-!
What a TypeScript name becomes in the JavaScript tab: the extension of a file, the language of a
fence, and the file title in the metadata of a fence.
-/

namespace CodeTabs.JavaScriptNames

def extensions : List (Text × Text) :=
  [(".tsx", ".jsx"), (".mts", ".mjs"), (".cts", ".cjs"), (".ts", ".js")]

def path (path : Text) : Text :=
  (extensions.findSome? fun (ts, js) => (Text.before? ts path).map (· ++ js)).getD path

def lang (lang : Text) : Text :=
  if lang = "tsx" then "jsx"
  else if lang = "ts" || lang = "typescript" then "js"
  else lang

def isQuote (c : Char) : Bool := c == '"' || c == '\''

def titleOpening : Text := "title="

/-- Whether `s` or `sx` and a quote stand here: the end of an extension and of its value. -/
def endsValue : Text → Bool
  | 's' :: 'x' :: q :: _ => isQuote q
  | 's' :: q :: _ => isQuote q
  | _ => false

/-- Go on after the text `before`, which is given from its end. `inside` says that no
quote has been met since one that stood right after `title=`. -/
def metadataFrom (before : Text) (inside : Bool) : Text → Text
  | [] => []
  | c :: rest =>
    let due := inside && before.head? == some '.' && c == 't' && endsValue rest
    let inside := if isQuote c then titleOpening.reverse.isPrefixOf before else inside
    (if due then 'j' else c) :: metadataFrom (c :: before) inside rest

/-- Replace the extension at the end of every title. A title is `title=`, a quote and a value
without quotes, up to the next quote of either kind. -/
def metadata (text : Text) : Text := metadataFrom [] false text

theorem length_metadataFrom (before : Text) (inside : Bool) (text : Text) :
    (metadataFrom before inside text).length = text.length := by
  induction text generalizing before inside with
  | nil => rfl
  | cons c rest ih => simp [metadataFrom, ih]

end CodeTabs.JavaScriptNames

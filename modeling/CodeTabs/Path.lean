import CodeTabs.Text.Basic

/-!
Paths are read in the manner of Unix, and on their text alone: a slash separates, repeated
slashes count once, a dot names the place itself and two dots the place above. Cleaning a path
removes what can be removed without looking at any file. By its extension, written with the dot, a
document is accepted or passed over.
-/

namespace CodeTabs

namespace Path

inductive Component
  | root
  | here
  | up
  | name (text : Text)
deriving DecidableEq

def Component.text : Component → Text
  | .root => "/"
  | .here => "."
  | .up => ".."
  | .name text => text

def isAbsolute (path : Text) : Bool := path.head? == some '/'

def steps (path : Text) : List Component :=
  (path.splitAt '/').filterMap fun (part : Text) =>
    if part.isEmpty || part = "." then none
    else some (if part = ".." then .up else .name part)

def components (path : Text) : List Component :=
  if isAbsolute path then .root :: steps path else steps path

/-- Take one component more. The list runs from the last component to the first; a step up undoes
a name and does nothing at the root. -/
def push : List Component → Component → List Component
  | .name _ :: rest, .up => rest
  | [.root], .up => [.root]
  | taken, .here => taken
  | taken, component => component :: taken

def clean (components : List Component) : List Component :=
  match (components.foldl push []).reverse with
  | [] => [.here]
  | cleaned => cleaned

def render : List Component → Text
  | .root :: rest => '/' :: Text.joined "/" (rest.map Component.text)
  | components => Text.joined "/" (components.map Component.text)

def cleaned (path : Text) : Text := render (clean (components path))

def below? : (folder path : List Component) → Option (List Component)
  | [], path => some path
  | _ :: _, [] => none
  | f :: folder, p :: path => if f = p then below? folder path else none

/-- A path as seen from a folder. A path that begins with the text of the folder and a slash is
left as it was written; other paths are compared in cleaned form. -/
def relative (path folder : Text) : Text :=
  match (Text.after? folder path).bind (Text.after? "/") with
  | some written => written
  | none =>
    let target := clean (components path)
    let seen := (below? (clean (components folder)) target).getD target
    (render seen).map fun c => if c = '\\' then '/' else c

def fileName? (path : Text) : Option Text :=
  match (steps path).getLast? with
  | some (.name text) => some text
  | _ => none

/-- What follows the last dot of the file name; a dot that begins the name starts no extension. -/
def extension? (path : Text) : Option Text :=
  match fileName? path with
  | none => none
  | some name =>
    let tail := name.reverse.takeWhile (· ≠ '.')
    if tail.length + 1 < name.length then some tail.reverse else none

end Path

namespace Document

def extension? (path : Text) : Option Text := (Path.extension? path).map ('.' :: ·)

def hasExtension (path : Text) (allowed : List Text) : Bool :=
  (extension? path).any allowed.contains

end Document

end CodeTabs

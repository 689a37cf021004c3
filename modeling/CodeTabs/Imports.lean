import CodeTabs.Text.Word
import CodeTabs.Tree.Basic

/-!
A page that shows tabs needs the components `Tabs` and `TabItem`. A component counts as imported
when its name stands as a whole word anywhere in a module block of the document; what is missing
is put in front of the document.
-/

namespace CodeTabs

structure ImportPresence where
  tabs : Bool
  tabItem : Bool
deriving DecidableEq

namespace ImportPresence

def tabsName : Text := "Tabs"

def tabItemName : Text := "TabItem"

def scan (tree : Node) : ImportPresence where
  tabs := tree.esmValues.any (Text.holdsWord tabsName)
  tabItem := tree.esmValues.any (Text.holdsWord tabItemName)

def missing (presence : ImportPresence) (tabsImport tabItemImport : Text) : List Node :=
  let node (present : Bool) (value : Text) : List Node :=
    if present then [] else [.esm ⟨value, none, []⟩]
  node presence.tabs tabsImport ++ node presence.tabItem tabItemImport

def inject (presence : ImportPresence) (tabsImport tabItemImport : Text) (tree : Node) :
    Node × Nat :=
  let added := presence.missing tabsImport tabItemImport
  match tree.children? with
  | none => (tree, 0)
  | some children => (tree.withChildren (added ++ children), added.length)

end ImportPresence

end CodeTabs

import CodeTabs.Imports
import CodeTabs.Proofs.Text.WholeWord
import CodeTabs.Proofs.Tree.Statements
import Mathlib.Data.List.InsertIdx
import Mathlib.Data.List.Nodup

/-!
A component counts as imported when its name is a word of any module statement, in what the
statement imports or in where from. So the path of a module can pass for the component; and of two
imports that are put in, one is not needed when the other names its component as well.
-/

namespace CodeTabs

inductive Component
  | tabs
  | tabItem
deriving DecidableEq

namespace Component

def all : List Component := [.tabs, .tabItem]

def name : Component → Text
  | .tabs => ImportPresence.tabsName
  | .tabItem => ImportPresence.tabItemName

def statement (tabsImport tabItemImport : Text) : Component → Text
  | .tabs => tabsImport
  | .tabItem => tabItemImport

end Component

namespace ImportPresence

def has (presence : ImportPresence) : Component → Bool
  | .tabs => presence.tabs
  | .tabItem => presence.tabItem

theorem eq_iff_has {presence other : ImportPresence} :
    presence = other ↔ ∀ component, presence.has component = other.has component := by
  constructor
  · rintro rfl component
    rfl
  · intro h
    rw [ImportPresence.mk.injEq]
    exact ⟨h .tabs, h .tabItem⟩

theorem has_scan (tree : Node) (component : Component) :
    (scan tree).has component = tree.esmValues.any (Text.holdsWord component.name) := by
  cases component <;> rfl

def absent (tree : Node) : List Component :=
  Component.all.filter fun component => !(scan tree).has component

theorem mem_absent_iff {tree : Node} {component : Component} :
    component ∈ absent tree ↔ (scan tree).has component = false := by
  have hall : component ∈ Component.all := by cases component <;> decide
  rw [absent, List.mem_filter, Bool.not_eq_true']
  exact and_iff_right hall

section Source

def importing (clause source : Text) : Text :=
  ("import " : Text) ++ clause ++ " from '" ++ source ++ "'"

theorem holdsWord_importing (component : Component) (clause source : Text) :
    Text.holdsWord component.name (importing clause source) =
      (Text.holdsWord component.name clause || Text.holdsWord component.name source) := by
  have hne : component.name ≠ [] := by cases component <;> decide
  have hword : component.name.all isWord = true := by cases component <;> decide
  have himport : Text.holdsWord component.name "import" = false := by cases component <;> decide
  have hfrom : Text.holdsWord component.name "from" = false := by cases component <;> decide
  have hspace : isWord ' ' = false := by decide
  have hquote : isWord '\'' = false := by decide
  have hparts : importing clause source = ("import" : Text) ++ ' ' ::
      (clause ++ ' ' :: (("from" : Text) ++ ' ' :: ([] ++ '\'' :: (source ++ '\'' :: [])))) := by
    unfold importing
    simp
  rw [hparts, Text.holdsWord_append_separator hne hword hspace,
    Text.holdsWord_append_separator hne hword hspace,
    Text.holdsWord_append_separator hne hword hspace,
    Text.holdsWord_append_separator hne hword hquote,
    Text.holdsWord_append_separator hne hword hquote, himport, hfrom]
  simp [Text.holdsWord, Text.holdsWordFrom]

theorem has_scan_importing (frame : Node.Frame) (clause source : Text) (span : Option Span)
    (stops : List (Nat × Nat)) (component : Component) :
    (scan (frame.fill (.esm ⟨importing clause source, span, stops⟩))).has component =
      (frame.esmValues.any (Text.holdsWord component.name) ||
        (Text.holdsWord component.name clause || Text.holdsWord component.name source)) := by
  rw [has_scan, Node.Frame.any_esmValues_fill, ← holdsWord_importing]
  simp [Node.esmValues]

/-- Where a name is imported from makes a difference just when the name of a component, which
nothing else in the document mentions, stands in only one of the two modules. A component is put in
when it stands neither in the module nor anywhere else. -/
theorem scan_importing_eq_iff (frame : Node.Frame) (clause source other : Text)
    (span span' : Option Span) (stops stops' : List (Nat × Nat)) :
    (scan (frame.fill (.esm ⟨importing clause source, span, stops⟩)) =
        scan (frame.fill (.esm ⟨importing clause other, span', stops'⟩)) ↔
      ∀ component : Component,
        frame.esmValues.any (Text.holdsWord component.name) = true ∨
          Text.holdsWord component.name clause = true ∨
          Text.holdsWord component.name source = Text.holdsWord component.name other) ∧
    ∀ component,
      component ∈ absent (frame.fill (.esm ⟨importing clause source, span, stops⟩)) ↔
        frame.esmValues.any (Text.holdsWord component.name) = false ∧
          Text.holdsWord component.name clause = false ∧
          Text.holdsWord component.name source = false := by
  constructor
  · rw [eq_iff_has]
    refine forall_congr' fun component => ?_
    rw [has_scan_importing, has_scan_importing]
    cases frame.esmValues.any (Text.holdsWord component.name) with
    | true => simp
    | false =>
      cases Text.holdsWord component.name clause with
      | true => simp
      | false => simp
  · intro component
    rw [mem_absent_iff, has_scan_importing, Bool.or_eq_false_iff, Bool.or_eq_false_iff]

def isSpecifier (source : Text) : Bool :=
  source.all fun c => c != '\'' && c != '"' && c != '\n'

theorem scan_importing_panel : ¬∀ (frame : Node.Frame) (clause source other : Text),
    isSpecifier source = true → isSpecifier other = true →
      scan (frame.fill (.esm ⟨importing clause source, none, []⟩)) =
        scan (frame.fill (.esm ⟨importing clause other, none, []⟩)) := by
  intro h
  have hpanel := h (.among "root" [] [] .here []) "Panel" "./Tabs" "./panel" rfl rfl
  revert hpanel
  decide

end Source

section Needed

variable {tabsImport tabItemImport kind : Text} {attributes : Attributes} {children : List Node}

def imports (tabsImport tabItemImport : Text) (components : List Component) : List Node :=
  components.map fun component => .esm ⟨component.statement tabsImport tabItemImport, none, []⟩

@[simp] theorem length_imports (components : List Component) :
    (imports tabsImport tabItemImport components).length = components.length := List.length_map _

theorem missing_scan (tree : Node) (tabsImport tabItemImport : Text) :
    (scan tree).missing tabsImport tabItemImport =
      imports tabsImport tabItemImport (absent tree) := by
  unfold missing absent
  generalize scan tree = presence
  obtain ⟨tabs, tabItem⟩ := presence
  cases tabs <;> cases tabItem <;> rfl

theorem inject_parent {tree : Node} (h : tree = .parent kind attributes children) :
    (scan tree).inject tabsImport tabItemImport tree =
      (.parent kind attributes (imports tabsImport tabItemImport (absent tree) ++ children),
        (absent tree).length) := by
  rw [inject, missing_scan, length_imports, h]
  rfl

theorem has_scan_imports (components : List Component) (component : Component) :
    (scan (.parent kind attributes
        (imports tabsImport tabItemImport components ++ children))).has component =
      (components.any (fun other =>
          Text.holdsWord component.name (other.statement tabsImport tabItemImport)) ||
        (scan (.parent kind attributes children)).has component) := by
  rw [has_scan, has_scan]
  change (Node.esmValuesOf _).any _ = (_ || (Node.esmValuesOf children).any _)
  rw [Node.esmValuesOf_append, List.any_append]
  congr 1
  induction components with
  | nil => rfl
  | cons other rest ih =>
    change (other.statement tabsImport tabItemImport :: Node.esmValuesOf _).any _ = _
    rw [List.any_cons, List.any_cons, ← ih]
    rfl

theorem nodup_absent (tree : Node) : (absent tree).Nodup := List.Nodup.filter _ (by decide)

theorem mem_eraseIdx_absent_iff {tree : Node} {i : Nat} {component other : Component}
    (h : (absent tree)[i]? = some component) :
    other ∈ (absent tree).eraseIdx i ↔ other ∈ absent tree ∧ other ≠ component := by
  obtain ⟨hi, rfl⟩ := List.getElem?_eq_some_iff.mp h
  rw [← (nodup_absent tree).erase_getElem i hi, (nodup_absent tree).mem_erase_iff]
  exact and_comm

def withoutChild (tree : Node) (i : Nat) : Node :=
  tree.withChildren (tree.children.eraseIdx i)

theorem withoutChild_imports {components : List Component} {i : Nat}
    (hi : i < components.length) :
    withoutChild (.parent kind attributes
        (imports tabsImport tabItemImport components ++ children)) i =
      .parent kind attributes
        (imports tabsImport tabItemImport (components.eraseIdx i) ++ children) := by
  change Node.parent kind attributes ((imports _ _ components ++ children).eraseIdx i) = _
  rw [List.eraseIdx_append_of_lt_length (by rwa [length_imports]), imports, List.eraseIdx_map]
  rfl

/-- An import that is put in is needed just when no other one that is put in names its component:
only then is the component missing again once this import is taken out. -/
theorem inject_needed_iff (tree : Node) (tabsImport tabItemImport : Text) :
    let left := (scan tree).inject tabsImport tabItemImport tree
    left.1.children.drop left.2 = tree.children ∧
    ∀ i < left.2, ∃ component, (absent tree)[i]? = some component ∧
      left.1.children[i]? = some
        (.esm ⟨component.statement tabsImport tabItemImport, none, []⟩) ∧
      ((scan (withoutChild left.1 i)).has component = false ↔
        ∀ other ∈ absent tree, other ≠ component →
          Text.holdsWord component.name (other.statement tabsImport tabItemImport) = false) := by
  cases holds : tree.children? with
  | none =>
    rw [inject, holds]
    exact ⟨rfl, nofun⟩
  | some nodes =>
    obtain ⟨kind, attributes, children, htree⟩ :=
      Node.exists_parent (Option.isSome_of_eq_some holds)
    rw [inject_parent htree]
    refine ⟨?_, fun i hi => ?_⟩
    · rw [← length_imports (absent tree), htree]
      exact List.drop_left
    · have hcomponent : (absent tree)[i]? = some (absent tree)[i] := List.getElem?_eq_getElem hi
      have habsent : (scan tree).has (absent tree)[i] = false :=
        mem_absent_iff.mp (List.getElem_mem hi)
      refine ⟨(absent tree)[i], hcomponent, ?_, ?_⟩
      · change (imports tabsImport tabItemImport (absent tree) ++ children)[i]? = _
        rw [List.getElem?_append_left (by rwa [length_imports]), imports, List.getElem?_map,
          hcomponent]
        rfl
      · rw [withoutChild_imports hi, has_scan_imports, ← htree, habsent, Bool.or_false,
          List.any_eq_false]
        simp only [mem_eraseIdx_absent_iff hcomponent, Bool.not_eq_true, and_imp]

theorem inject_combined_tabs :
    let page : Node := .parent "root" [] [.esm ⟨"import Panel from './panel'", none, []⟩]
    let left := (scan page).inject "import \x7b Tabs, TabItem \x7d from './ui'"
      "import TabItem from './item'" page
    left.2 = 2 ∧ (scan (withoutChild left.1 0)).has .tabs = false ∧
      (scan (withoutChild left.1 1)).has .tabItem = true := by
  intro page left
  have habsent : absent page = [.tabs, .tabItem] := by decide
  obtain ⟨-, hneeded⟩ := inject_needed_iff page "import \x7b Tabs, TabItem \x7d from './ui'"
    "import TabItem from './item'"
  obtain ⟨first, hfirst, -, tabs⟩ := hneeded 0 (by decide)
  obtain ⟨second, hsecond, -, tabItem⟩ := hneeded 1 (by decide)
  rw [habsent] at hfirst hsecond tabs tabItem
  cases hfirst
  cases hsecond
  refine ⟨by decide, tabs.mpr (by decide), ?_⟩
  rw [← Bool.not_eq_false]
  exact fun missing => absurd (tabItem.mp missing .tabs List.mem_cons_self (by decide)) (by decide)

theorem inject_same_statement : ¬∀ (tree : Node) (tabsImport tabItemImport : Text),
    let left := (scan tree).inject tabsImport tabItemImport tree
    ∀ i < left.2, ∀ component, (absent tree)[i]? = some component →
      (scan (withoutChild left.1 i)).has component = false := by
  intro h
  have hfirst := h (.parent "root" [] []) "import \x7b Tabs, TabItem \x7d from './ui'"
    "import \x7b Tabs, TabItem \x7d from './ui'" 0 (by decide) .tabs (by decide)
  revert hfirst
  decide

end Needed

end ImportPresence

end CodeTabs

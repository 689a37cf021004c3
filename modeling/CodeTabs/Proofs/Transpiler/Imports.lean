import CodeTabs.Proofs.Tabs
import CodeTabs.Proofs.Transpiler.Recorded
import CodeTabs.Proofs.Tree.Statements

/-!
However often a tree is transformed, its tab components stay imported as often as they were, and
once if they were not. What is missing comes in with the first document; from then on each scan
finds both components, for nothing that replaces a block holds module statements.
-/

namespace CodeTabs

open CodeTabs.Action

namespace Node

def mentionsOf (nodes : List Node) (name : Text) : Nat :=
  (esmValuesOf nodes).countP (Text.holdsWord name)

def mentions (tree : Node) (name : Text) : Nat := tree.esmValues.countP (Text.holdsWord name)

def importFor (tree : Node) (name statement : Text) : List Node :=
  if tree.mentions name = 0 then [.esm ⟨statement, none, []⟩] else []

theorem mentionsOf_append (first second : List Node) (name : Text) :
    mentionsOf (first ++ second) name = mentionsOf first name + mentionsOf second name := by
  rw [mentionsOf, esmValuesOf_append, List.countP_append]
  rfl

theorem mentionsOf_importFor_self {name statement : Text} (tree : Node)
    (h : Text.holdsWord name statement = true) :
    mentionsOf (tree.importFor name statement) name = if tree.mentions name = 0 then 1 else 0 := by
  unfold importFor
  split
  · simp [mentionsOf, esmValuesOf, esmValues, h]
  · rfl

theorem mentionsOf_importFor_other {name other statement : Text} (tree : Node)
    (h : Text.holdsWord other statement = false) :
    mentionsOf (tree.importFor name statement) other = 0 := by
  unfold importFor
  split
  · simp [mentionsOf, esmValuesOf, esmValues, h]
  · rfl

end Node

namespace Transpiler

open ImportPresence (tabsName tabItemName)

variable {σ : Type}

/-- The assembler makes tabs, and each import statement is for its own component. -/
structure MakesTabs (t : Transpiler σ) : Prop where
  assembler : t.assembler = fun input =>
    pure (Tabs.nodes input.block input.folder input.typeScript input.javaScript)
  tabs : Text.holdsWord tabsName t.tabsImport = true
  tabItem : Text.holdsWord tabItemName t.tabItemImport = true
  tabs_only : Text.holdsWord tabItemName t.tabsImport = false
  tabItem_only : Text.holdsWord tabsName t.tabItemImport = false

def imports (t : Transpiler σ) (tree : Node) : List Node :=
  tree.importFor tabsName t.tabsImport ++ tree.importFor tabItemName t.tabItemImport

theorem scan_eq (tree : Node) : ImportPresence.scan tree =
    ⟨decide (tree.mentions tabsName ≠ 0), decide (tree.mentions tabItemName ≠ 0)⟩ := by
  have hany : ∀ name, tree.esmValues.any (Text.holdsWord name) =
      decide (tree.mentions name ≠ 0) := by
    intro name
    rw [Bool.eq_iff_iff, List.any_eq_true, decide_eq_true_iff, ← Nat.pos_iff_ne_zero,
      Node.mentions, List.countP_pos_iff]
  simp only [ImportPresence.scan, hany]

theorem missing_eq_imports (t : Transpiler σ) (tree : Node) :
    (ImportPresence.scan tree).missing t.tabsImport t.tabItemImport = t.imports tree := by
  simp only [ImportPresence.missing, scan_eq, imports, Node.importFor, decide_eq_true_eq, ite_not]

variable {t : Transpiler σ} {tree : Node} {path : Text} {s s' : σ}

theorem injected_eq (holds : tree.children?.isSome = true) :
    t.injected tree =
      (tree.withChildren (t.imports tree ++ tree.children), (t.imports tree).length) := by
  unfold injected ImportPresence.inject
  rw [missing_eq_imports]
  obtain ⟨kind, attributes, children, rfl⟩ := Node.exists_parent holds
  rfl

theorem mentions_injected_eq (holds : tree.children?.isSome = true) (name : Text) :
    (t.injected tree).1.mentions name =
      Node.mentionsOf (tree.importFor tabsName t.tabsImport) name +
        Node.mentionsOf (tree.importFor tabItemName t.tabItemImport) name + tree.mentions name := by
  rw [injected_eq holds]
  obtain ⟨kind, attributes, children, rfl⟩ := Node.exists_parent holds
  rw [← Node.mentionsOf_append]
  exact Node.mentionsOf_append _ children name

theorem MakesTabs.mentions_injected (makes : t.MakesTabs) (holds : tree.children?.isSome = true) :
    (t.injected tree).1.mentions tabsName = max 1 (tree.mentions tabsName) ∧
      (t.injected tree).1.mentions tabItemName = max 1 (tree.mentions tabItemName) := by
  rw [mentions_injected_eq holds, mentions_injected_eq holds,
    Node.mentionsOf_importFor_self tree makes.tabs,
    Node.mentionsOf_importFor_self tree makes.tabItem,
    Node.mentionsOf_importFor_other tree makes.tabItem_only,
    Node.mentionsOf_importFor_other tree makes.tabs_only]
  constructor
  · split <;> omega
  · split <;> omega

theorem statementFree_pairs (pairs : List Tabs.Pair) :
    Node.StatementFree (pairs.map Tabs.Pair.nodes) :=
  List.forall_mem_map.mpr fun _ _ => rfl

theorem MakesTabs.statementFree (makes : t.MakesTabs) {document : Text}
    {blocks : List (CodeBlock × Occurrence)} {replacements : List (List Node)}
    (succeed : t.Succeed document blocks s replacements s') : Node.StatementFree replacements := by
  obtain ⟨pairs, rfl, -⟩ := succeed.exists_pairs makes.assembler
  exact statementFree_pairs pairs

theorem transformFrom_cases (accepted : t.accepts path = true)
    (holds : tree.children?.isSome = true) (s : σ) :
    (∃ failure, (t.transformFrom tree path s).1 =
      ⟨tree.withChildren (t.imports tree ++ tree.children), .error failure⟩) ∨
    ∃ replacements s', t.Succeed (t.relocate path) (t.pendingIn tree path) s replacements s' ∧
      (t.transformFrom tree path s).1 =
        ⟨((tree.withChildren (t.imports tree ++ tree.children)).replace replacements).1,
          .ok ⟨false, (t.imports tree).length, (Node.codeBlocksOf tree.children).length,
            replacements.length⟩⟩ := by
  rw [transformFrom_of_accepts accepted]
  rcases h : runFrom (t.processAll (t.relocate path) (t.pendingIn tree path)) s with
    ⟨failure | replacements, s'⟩
  · refine .inl ⟨failure, ?_⟩
    rw [conclude, injected_eq holds]
  · refine .inr ⟨replacements, s', processAll_ok_iff.mp h, ?_⟩
    rw [conclude, codeBlocksOf_injected, injected_eq holds]

theorem replaceAll_importFor_append (tree : Node) (name statement : Text) (nodes : List Node)
    (queue : List (List Node)) :
    (Node.replaceAll (tree.importFor name statement ++ nodes) queue).1 =
      tree.importFor name statement ++ (Node.replaceAll nodes queue).1 := by
  unfold Node.importFor
  split
  · rfl
  · rfl

theorem replace_withImports (holds : tree.children?.isSome = true) (queue : List (List Node)) :
    ((tree.withChildren (t.imports tree ++ tree.children)).replace queue).1 =
      tree.withChildren (t.imports tree ++ (tree.replace queue).1.children) := by
  obtain ⟨kind, attributes, children, rfl⟩ := Node.exists_parent holds
  change Node.parent kind attributes (Node.replaceAll (t.imports _ ++ children) queue).1 = _
  rw [imports, List.append_assoc, replaceAll_importFor_append, replaceAll_importFor_append,
    ← List.append_assoc]
  rfl

theorem children?_withChildren (holds : tree.children?.isSome = true) (nodes : List Node) :
    (tree.withChildren nodes).children?.isSome = true := by
  obtain ⟨kind, attributes, children, rfl⟩ := Node.exists_parent holds
  rfl

theorem MakesTabs.transformFrom (makes : t.MakesTabs) (accepted : t.accepts path = true)
    (holds : tree.children?.isSome = true) (s : σ) :
    (t.transformFrom tree path s).1.tree.children?.isSome = true ∧
      (t.transformFrom tree path s).1.tree.mentions tabsName = max 1 (tree.mentions tabsName) ∧
      (t.transformFrom tree path s).1.tree.mentions tabItemName =
        max 1 (tree.mentions tabItemName) := by
  have hinjected := makes.mentions_injected holds
  rw [injected_eq holds] at hinjected
  rcases transformFrom_cases accepted holds s with
    ⟨failure, houtcome⟩ | ⟨replacements, s', succeed, houtcome⟩
  · rw [houtcome]
    exact ⟨children?_withChildren holds _, hinjected⟩
  · have hvalues := (Node.esmValues_replace (tree.withChildren (t.imports tree ++ tree.children))
      (makes.statementFree succeed)).1
    rw [houtcome]
    refine ⟨?_, ?_⟩
    · rw [replace_withImports holds]
      exact children?_withChildren holds _
    · simpa only [Node.mentions, hvalues] using hinjected

def outcomes : List (Transpiler σ × Text) → Node → σ → List Outcome
  | [], _, _ => []
  | (t, path) :: later, tree, s =>
    (t.transformFrom tree path s).1 ::
      outcomes later (t.transformFrom tree path s).1.tree (t.transformFrom tree path s).2

section Visits

variable {visits : List (Transpiler σ × Text)}

theorem length_outcomes (visits : List (Transpiler σ × Text)) (tree : Node) (s : σ) :
    (outcomes visits tree s).length = visits.length := by
  induction visits generalizing tree s with
  | nil => rfl
  | cons visit later ih => rw [outcomes, List.length_cons, List.length_cons, ih]

theorem mentions_of_mem_outcomes (holds : tree.children?.isSome = true)
    (hosts : ∀ visit ∈ visits, visit.1.MakesTabs ∧ visit.1.accepts visit.2 = true)
    {outcome : Outcome} (h : outcome ∈ outcomes visits tree s) :
    outcome.tree.mentions tabsName = max 1 (tree.mentions tabsName) ∧
      outcome.tree.mentions tabItemName = max 1 (tree.mentions tabItemName) := by
  induction visits generalizing tree s with
  | nil => cases h
  | cons visit later ih =>
    obtain ⟨⟨makes, accepted⟩, hlater⟩ := List.forall_mem_cons.mp hosts
    obtain ⟨hholds, htabs, htabItem⟩ := makes.transformFrom accepted holds s
    rcases List.mem_cons.mp h with rfl | h
    · exact ⟨htabs, htabItem⟩
    · have hrest := ih hholds hlater h
      rwa [htabs, htabItem, ← Nat.max_assoc, ← Nat.max_assoc, Nat.max_self] at hrest

theorem imports_eq_nil (tabs : tree.mentions tabsName ≠ 0)
    (tabItem : tree.mentions tabItemName ≠ 0) : t.imports tree = [] := by
  simp [imports, Node.importFor, tabs, tabItem]

theorem importsAdded_of_mem_outcomes (holds : tree.children?.isSome = true)
    (hosts : ∀ visit ∈ visits, visit.1.MakesTabs ∧ visit.1.accepts visit.2 = true)
    (tabs : tree.mentions tabsName ≠ 0) (tabItem : tree.mentions tabItemName ≠ 0)
    {outcome : Outcome} (h : outcome ∈ outcomes visits tree s) {report : TransformReport}
    (ok : outcome.result = .ok report) : report.importsAdded = 0 := by
  induction visits generalizing tree s with
  | nil => cases h
  | cons visit later ih =>
    obtain ⟨⟨makes, accepted⟩, hlater⟩ := List.forall_mem_cons.mp hosts
    rcases List.mem_cons.mp h with rfl | h
    · rcases transformFrom_cases accepted holds s with
        ⟨failure, houtcome⟩ | ⟨replacements, s', -, houtcome⟩
      · rw [houtcome] at ok
        cases ok
      · rw [houtcome] at ok
        cases ok
        rw [imports_eq_nil tabs tabItem, List.length_nil]
    · obtain ⟨hholds, htabs, htabItem⟩ := makes.transformFrom accepted holds s
      exact ih hholds hlater (by omega) (by omega) h

end Visits

/-- After every document each component is imported as often as it was at first, or once if it was
not imported at all. What is missing comes in with the first document; later ones add nothing. -/
theorem transforms_import_once {later : List (Transpiler σ × Text)}
    (holds : tree.children?.isSome = true)
    (hosts : ∀ visit ∈ (t, path) :: later,
      visit.1.MakesTabs ∧ visit.1.accepts visit.2 = true) (s : σ) :
    ∃ first others, outcomes ((t, path) :: later) tree s = first :: others ∧
      others.length = later.length ∧
      (∀ outcome ∈ first :: others,
        outcome.tree.mentions tabsName = max 1 (tree.mentions tabsName) ∧
          outcome.tree.mentions tabItemName = max 1 (tree.mentions tabItemName)) ∧
      (t.injected tree).1 = tree.withChildren (tree.importFor tabsName t.tabsImport ++
        tree.importFor tabItemName t.tabItemImport ++ tree.children) ∧
      ((∃ failure, first = ⟨(t.injected tree).1, .error failure⟩) ∨
        ∃ replacements report s',
          t.Succeed (t.relocate path) (t.pendingIn tree path) s replacements s' ∧
          first = ⟨tree.withChildren (tree.importFor tabsName t.tabsImport ++
            tree.importFor tabItemName t.tabItemImport ++
            (tree.replace replacements).1.children), .ok report⟩ ∧
          report.importsAdded = (tree.importFor tabsName t.tabsImport).length +
            (tree.importFor tabItemName t.tabItemImport).length) ∧
      ∀ outcome ∈ others, ∀ report, outcome.result = .ok report → report.importsAdded = 0 := by
  obtain ⟨⟨makes, accepted⟩, hlater⟩ := List.forall_mem_cons.mp hosts
  obtain ⟨hholds, htabs, htabItem⟩ := makes.transformFrom accepted holds s
  refine ⟨_, _, rfl, length_outcomes _ _ _,
    fun outcome h => mentions_of_mem_outcomes holds hosts h,
    congrArg Prod.fst (injected_eq holds), ?_,
    fun outcome h report ok =>
      importsAdded_of_mem_outcomes hholds hlater (by omega) (by omega) h ok⟩
  rcases transformFrom_cases accepted holds s with
    ⟨failure, houtcome⟩ | ⟨replacements, s', succeed, houtcome⟩
  · exact .inl ⟨failure, houtcome.trans (by rw [injected_eq holds])⟩
  · rw [replace_withImports holds] at houtcome
    exact .inr ⟨replacements, _, s', succeed, houtcome, List.length_append⟩

def recovering : Transpiler Nat := ofCompiler .unset (counting 1).compiler

def rebuilt : Node :=
  .parent "root" [] [.esm ⟨"import TabItem from './a'", none, []⟩,
    .parent "list" [] [.esm ⟨"import \x7b TabItem \x7d from './b'", none, []⟩,
      .code ⟨"let a = 1", some "ts", none, none⟩]]

theorem transforms_rebuilt :
    rebuilt.mentions tabsName = 0 ∧ rebuilt.mentions tabItemName = 2 ∧
      ∃ first second third, outcomes [(recovering, "a.mdx"), (recovering, "b.mdx"),
          (recovering, "a.mdx")] rebuilt 0 = [first, second, third] ∧
        (∀ outcome ∈ [first, second, third],
          outcome.tree.mentions tabsName = 1 ∧ outcome.tree.mentions tabItemName = 2) ∧
        (∃ failure, first.result = .error failure) ∧
        second.result = .ok ⟨false, 0, 1, 1⟩ ∧ third.result = .ok ⟨false, 0, 2, 1⟩ := by
  have hosts : ∀ visit ∈ [(recovering, ("a.mdx" : Text)), (recovering, "b.mdx"),
      (recovering, "a.mdx")], visit.1.MakesTabs ∧ visit.1.accepts visit.2 = true := by
    have makes : recovering.MakesTabs := ⟨rfl, by decide, by decide, by decide, by decide⟩
    simp only [List.forall_mem_cons, List.not_mem_nil, false_implies, implies_true, and_true]
    exact ⟨⟨makes, by decide⟩, ⟨makes, by decide⟩, makes, by decide⟩
  have htabs : rebuilt.mentions tabsName = 0 := by decide
  have htabItem : rebuilt.mentions tabItemName = 2 := by decide
  have holds : rebuilt.children?.isSome = true := rfl
  obtain ⟨first, others, hrun, -, hmentions, -⟩ := transforms_import_once holds hosts 0
  obtain ⟨rfl, rfl⟩ := List.cons.inj hrun
  rw [htabs, htabItem] at hmentions
  exact ⟨htabs, htabItem, _, _, _, rfl, hmentions, ⟨_, rfl⟩, rfl, rfl⟩

end Transpiler

end CodeTabs

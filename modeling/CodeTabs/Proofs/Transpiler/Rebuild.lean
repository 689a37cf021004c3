import CodeTabs.Proofs.Transpiler.Imports
import CodeTabs.Proofs.Transpiler.OnePass

/-!
A tree that has been transformed can be transformed again, as on a rebuild that keeps its trees.
The second run compiles the TypeScript tabs of the first and nothing else, and puts each of them
into tabs of its own; the imports are there already.
-/

namespace CodeTabs.Transpiler

open ImportPresence (tabsName tabItemName)
open Tabs (Pair)

variable {σ : Type}

/-- The tree with its imports has become the second tree, in which each block that was to be
compiled has made way for a pair of tabs that shows it. -/
structure Tabbed (t : Transpiler σ) (tree : Node) (path : Text) (pairs : List Pair)
    (left : Node) : Prop where
  shown : List.Forall₂ Pair.Shows (t.pendingIn tree path) pairs
  spliced : Node.SplicedBelow (t.injected tree).1 (pairs.map Pair.nodes) left

section Run

variable {t : Transpiler σ} {tree left : Node} {path : Text} {s s' : σ} {pairs : List Pair}

theorem map_fst_pendingIn (t : Transpiler σ) (tree : Node) (path : Text) :
    (t.pendingIn tree path).map Prod.fst =
      (Node.codeBlocksOf tree.children).filter CodeBlock.isTranspilable := by
  rw [pendingIn, pending_eq_numbered, map_fst_numbered, codeBlocksOf_injected]

theorem Tabbed.apart (h : t.Tabbed tree path pairs left) : ∀ pair ∈ pairs, pair.Apart := by
  apply Pair.apart_of_shows h.shown
  intro block hblock
  have hmem : block.1 ∈ (t.pendingIn tree path).map Prod.fst := List.mem_map_of_mem hblock
  rw [map_fst_pendingIn] at hmem
  exact (List.mem_filter.mp hmem).2

theorem Tabbed.filter_codeBlocksOf (h : t.Tabbed tree path pairs left) :
    (Node.codeBlocksOf left.children).filter CodeBlock.isTranspilable =
      pairs.map Pair.typeScript := by
  rw [h.spliced.1.filter_codeBlocksOf, List.flatMap_map, List.map_eq_flatMap]
  exact List.flatMap_congr fun pair hpair => (h.apart pair hpair).filter_codeBlocksOf

theorem Tabbed.length_codeBlocksOf (h : t.Tabbed tree path pairs left) :
    (Node.codeBlocksOf left.children).length =
      (Node.codeBlocksOf tree.children).length + pairs.length := by
  have hlength := h.spliced.1.length_codeBlocksOf
  rw [codeBlocksOf_injected, List.length_map, Tabs.length_flatMap_codeBlocksOf] at hlength
  omega

theorem Tabbed.esmValues (h : t.Tabbed tree path pairs left) :
    left.esmValues = (t.injected tree).1.esmValues := by
  have hvalues := (Node.esmValues_replace (t.injected tree).1 (statementFree_pairs pairs)).1
  rwa [h.spliced.replace_eq] at hvalues

theorem Tabbed.mentions (h : t.Tabbed tree path pairs left) (name : Text) :
    left.mentions name = (t.injected tree).1.mentions name :=
  congrArg (List.countP (Text.holdsWord name)) h.esmValues

theorem Tabbed.mentions_pos (h : t.Tabbed tree path pairs left)
    (holds : tree.children?.isSome = true)
    (tabs : Text.holdsWord tabsName t.tabsImport = true)
    (tabItem : Text.holdsWord tabItemName t.tabItemImport = true) :
    0 < left.mentions tabsName ∧ 0 < left.mentions tabItemName := by
  rw [h.mentions, h.mentions, mentions_injected_eq holds, mentions_injected_eq holds,
    Node.mentionsOf_importFor_self tree tabs, Node.mentionsOf_importFor_self tree tabItem]
  constructor
  · split <;> omega
  · split <;> omega

theorem Tabbed.injected_again (h : t.Tabbed tree path pairs left)
    (tabs : Text.holdsWord tabsName t.tabsImport = true)
    (tabItem : Text.holdsWord tabItemName t.tabItemImport = true) (t' : Transpiler σ) :
    t'.injected left = (left, 0) := by
  have hleft := h.spliced.2
  rw [injected_fst, Node.withChildren_withChildren] at hleft
  cases holds : tree.children? with
  | none =>
    rw [Node.withChildren_of_none holds] at hleft
    rw [hleft, injected, ImportPresence.inject, holds]
  | some children =>
    obtain ⟨kind, attributes, children, rfl⟩ :=
      Node.exists_parent (Option.isSome_of_eq_some holds)
    obtain ⟨htabs, htabItem⟩ := h.mentions_pos rfl tabs tabItem
    have hholds : left.children?.isSome = true := by rw [hleft]; rfl
    rw [injected_eq hholds, imports_eq_nil (Nat.ne_of_gt htabs) (Nat.ne_of_gt htabItem), hleft]
    rfl

theorem exists_tabbed_of_transformFrom {report : TransformReport} (assembles : t.AssemblesTabs)
    (accepted : t.accepts path = true)
    (h : t.transformFrom tree path s = (⟨left, .ok report⟩, s')) :
    ∃ pairs, t.Tabbed tree path pairs left ∧
      report = ⟨false, (t.injected tree).2, (Node.codeBlocksOf tree.children).length,
        pairs.length⟩ := by
  obtain ⟨replacements, succeed, rfl, rfl⟩ := exists_succeed_of_transformFrom accepted h
  obtain ⟨pairs, rfl, shown⟩ := succeed.exists_pairs assembles
  -- No replacement is missing and none is left over, as one block after another has succeeded.
  have hlength : (pairs.map Pair.nodes).length =
      (Node.codeBlocksOf (t.injected tree).1.children).countP CodeBlock.isTranspilable := by
    rw [succeed.length_eq, pendingIn, pending_eq_numbered, length_numbered]
  obtain ⟨root', spliced⟩ := Node.exists_splicedBelow hlength
  rw [spliced.replace_eq, List.length_map]
  exact ⟨pairs, ⟨shown, spliced⟩, rfl⟩

end Run

/-- When a transformed tree is transformed again, exactly the TypeScript tabs of the first run are
compiled. Each makes way for tabs of its own where it stood; the JavaScript beside it, the markup
around it and everything else stay. -/
theorem transform_again {t t' : Transpiler σ} {tree left left' : Node} {path path' : Text}
    {report report' : TransformReport} {s₁ s₂ s₃ s₄ : σ}
    (assembles : t.AssemblesTabs) (assembles' : t'.AssemblesTabs)
    (tabs : Text.holdsWord tabsName t.tabsImport = true)
    (tabItem : Text.holdsWord tabItemName t.tabItemImport = true)
    (accepted : t.accepts path = true) (accepted' : t'.accepts path' = true)
    (first : t.transformFrom tree path s₁ = (⟨left, .ok report⟩, s₂))
    (second : t'.transformFrom left path' s₃ = (⟨left', .ok report'⟩, s₄)) :
    report' = ⟨false, 0, report.codeBlocks + report.transpiled, report.transpiled⟩ ∧
      t'.injected left = (left, 0) ∧
      ∃ pairs pairs', t.Tabbed tree path pairs left ∧ t'.Tabbed left path' pairs' left' ∧
        (∀ pair ∈ pairs, pair.Apart) ∧
        (t'.pendingIn left path').map Prod.fst = pairs.map Pair.typeScript ∧
        Node.SplicedBelow (t.injected tree).1 (List.zipWith Pair.nesting pairs pairs') left' := by
  obtain ⟨pairs, tabbed, rfl⟩ := exists_tabbed_of_transformFrom assembles accepted first
  obtain ⟨pairs', tabbed', rfl⟩ := exists_tabbed_of_transformFrom assembles' accepted' second
  have hinjected := tabbed.injected_again tabs tabItem t'
  have hpending : (t'.pendingIn left path').map Prod.fst = pairs.map Pair.typeScript := by
    rw [map_fst_pendingIn, tabbed.filter_codeBlocksOf]
  have hlength : pairs'.length = pairs.length := by
    have hcount := congrArg List.length hpending
    rwa [List.length_map, List.length_map, tabbed'.shown.length_eq] at hcount
  have hspliced := tabbed'.spliced
  rw [hinjected] at hspliced
  have htwice := Tabs.splicedBelow_twice tabbed.apart tabbed.spliced hspliced
  rw [List.zipWith_map_right] at htwice
  refine ⟨?_, hinjected, pairs, pairs', tabbed, tabbed', tabbed.apart, hpending, htwice⟩
  rw [hinjected, tabbed.length_codeBlocksOf, hlength]

def rebuilding : Transpiler Nat := ofCompiler .unset (counting 0).compiler

theorem transform_again_nested :
    ∃ left left' pairs pairs',
      rebuilding.transformFrom nested "a.mdx" 0 = (⟨left, .ok ⟨false, 2, 4, 2⟩⟩, 2) ∧
      rebuilding.transformFrom left "a.mdx" 2 = (⟨left', .ok ⟨false, 0, 6, 2⟩⟩, 4) ∧
      pairs.map Pair.typeScript =
        [⟨"b", some "ts", none, none⟩, ⟨"d", some "tsx", none, none⟩] ∧
      Node.SplicedBelow (rebuilding.injected nested).1 (List.zipWith Pair.nesting pairs pairs')
        left' := by
  have assembles : rebuilding.AssemblesTabs := rfl
  have first : rebuilding.transformFrom nested "a.mdx" 0 = (⟨_, .ok ⟨false, 2, 4, 2⟩⟩, 2) := rfl
  have second : rebuilding.transformFrom (rebuilding.transformFrom nested "a.mdx" 0).1.tree "a.mdx"
      2 = (⟨_, .ok ⟨false, 0, 6, 2⟩⟩, 4) := rfl
  obtain ⟨-, -, pairs, pairs', -, -, -, hpending, htwice⟩ := transform_again assembles assembles
    (by decide) (by decide) (by decide) (by decide) first second
  exact ⟨_, _, pairs, pairs', first, second, hpending.symm, htwice⟩

end CodeTabs.Transpiler

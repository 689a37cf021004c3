import CodeTabs.Proofs.Files.Folders
import CodeTabs.Proofs.Transpiler.OnePass

/-!
The files of two blocks never have a path in common. A block is numbered among all code blocks of
its document, and the number can be read off the path of each of its files.
-/

namespace CodeTabs.Transpiler

variable {σ : Type}

theorem folder_of_mem_numbered {document : Text} {blocks : List CodeBlock} {seen : Nat}
    {b : CodeBlock × Occurrence} (h : b ∈ numbered document blocks seen) :
    b.2.folder = virtualFolder document b.2.index := by
  obtain ⟨⟨block, index⟩, -, hb⟩ := List.mem_filterMap.mp h
  obtain ⟨-, hb⟩ := Option.ite_none_right_eq_some.mp hb
  cases hb
  rfl

theorem pairwise_index_numbered (document : Text) (blocks : List CodeBlock) (seen : Nat) :
    (numbered document blocks seen).Pairwise fun b b' => b.2.index < b'.2.index := by
  have hindices : (blocks.zipIdx (seen + 1)).Pairwise fun b b' => b.2 < b'.2 := by
    have hrange : (List.range' (seen + 1) blocks.length).Pairwise (· < ·) :=
      List.pairwise_lt_range' 1
    rwa [← List.zipIdx_map_snd, List.pairwise_map] at hrange
  refine hindices.filterMap _ ?_
  rintro ⟨block, index⟩ ⟨block', index'⟩ hlt b hb b' hb'
  obtain ⟨-, hb⟩ := Option.ite_none_right_eq_some.mp hb
  obtain ⟨-, hb'⟩ := Option.ite_none_right_eq_some.mp hb'
  cases hb
  cases hb'
  exact hlt

theorem pairwise_disjoint_pendingIn (t : Transpiler σ) (tree : Node) (path : Text) :
    ((t.pendingIn tree path).map fun b => sources b.1 b.2).Pairwise
      fun files other => files.keys.Disjoint other.keys := by
  rw [List.pairwise_map, pendingIn, pending_eq_numbered]
  refine (pairwise_index_numbered _ _ _).imp_of_mem ?_
  intro b b' hb hb' hlt
  rw [sources, sources, folder_of_mem_numbered hb, folder_of_mem_numbered hb']
  exact Block.disjoint_keys_split (Nat.ne_of_lt hlt) _ _ _

/-- Whatever a document holds and however its transformation ends, no path is given to the compiler
for two blocks. -/
theorem transform_paths_disjoint (t : Transpiler σ) (tree : Node) (path : Text) (s : σ) :
    (∃ given, t.recorded.transformFrom tree path (s, []) =
        ((t.transformFrom tree path s).1, ((t.transformFrom tree path s).2, given)) ∧
      given.Pairwise fun files other => files.keys.Disjoint other.keys) ∧
    (∀ (document raw raw' : Text) (i j : Nat), i ≠ j →
      (Block.split raw (virtualFolder document i)).keys.Disjoint
        (Block.split raw' (virtualFolder document j)).keys) ∧
    ∀ (document other : Text) (i j : Nat),
      virtualFolder document i = virtualFolder other j ↔
        i = j ∧ Text.dropEndWhile (· == '/') document = Text.dropEndWhile (· == '/') other := by
  refine ⟨?_, fun document raw raw' i j h => Block.disjoint_keys_split h document raw raw',
    fun document other i j => virtualFolder_eq_iff⟩
  obtain ⟨given, hgiven, hrun⟩ := recorded_transformFrom t tree path s []
  exact ⟨given, hrun, (pairwise_disjoint_pendingIn t tree path).sublist hgiven.sublist⟩

theorem transform_nested_paths :
    (∃ given, (counting 0).recorded.transformFrom nested "a.mdx" (0, []) =
        (((counting 0).transformFrom nested "a.mdx" 0).1, (2, given)) ∧
      given.map OrderedMap.keys =
        ([["a.mdx/codeBlock_2/index.ts"], ["a.mdx/codeBlock_4/index.ts"]] : List (List Text)) ∧
      given.Pairwise fun files other => files.keys.Disjoint other.keys) ∧
    (1 ≠ 10 ∧ (Block.split "// file: 0/codeBlock_10/a.ts" (virtualFolder "a.mdx/" 1)).keys.Disjoint
      (Block.split "// file: ../codeBlock_1/a.ts" (virtualFolder "a.mdx/" 10)).keys) ∧
    virtualFolder "a.mdx//" 3 = virtualFolder "a.mdx" 3 := by
  obtain ⟨⟨given, hrun, hdisjoint⟩, hsplit, hfolder⟩ :=
    transform_paths_disjoint (counting 0) nested "a.mdx" 0
  refine ⟨⟨given, hrun, ?_, hdisjoint⟩, ⟨by decide, hsplit _ _ _ 1 10 (by decide)⟩,
    (hfolder _ _ 3 3).mpr ⟨rfl, by decide⟩⟩
  have hgiven : given = _ := (congrArg (fun r => r.2.2) hrun).symm
  rw [hgiven]
  rfl

end CodeTabs.Transpiler

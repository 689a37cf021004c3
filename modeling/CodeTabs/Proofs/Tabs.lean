import CodeTabs.Proofs.Transpiler.Run
import CodeTabs.Proofs.Tree.Spliced

/-!
A block that is shown in tabs becomes a pair of blocks. The TypeScript block of a pair is compiled
again when the document is, since it keeps language and metadata; the JavaScript block never is,
for no language is TypeScript once it has its JavaScript name.
-/

namespace CodeTabs

theorem JavaScriptNames.lang_not_typeScript (lang : Text) :
    CodeBlock.typeScriptLangs.contains (JavaScriptNames.lang lang) = false := by
  unfold JavaScriptNames.lang
  split
  · decide
  · next htsx =>
    split
    · decide
    · next hother =>
      rw [Bool.eq_false_iff, ne_eq, List.contains_iff_mem]
      intro hmem
      simp only [CodeBlock.typeScriptLangs, List.mem_cons, List.not_mem_nil, or_false] at hmem
      rcases hmem with rfl | rfl | rfl
      · exact hother (by decide)
      · exact htsx rfl
      · exact hother (by decide)

namespace Tabs

def around (first : List Node) (second : CodeBlock) : List Node :=
  .html opening :: (first ++ [.html middle, .code second, .html closing])

structure Pair where
  typeScript : CodeBlock
  javaScript : CodeBlock

namespace Pair

def nodes (pair : Pair) : List Node := around [.code pair.typeScript] pair.javaScript

/-- Tabs that hold other tabs where their TypeScript was. -/
def nesting (pair inner : Pair) : List Node := around inner.nodes pair.javaScript

def Shows (block : CodeBlock × Occurrence) (pair : Pair) : Prop :=
  ∃ typeScript javaScript : FileSet,
    pair = ⟨typeScriptBlock block.1 typeScript block.2.folder,
      javaScriptBlock block.1 javaScript block.2.folder⟩

structure Apart (pair : Pair) : Prop where
  typeScript : pair.typeScript.isTranspilable = true
  javaScript : pair.javaScript.isTranspilable = false

theorem Shows.apart {block : CodeBlock × Occurrence} {pair : Pair} (h : Shows block pair)
    (eligible : block.1.isTranspilable = true) : pair.Apart := by
  obtain ⟨typeScript, javaScript, rfl⟩ := h
  refine ⟨eligible, ?_⟩
  have hlang : (block.1.lang.map JavaScriptNames.lang).any CodeBlock.typeScriptLangs.contains =
      false := by
    cases block.1.lang with
    | none => rfl
    | some lang => exact JavaScriptNames.lang_not_typeScript lang
  rw [CodeBlock.isTranspilable, javaScriptBlock, hlang]
  rfl

theorem apart_of_shows {blocks : List (CodeBlock × Occurrence)} {pairs : List Pair}
    (h : List.Forall₂ Shows blocks pairs)
    (eligible : ∀ block ∈ blocks, block.1.isTranspilable = true) :
    ∀ pair ∈ pairs, pair.Apart := by
  induction h with
  | nil => exact fun _ h => nomatch h
  | cons hpair _ ih =>
    obtain ⟨hblock, hothers⟩ := List.forall_mem_cons.mp eligible
    exact List.forall_mem_cons.mpr ⟨hpair.apart hblock, ih hothers⟩

variable {pair : Pair}

theorem codeBlocksOf_nodes (pair : Pair) :
    Node.codeBlocksOf pair.nodes = [pair.typeScript, pair.javaScript] := rfl

theorem Apart.filter_codeBlocksOf (h : pair.Apart) :
    (Node.codeBlocksOf pair.nodes).filter CodeBlock.isTranspilable = [pair.typeScript] := by
  simp [codeBlocksOf_nodes, h.typeScript, h.javaScript]

theorem Apart.of_spliced (h : pair.Apart) {queue : List (List Node)} {result : List Node}
    (hspliced : Node.Spliced pair.nodes queue result) :
    ∃ first, queue = [first] ∧ result = around first pair.javaScript := by
  have kept : (Node.code pair.javaScript).isKept = true := by simp [Node.isKept, h.javaScript]
  obtain ⟨_, rfl, hbody⟩ := (Node.spliced_keep_iff rfl).mp hspliced
  obtain ⟨first, others, _, rfl, rfl, htail⟩ := (Node.spliced_block_iff h.typeScript).mp hbody
  obtain ⟨_, rfl, hsecond⟩ := (Node.spliced_keep_iff rfl).mp htail
  obtain ⟨_, rfl, hclosing⟩ := (Node.spliced_keep_iff kept).mp hsecond
  obtain ⟨_, rfl, hend⟩ := (Node.spliced_keep_iff rfl).mp hclosing
  obtain ⟨rfl, rfl⟩ := Node.spliced_nil_iff.mp hend
  exact ⟨first, rfl, rfl⟩

end Pair

variable {pairs : List Pair}

theorem length_flatMap_codeBlocksOf (pairs : List Pair) :
    ((pairs.map Pair.nodes).flatMap Node.codeBlocksOf).length = 2 * pairs.length := by
  induction pairs with
  | nil => rfl
  | cons pair others ih =>
    rw [List.map_cons, List.flatMap_cons, Pair.codeBlocksOf_nodes, List.length_append, ih]
    simp only [List.length_cons, List.length_nil]
    omega

theorem map_snd_parts {parts : List (List (List Node) × List Node)}
    (apart : ∀ pair ∈ pairs, pair.Apart)
    (h : List.Forall₂ (fun pair part => Node.Spliced pair.nodes part.1 part.2) pairs parts) :
    parts.map Prod.snd = List.zipWith (fun pair first => around first pair.javaScript) pairs
      (parts.map Prod.fst).flatten := by
  induction h with
  | nil => rfl
  | @cons pair part _ _ hpair _ ih =>
    obtain ⟨hapart, hothers⟩ := List.forall_mem_cons.mp apart
    obtain ⟨first, hfirst, hresult⟩ := hapart.of_spliced hpair
    rw [List.map_cons, List.map_cons, List.flatten_cons, hfirst, hresult, ih hothers]
    rfl

theorem spliced_twice {nodes middle result : List Node} {queue : List (List Node)}
    (apart : ∀ pair ∈ pairs, pair.Apart)
    (h : Node.Spliced nodes (pairs.map Pair.nodes) middle)
    (h' : Node.Spliced middle queue result) :
    Node.Spliced nodes (List.zipWith (fun pair first => around first pair.javaScript) pairs queue)
      result := by
  obtain ⟨parts, hparts, rfl, hresult⟩ := h.trans h'
  rw [List.forall₂_map_left_iff] at hparts
  rwa [map_snd_parts apart hparts] at hresult

theorem splicedBelow_twice {root middle root' : Node} {queue : List (List Node)}
    (apart : ∀ pair ∈ pairs, pair.Apart)
    (h : Node.SplicedBelow root (pairs.map Pair.nodes) middle)
    (h' : Node.SplicedBelow middle queue root') :
    Node.SplicedBelow root
      (List.zipWith (fun pair first => around first pair.javaScript) pairs queue) root' := by
  refine ⟨spliced_twice apart h.1 h'.1, ?_⟩
  have hroot := h'.2
  rwa [h.2, Node.withChildren_withChildren] at hroot

end Tabs

namespace Transpiler

variable {σ : Type} {t : Transpiler σ} {document : Text} {s s' : σ}

def AssemblesTabs (t : Transpiler σ) : Prop :=
  t.assembler = fun input =>
    pure (Tabs.nodes input.block input.folder input.typeScript input.javaScript)

theorem Succeed.exists_pairs {blocks : List (CodeBlock × Occurrence)}
    {replacements : List (List Node)} (assembles : t.AssemblesTabs)
    (succeed : t.Succeed document blocks s replacements s') :
    ∃ pairs : List Tabs.Pair, replacements = pairs.map Tabs.Pair.nodes ∧
      List.Forall₂ Tabs.Pair.Shows blocks pairs := by
  induction succeed with
  | nil => exact ⟨[], rfl, .nil⟩
  | cons first _ ih =>
    obtain ⟨typeScript, javaScript, s₁, hnodes⟩ := processBlock_ok first
    rw [assembles] at hnodes
    cases hnodes
    obtain ⟨pairs, rfl, shows⟩ := ih
    exact ⟨_ :: pairs, rfl, .cons ⟨typeScript, javaScript, rfl⟩ shows⟩

end Transpiler

end CodeTabs

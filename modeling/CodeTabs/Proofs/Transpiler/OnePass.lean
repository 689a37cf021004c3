import CodeTabs.Proofs.Transpiler.Recorded

/-!
A document could be transformed in one walk that numbers the code blocks as it meets them, processes
a block where it stands and goes on behind the nodes that it put there. The two walks that are made
instead, one to collect the blocks and one to replace them, come to the same.
-/

namespace CodeTabs.Transpiler

open CodeTabs.Action

variable {σ : Type}

mutual

/-- The nodes that take the place of a node, and the number of code blocks up to its end when
`seen` stand before it. -/
def walk (t : Transpiler σ) (document : Text) :
    Node → (seen : Nat) → Action σ Failure (List Node × Nat)
  | .code block, seen =>
    if block.isTranspilable then do
      let nodes ← t.processBlock document block (.ofBlock block (seen + 1) document)
      return (nodes, seen + 1)
    else return ([.code block], seen + 1)
  | .esm block, seen => return ([.esm block], seen)
  | .leaf kind attributes, seen => return ([.leaf kind attributes], seen)
  | .parent kind attributes children, seen => do
    let (children, seen) ← walkAll t document children seen
    return ([.parent kind attributes children], seen)

def walkAll (t : Transpiler σ) (document : Text) :
    List Node → (seen : Nat) → Action σ Failure (List Node × Nat)
  | [], seen => return ([], seen)
  | node :: rest, seen => do
    let (nodes, seen) ← walk t document node seen
    let (others, seen) ← walkAll t document rest seen
    return (nodes ++ others, seen)

end

def onePass (t : Transpiler σ) (document : Text) (root : Node) : Action σ Failure (Node × Nat) := do
  let (children, count) ← t.walkAll document root.children 0
  return (root.withChildren children, count)

/-- The blocks to be compiled among some blocks before which `seen` code blocks stand. -/
def numbered (document : Text) (blocks : List CodeBlock) (seen : Nat) :
    List (CodeBlock × Occurrence) :=
  (blocks.zipIdx (seen + 1)).filterMap fun (block, index) =>
    if block.isTranspilable then some (block, .ofBlock block index document) else none

theorem pending_eq_numbered (root : Node) (document : Text) :
    root.pending document = numbered document (Node.codeBlocksOf root.children) 0 := rfl

theorem numbered_append (document : Text) (first second : List CodeBlock) (seen : Nat) :
    numbered document (first ++ second) seen =
      numbered document first seen ++ numbered document second (seen + first.length) := by
  simp only [numbered, List.zipIdx_append, List.filterMap_append, Nat.add_right_comm]

theorem map_fst_numbered (document : Text) (blocks : List CodeBlock) (seen : Nat) :
    (numbered document blocks seen).map Prod.fst = blocks.filter CodeBlock.isTranspilable := by
  induction blocks generalizing seen with
  | nil => rfl
  | cons block rest ih =>
    have hrest := ih (seen + 1)
    simp only [numbered] at hrest
    cases h : block.isTranspilable <;> simp [numbered, h, hrest]

theorem length_numbered (document : Text) (blocks : List CodeBlock) (seen : Nat) :
    (numbered document blocks seen).length = blocks.countP CodeBlock.isTranspilable := by
  rw [List.countP_eq_length_filter, ← map_fst_numbered document blocks seen, List.length_map]

variable {t : Transpiler σ} {document : Text}

mutual

theorem walk_of_succeed (node : Node) {seen : Nat} {s s' : σ} {replacements : List (List Node)}
    (h : t.Succeed document (numbered document node.codeBlocks seen) s replacements s') :
    ∃ nodes, runFrom (t.walk document node seen) s =
        (.ok (nodes, seen + node.codeBlocks.length), s') ∧
      ∀ rest queue, Node.replaceAll (node :: rest) (replacements ++ queue) =
        (nodes ++ (Node.replaceAll rest queue).1, (Node.replaceAll rest queue).2) := by
  cases node with
  | code block =>
    simp only [Node.codeBlocks, numbered, List.zipIdx_cons, List.zipIdx_nil] at h
    cases eligible : block.isTranspilable with
    | false =>
      simp only [List.filterMap_cons, eligible, Bool.false_eq_true, if_false,
        List.filterMap_nil] at h
      cases h
      refine ⟨[.code block], by simp [walk, eligible, Node.codeBlocks], fun rest queue => ?_⟩
      simp [Node.replaceAll, eligible]
    | true =>
      simp only [List.filterMap_cons, eligible, if_true, List.filterMap_nil] at h
      obtain _ | @⟨_, _, _, nodes, _, _, _, _, first, ⟨⟩⟩ := h
      refine ⟨nodes, ?_, fun rest queue => ?_⟩
      · rw [walk, if_pos eligible, runFrom_bind, first]
        rfl
      · simp [Node.replaceAll, eligible]
  | esm block =>
    cases h
    exact ⟨[.esm block], rfl, fun _ _ => rfl⟩
  | leaf kind attributes =>
    cases h
    exact ⟨[.leaf kind attributes], rfl, fun _ _ => rfl⟩
  | parent kind attributes children =>
    obtain ⟨result, hwalk, hreplace⟩ := walkAll_of_succeed children h
    refine ⟨[.parent kind attributes result], ?_, fun rest queue => ?_⟩
    · rw [walk, runFrom_bind, hwalk]
      rfl
    · simp [Node.replaceAll, Node.replace, hreplace]

theorem walkAll_of_succeed (nodes : List Node) {seen : Nat} {s s' : σ}
    {replacements : List (List Node)}
    (h : t.Succeed document (numbered document (Node.codeBlocksOf nodes) seen) s replacements s') :
    ∃ result, runFrom (t.walkAll document nodes seen) s =
        (.ok (result, seen + (Node.codeBlocksOf nodes).length), s') ∧
      ∀ queue, Node.replaceAll nodes (replacements ++ queue) = (result, queue) := by
  cases nodes with
  | nil =>
    cases h
    exact ⟨[], rfl, fun _ => rfl⟩
  | cons node rest =>
    rw [Node.codeBlocksOf, numbered_append, succeed_append_iff] at h
    obtain ⟨first, second, s₁, rfl, hfirst, hsecond⟩ := h
    obtain ⟨nodes, hwalk, hreplace⟩ := walk_of_succeed node hfirst
    obtain ⟨others, hwalks, hreplaces⟩ := walkAll_of_succeed rest hsecond
    refine ⟨nodes ++ others, ?_, fun queue => ?_⟩
    · have hcount : seen + (node.codeBlocks ++ Node.codeBlocksOf rest).length =
          seen + node.codeBlocks.length + (Node.codeBlocksOf rest).length := by
        rw [List.length_append, Nat.add_assoc]
      rw [Node.codeBlocksOf, hcount, walkAll, runFrom_bind, hwalk]
      exact runFrom_bind_ok_iff.mpr ⟨_, _, hwalks, rfl⟩
    · rw [List.append_assoc, hreplace, hreplaces]

end

theorem onePass_of_succeed (root : Node) {s s' : σ} {replacements : List (List Node)}
    (h : t.Succeed document (root.pending document) s replacements s') :
    ∃ result, runFrom (t.onePass document root) s =
        (.ok (result, (Node.codeBlocksOf root.children).length), s') ∧
      root.replace replacements = (result, []) := by
  rw [pending_eq_numbered] at h
  obtain ⟨children, hwalk, hreplace⟩ := walkAll_of_succeed root.children h
  have hqueue := hreplace []
  rw [List.append_nil] at hqueue
  refine ⟨root.withChildren children, ?_, ?_⟩
  · rw [onePass, runFrom_bind, hwalk, Nat.zero_add]
    rfl
  · rw [Node.replace_eq, hqueue]

/-- When all blocks of a document succeed, the tree is the one of the single walk, nothing is left
of the queue, and the compiler has been given the files of each block once and in order. -/
theorem transform_eq_onePass {tree : Node} {path : Text} {s s' : σ}
    {replacements : List (List Node)} (accepted : t.accepts path = true)
    (succeed : t.Succeed (t.relocate path) (t.pendingIn tree path) s replacements s') :
    ∃ result,
      runFrom (t.onePass (t.relocate path) (t.injected tree).1) s =
        (.ok (result, (Node.codeBlocksOf tree.children).length), s') ∧
      (t.injected tree).1.replace replacements = (result, []) ∧
      t.transformFrom tree path s =
        (⟨result, .ok ⟨false, (t.injected tree).2, (Node.codeBlocksOf tree.children).length,
          (Node.codeBlocksOf tree.children).countP CodeBlock.isTranspilable⟩⟩, s') ∧
      ∀ record, t.recorded.transformFrom tree path (s, record) =
        (⟨result, .ok ⟨false, (t.injected tree).2, (Node.codeBlocksOf tree.children).length,
          (Node.codeBlocksOf tree.children).countP CodeBlock.isTranspilable⟩⟩,
          (s', record ++ (t.pendingIn tree path).map fun b => sources b.1 b.2)) := by
  obtain ⟨result, hwalk, hreplace⟩ := onePass_of_succeed (t.injected tree).1 succeed
  have hlength : replacements.length =
      (Node.codeBlocksOf tree.children).countP CodeBlock.isTranspilable := by
    rw [succeed.length_eq, pendingIn, pending_eq_numbered, length_numbered, codeBlocksOf_injected]
  have hconclude : t.conclude tree (.ok replacements) =
      ⟨result, .ok ⟨false, (t.injected tree).2, (Node.codeBlocksOf tree.children).length,
        (Node.codeBlocksOf tree.children).countP CodeBlock.isTranspilable⟩⟩ := by
    rw [conclude, hreplace, hlength, codeBlocksOf_injected]
  rw [codeBlocksOf_injected] at hwalk
  refine ⟨result, hwalk, hreplace, ?_, fun record => ?_⟩
  · rw [transformFrom_of_succeed accepted succeed, hconclude]
  · have hrecorded : t.recorded.transformFrom tree path (s, record) =
        (t.recorded.conclude tree (.ok replacements), _) :=
      transformFrom_of_succeed accepted (succeed.recorded record)
    rw [hrecorded, ← hconclude]
    rfl

theorem transform_nested :
    (counting 0).Succeed "a.mdx" ((counting 0).pendingIn nested "a.mdx") 0
        [[.text "a.mdx/codeBlock_2"], [.text "a.mdx/codeBlock_4"]] 2 ∧
      ∃ result, runFrom ((counting 0).onePass "a.mdx" ((counting 0).injected nested).1) 0 =
          (.ok (result, 4), 2) ∧
        (counting 0).transformFrom nested "a.mdx" 0 = (⟨result, .ok ⟨false, 2, 4, 2⟩⟩, 2) ∧
        result.children.drop 2 = [.code ⟨"a", some "js", none, none⟩,
          .parent "list" [] [.text "a.mdx/codeBlock_2",
            .code ⟨"c", some "ts", some "no-transpile", none⟩],
          .text "a.mdx/codeBlock_4"] := by
  have succeed : (counting 0).Succeed "a.mdx" ((counting 0).pendingIn nested "a.mdx") 0
      [[.text "a.mdx/codeBlock_2"], [.text "a.mdx/codeBlock_4"]] 2 := .cons rfl (.cons rfl (.nil 2))
  have accepted : (counting 0).accepts "a.mdx" = true := by decide
  obtain ⟨result, hwalk, hreplace, htransform, _⟩ := transform_eq_onePass accepted succeed
  have hresult : result = _ := (congrArg Prod.fst hreplace).symm
  refine ⟨succeed, result, hwalk, htransform, ?_⟩
  rw [hresult]
  rfl

end CodeTabs.Transpiler

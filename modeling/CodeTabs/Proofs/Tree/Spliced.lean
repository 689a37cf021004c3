import CodeTabs.Tree.Replace
import Mathlib.Data.List.Forall2

/-!
Nodes with other nodes in the place of their eligible blocks. `Spliced` says this of the nodes
before and after and of what stands for each block, without a queue that is handed on. Replacing
twice is replacing once, by what becomes of the first replacements in the second.
-/

namespace CodeTabs.Node

def isKept : Node → Bool
  | .code block => !block.isTranspilable
  | .esm _ => true
  | .leaf _ _ => true
  | .parent _ _ _ => false

/-- The second nodes are the first ones, in their order and with what they hold, but for the
eligible blocks at any depth: each has made way for one of the lists, the first for the first. -/
inductive Spliced : List Node → List (List Node) → List Node → Prop
  | nil : Spliced [] [] []
  | block {block : CodeBlock} {nodes rest result : List Node} {queue : List (List Node)}
      (eligible : block.isTranspilable = true) (hrest : Spliced rest queue result) :
      Spliced (.code block :: rest) (nodes :: queue) (nodes ++ result)
  | keep {node : Node} {rest result : List Node} {queue : List (List Node)}
      (kept : node.isKept = true) (hrest : Spliced rest queue result) :
      Spliced (node :: rest) queue (node :: result)
  | parent {kind : Text} {attributes : Attributes} {children inner rest result : List Node}
      {first second : List (List Node)} (hchildren : Spliced children first inner)
      (hrest : Spliced rest second result) :
      Spliced (.parent kind attributes children :: rest) (first ++ second)
        (.parent kind attributes inner :: result)

theorem codeBlocksOf_append (first second : List Node) :
    codeBlocksOf (first ++ second) = codeBlocksOf first ++ codeBlocksOf second := by
  induction first with
  | nil => rfl
  | cons node rest ih => rw [List.cons_append, codeBlocksOf, codeBlocksOf, ih, List.append_assoc]

section Inversion

variable {node : Node} {block : CodeBlock} {rest result : List Node} {queue : List (List Node)}

theorem spliced_nil_iff : Spliced [] queue result ↔ queue = [] ∧ result = [] := by
  constructor
  · intro h
    cases h
    exact ⟨rfl, rfl⟩
  · rintro ⟨rfl, rfl⟩
    exact .nil

theorem spliced_keep_iff (kept : node.isKept = true) :
    Spliced (node :: rest) queue result ↔
      ∃ later, result = node :: later ∧ Spliced rest queue later := by
  constructor
  · intro h
    cases h with
    | block eligible => simp [isKept, eligible] at kept
    | keep _ hrest => exact ⟨_, rfl, hrest⟩
    | parent => cases kept
  · rintro ⟨later, rfl, hrest⟩
    exact .keep kept hrest

theorem spliced_block_iff (eligible : block.isTranspilable = true) :
    Spliced (.code block :: rest) queue result ↔ ∃ nodes others later,
      queue = nodes :: others ∧ result = nodes ++ later ∧ Spliced rest others later := by
  constructor
  · intro h
    cases h with
    | block _ hrest => exact ⟨_, _, _, rfl, rfl, hrest⟩
    | keep kept => simp [isKept, eligible] at kept
  · rintro ⟨nodes, others, later, rfl, rfl, hrest⟩
    exact .block eligible hrest

theorem spliced_parent_iff {kind : Text} {attributes : Attributes} {children : List Node} :
    Spliced (.parent kind attributes children :: rest) queue result ↔
      ∃ first second inner later, queue = first ++ second ∧
        result = .parent kind attributes inner :: later ∧ Spliced children first inner ∧
        Spliced rest second later := by
  constructor
  · intro h
    cases h with
    | keep kept => cases kept
    | parent hchildren hrest => exact ⟨_, _, _, _, rfl, rfl, hchildren, hrest⟩
  · rintro ⟨first, second, inner, later, rfl, rfl, hchildren, hrest⟩
    exact .parent hchildren hrest

theorem Spliced.exists_append {first second : List Node}
    (h : Spliced (first ++ second) queue result) : ∃ before after left right,
      queue = before ++ after ∧ result = left ++ right ∧ Spliced first before left ∧
        Spliced second after right := by
  induction first generalizing queue result with
  | nil => exact ⟨[], queue, [], result, rfl, rfl, .nil, h⟩
  | cons node rest ih =>
    rw [List.cons_append] at h
    cases h with
    | @block block nodes _ _ _ eligible hrest =>
      obtain ⟨before, after, left, right, rfl, rfl, hbefore, hafter⟩ := ih hrest
      exact ⟨nodes :: before, after, nodes ++ left, right, rfl, by rw [List.append_assoc],
        .block eligible hbefore, hafter⟩
    | keep kept hrest =>
      obtain ⟨before, after, left, right, rfl, rfl, hbefore, hafter⟩ := ih hrest
      exact ⟨before, after, node :: left, right, rfl, rfl, .keep kept hbefore, hafter⟩
    | @parent kind attributes _ inner _ _ top _ hchildren hrest =>
      obtain ⟨before, after, left, right, rfl, rfl, hbefore, hafter⟩ := ih hrest
      exact ⟨top ++ before, after, .parent kind attributes inner :: left, right,
        by rw [List.append_assoc], rfl, .parent hchildren hbefore, hafter⟩

end Inversion

section Run

variable {nodes result : List Node} {queue : List (List Node)}

theorem replaceAll_keep {node : Node} (kept : node.isKept = true) (rest : List Node)
    (queue : List (List Node)) : replaceAll (node :: rest) queue =
      (node :: (replaceAll rest queue).1, (replaceAll rest queue).2) := by
  cases node with
  | code block =>
    have hblock : block.isTranspilable = false := by simpa [isKept] using kept
    simp [replaceAll, hblock]
  | esm => rfl
  | leaf => rfl
  | parent => cases kept

theorem Spliced.replaceAll_eq (h : Spliced nodes queue result) (later : List (List Node)) :
    replaceAll nodes (queue ++ later) = (result, later) := by
  induction h generalizing later with
  | nil => rfl
  | block eligible _ ih => simp [replaceAll, eligible, ih]
  | keep kept _ ih => rw [replaceAll_keep kept, ih]
  | parent _ _ hchildren hrest => simp [replaceAll, replace, hchildren, hrest]

theorem exists_spliced : ∀ (nodes : List Node) (queue : List (List Node)),
    queue.length = (codeBlocksOf nodes).countP CodeBlock.isTranspilable →
      ∃ result, Spliced nodes queue result
  | [], queue, h => by
    obtain rfl := List.eq_nil_of_length_eq_zero h
    exact ⟨[], .nil⟩
  | .code block :: rest, queue, h => by
    cases eligible : block.isTranspilable with
    | true =>
      cases queue with
      | nil => simp [codeBlocksOf, codeBlocks, eligible] at h
      | cons nodes queue =>
        simp only [codeBlocksOf, codeBlocks, List.countP_append, List.countP_singleton, eligible,
          if_true, List.length_cons] at h
        obtain ⟨result, hresult⟩ := exists_spliced rest queue (by omega)
        exact ⟨_, .block eligible hresult⟩
    | false =>
      obtain ⟨result, hresult⟩ := exists_spliced rest queue (by
        simpa [codeBlocksOf, codeBlocks, eligible] using h)
      exact ⟨_, .keep (by simp [isKept, eligible]) hresult⟩
  | .esm block :: rest, queue, h => by
    obtain ⟨result, hresult⟩ := exists_spliced rest queue h
    exact ⟨_, .keep rfl hresult⟩
  | .leaf kind attributes :: rest, queue, h => by
    obtain ⟨result, hresult⟩ := exists_spliced rest queue h
    exact ⟨_, .keep rfl hresult⟩
  | .parent kind attributes children :: rest, queue, h => by
    have hsum : queue.length = (codeBlocksOf children).countP CodeBlock.isTranspilable +
        (codeBlocksOf rest).countP CodeBlock.isTranspilable := by
      rw [h, codeBlocksOf, List.countP_append]
      rfl
    -- The first replacements are for the blocks below the node, as many as there are.
    obtain ⟨inner, hinner⟩ := exists_spliced children
      (queue.take ((codeBlocksOf children).countP CodeBlock.isTranspilable)) (by
        rw [List.length_take]
        omega)
    obtain ⟨result, hresult⟩ := exists_spliced rest
      (queue.drop ((codeBlocksOf children).countP CodeBlock.isTranspilable)) (by
        rw [List.length_drop]
        omega)
    refine ⟨.parent kind attributes inner :: result, ?_⟩
    rw [← List.take_append_drop ((codeBlocksOf children).countP CodeBlock.isTranspilable) queue]
    exact .parent hinner hresult

end Run

section Blocks

variable {nodes result : List Node} {queue : List (List Node)}

theorem filter_codeBlocks_of_isKept {node : Node} (kept : node.isKept = true) :
    node.codeBlocks.filter CodeBlock.isTranspilable = [] := by
  cases node with
  | code block =>
    have hblock : block.isTranspilable = false := by simpa [isKept] using kept
    simp [codeBlocks, hblock]
  | esm => rfl
  | leaf => rfl
  | parent => cases kept

theorem Spliced.filter_codeBlocksOf (h : Spliced nodes queue result) :
    (codeBlocksOf result).filter CodeBlock.isTranspilable =
      queue.flatMap fun nodes => (codeBlocksOf nodes).filter CodeBlock.isTranspilable := by
  induction h with
  | nil => rfl
  | block _ _ ih => rw [codeBlocksOf_append, List.filter_append, ih, List.flatMap_cons]
  | keep kept _ ih =>
    rw [codeBlocksOf, List.filter_append, filter_codeBlocks_of_isKept kept, ih, List.nil_append]
  | parent _ _ hchildren hrest =>
    rw [codeBlocksOf, codeBlocks, List.filter_append, hchildren, hrest, List.flatMap_append]

theorem Spliced.length_codeBlocksOf (h : Spliced nodes queue result) :
    (codeBlocksOf result).length + queue.length =
      (codeBlocksOf nodes).length + (queue.flatMap codeBlocksOf).length := by
  induction h with
  | nil => rfl
  | block _ _ ih =>
    simp only [codeBlocksOf_append, codeBlocksOf, codeBlocks, List.length_append, List.length_cons,
      List.length_nil, List.flatMap_cons]
    omega
  | keep _ _ ih =>
    simp only [codeBlocksOf, List.length_append]
    omega
  | parent _ _ hchildren hrest =>
    simp only [codeBlocksOf, codeBlocks, List.length_append, List.flatMap_append]
    omega

end Blocks

theorem Spliced.trans {nodes middle result : List Node} {queue queue' : List (List Node)}
    (h : Spliced nodes queue middle) (h' : Spliced middle queue' result) :
    ∃ parts : List (List (List Node) × List Node),
      List.Forall₂ (fun nodes part => Spliced nodes part.1 part.2) queue parts ∧
        queue' = (parts.map Prod.fst).flatten ∧ Spliced nodes (parts.map Prod.snd) result := by
  induction h generalizing queue' result with
  | nil =>
    obtain ⟨rfl, rfl⟩ := spliced_nil_iff.mp h'
    exact ⟨[], .nil, rfl, .nil⟩
  | block eligible _ ih =>
    obtain ⟨first, second, left, right, rfl, rfl, hfirst, hsecond⟩ := h'.exists_append
    obtain ⟨parts, hparts, rfl, hresult⟩ := ih hsecond
    exact ⟨(first, left) :: parts, .cons hfirst hparts, rfl, .block eligible hresult⟩
  | keep kept _ ih =>
    obtain ⟨later, rfl, hlater⟩ := (spliced_keep_iff kept).mp h'
    obtain ⟨parts, hparts, rfl, hresult⟩ := ih hlater
    exact ⟨parts, hparts, rfl, .keep kept hresult⟩
  | parent _ _ hchildren hrest =>
    -- The second queue divides where the children end, for the first one did.
    obtain ⟨first, second, inner, later, rfl, rfl, hinner, hlater⟩ := spliced_parent_iff.mp h'
    obtain ⟨parts, hparts, rfl, hresult⟩ := hchildren hinner
    obtain ⟨parts', hparts', rfl, hresult'⟩ := hrest hlater
    refine ⟨parts ++ parts', List.rel_append hparts hparts', by simp, ?_⟩
    rw [List.map_append]
    exact .parent hresult hresult'

def SplicedBelow (root : Node) (queue : List (List Node)) (root' : Node) : Prop :=
  Spliced root.children queue root'.children ∧ root' = root.withChildren root'.children

section Below

variable {root root' : Node} {queue : List (List Node)}

theorem SplicedBelow.replace_eq (h : SplicedBelow root queue root') :
    root.replace queue = (root', []) := by
  have hqueue := h.1.replaceAll_eq []
  rw [List.append_nil] at hqueue
  rw [Node.replace_eq, hqueue, ← h.2]

theorem exists_splicedBelow
    (h : queue.length = (codeBlocksOf root.children).countP CodeBlock.isTranspilable) :
    ∃ root', SplicedBelow root queue root' := by
  obtain ⟨result, hresult⟩ := exists_spliced root.children queue h
  refine ⟨root.withChildren result, ?_⟩
  cases hholds : root.children? with
  | none =>
    rw [children_of_none hholds] at hresult
    obtain ⟨rfl, rfl⟩ := spliced_nil_iff.mp hresult
    rw [withChildren_of_none hholds]
    refine ⟨?_, (withChildren_of_none hholds _).symm⟩
    rw [children_of_none hholds]
    exact .nil
  | some children =>
    obtain ⟨_, _, _, rfl⟩ := exists_parent (Option.isSome_of_eq_some hholds)
    exact ⟨hresult, rfl⟩

end Below

end CodeTabs.Node

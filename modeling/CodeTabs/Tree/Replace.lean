import CodeTabs.Occurrence

/-!
Compiled blocks are replaced in one walk over the tree that takes the replacements from a queue.
The walk meets the blocks in the order in which they were numbered, and never enters what it has
put in.
-/

namespace CodeTabs.Node

def pending (root : Node) (document : Text) : List (CodeBlock × Occurrence) :=
  ((codeBlocksOf root.children).zipIdx 1).filterMap fun (block, index) =>
    if block.isTranspilable then some (block, .ofBlock block index document) else none

mutual

/-- Replace the blocks below a node; the rest of the queue comes with the node. -/
def replace : Node → List (List Node) → Node × List (List Node)
  | .parent kind attributes children, queue =>
    let (children, queue) := replaceAll children queue
    (.parent kind attributes children, queue)
  | .code block, queue => (.code block, queue)
  | .esm block, queue => (.esm block, queue)
  | .leaf kind attributes, queue => (.leaf kind attributes, queue)

def replaceAll : List Node → List (List Node) → List Node × List (List Node)
  | [], queue => ([], queue)
  | .code block :: rest, queue =>
    match block.isTranspilable, queue with
    | true, nodes :: queue =>
      let (rest, queue) := replaceAll rest queue
      (nodes ++ rest, queue)
    | _, queue =>
      let (rest, queue) := replaceAll rest queue
      (.code block :: rest, queue)
  | node :: rest, queue =>
    let (node, queue) := replace node queue
    let (rest, queue) := replaceAll rest queue
    (node :: rest, queue)

end

theorem replace_eq (node : Node) (queue : List (List Node)) :
    node.replace queue = (node.withChildren (replaceAll node.children queue).1,
      (replaceAll node.children queue).2) := by
  cases node <;> rfl

end CodeTabs.Node

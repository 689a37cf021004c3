import CodeTabs.Json.Basic

/-!
The tree of a document. Only code blocks, module statements and children are looked into; what
else a node carries stays with it as it came.
-/

namespace CodeTabs

structure Place where
  line : Nat
  column : Nat
  offset : Nat
deriving DecidableEq

structure Span where
  start : Place
  stop : Place
deriving DecidableEq

structure CodeBlock where
  value : Text
  lang : Option Text
  metadata : Option Text
  span : Option Span
deriving DecidableEq

/-- A block of module statements. The stops relate places in the value to the document. -/
structure EsmBlock where
  value : Text
  span : Option Span
  stops : List (Nat × Nat)
deriving DecidableEq

abbrev Attributes := List (Text × Json)

inductive Node
  | code (block : CodeBlock)
  | esm (block : EsmBlock)
  | leaf (kind : Text) (attributes : Attributes)
  | parent (kind : Text) (attributes : Attributes) (children : List Node)

namespace Node

def children? : Node → Option (List Node)
  | .parent _ _ children => some children
  | _ => none

def children (node : Node) : List Node := node.children?.getD []

/-- The same node over other children; a node that holds none is left alone. -/
def withChildren (children : List Node) : Node → Node
  | .parent kind attributes _ => .parent kind attributes children
  | node => node

theorem exists_parent {node : Node} (h : node.children?.isSome = true) :
    ∃ kind attributes children, node = .parent kind attributes children := by
  cases node with
  | parent kind attributes children => exact ⟨kind, attributes, children, rfl⟩
  | code => cases h
  | esm => cases h
  | leaf => cases h

theorem children_of_none {node : Node} (h : node.children? = none) : node.children = [] := by
  rw [children, h]
  rfl

theorem withChildren_of_none {node : Node} (h : node.children? = none) (nodes : List Node) :
    node.withChildren nodes = node := by
  cases node with
  | parent => cases h
  | code => rfl
  | esm => rfl
  | leaf => rfl

theorem withChildren_withChildren (node : Node) (first second : List Node) :
    (node.withChildren first).withChildren second = node.withChildren second := by
  cases node <;> rfl

def literal (kind value : Text) : Node := .leaf kind [("value", .string value)]

def html (value : Text) : Node := literal "html" value
def text (value : Text) : Node := literal "text" value

mutual

def codeBlocks : Node → List CodeBlock
  | .code block => [block]
  | .esm _ => []
  | .leaf _ _ => []
  | .parent _ _ children => codeBlocksOf children

def codeBlocksOf : List Node → List CodeBlock
  | [] => []
  | node :: rest => codeBlocks node ++ codeBlocksOf rest

end

mutual

def esmValues : Node → List Text
  | .code _ => []
  | .esm block => [block.value]
  | .leaf _ _ => []
  | .parent _ _ children => esmValuesOf children

def esmValuesOf : List Node → List Text
  | [] => []
  | node :: rest => esmValues node ++ esmValuesOf rest

end

end Node

end CodeTabs

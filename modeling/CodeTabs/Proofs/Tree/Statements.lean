import CodeTabs.Tree.Replace

/-!
Replacing code blocks leaves the module statements of a tree as they are, in number, in text and in
order, when what is put in holds none. The statements of a tree are those of any node in it and
those around this node.
-/

namespace CodeTabs.Node

theorem esmValuesOf_append (first second : List Node) :
    esmValuesOf (first ++ second) = esmValuesOf first ++ esmValuesOf second := by
  induction first with
  | nil => rfl
  | cons node rest ih => rw [List.cons_append, esmValuesOf, esmValuesOf, ih, List.append_assoc]

def StatementFree (queue : List (List Node)) : Prop := ∀ nodes ∈ queue, esmValuesOf nodes = []

mutual

theorem esmValues_replace (node : Node) {queue : List (List Node)} (h : StatementFree queue) :
    (node.replace queue).1.esmValues = node.esmValues ∧ StatementFree (node.replace queue).2 := by
  cases node with
  | parent kind attributes children => exact esmValuesOf_replaceAll children h
  | code block => exact ⟨rfl, h⟩
  | esm block => exact ⟨rfl, h⟩
  | leaf kind attributes => exact ⟨rfl, h⟩

theorem esmValuesOf_replaceAll (nodes : List Node) {queue : List (List Node)}
    (h : StatementFree queue) :
    esmValuesOf (replaceAll nodes queue).1 = esmValuesOf nodes ∧
      StatementFree (replaceAll nodes queue).2 := by
  cases nodes with
  | nil => exact ⟨rfl, h⟩
  | cons node rest =>
    cases node with
    | code block =>
      obtain ⟨hrest, hqueue⟩ := esmValuesOf_replaceAll rest h
      cases eligible : block.isTranspilable with
      | false => simpa [replaceAll, eligible, esmValuesOf, esmValues] using ⟨hrest, hqueue⟩
      | true =>
        cases queue with
        | nil => simpa [replaceAll, eligible, esmValuesOf, esmValues] using ⟨hrest, hqueue⟩
        | cons nodes queue =>
          obtain ⟨hrest, hqueue⟩ := esmValuesOf_replaceAll rest (List.forall_mem_cons.mp h).2
          simpa [replaceAll, eligible, esmValuesOf, esmValues, esmValuesOf_append,
            (List.forall_mem_cons.mp h).1] using ⟨hrest, hqueue⟩
    | esm block =>
      obtain ⟨hrest, hqueue⟩ := esmValuesOf_replaceAll rest h
      exact ⟨congrArg (block.value :: ·) hrest, hqueue⟩
    | leaf kind attributes => exact esmValuesOf_replaceAll rest h
    | parent kind attributes children =>
      obtain ⟨hnode, hleft⟩ := esmValues_replace (.parent kind attributes children) h
      obtain ⟨hrest, hqueue⟩ := esmValuesOf_replaceAll rest hleft
      have hstep : (replaceAll (.parent kind attributes children :: rest) queue).1 =
          ((parent kind attributes children).replace queue).1 ::
            (replaceAll rest ((parent kind attributes children).replace queue).2).1 := rfl
      refine ⟨?_, hqueue⟩
      rw [hstep, esmValuesOf, hnode, hrest]
      rfl

end

/-- A tree in which the place of one node is open. -/
inductive Frame
  | here
  | among (kind : Text) (attributes : Attributes) (before : List Node) (frame : Frame)
      (after : List Node)

namespace Frame

def fill (node : Node) : Frame → Node
  | here => node
  | among kind attributes before frame after =>
    .parent kind attributes (before ++ frame.fill node :: after)

def esmValues : Frame → List Text
  | here => []
  | among _ _ before frame after => esmValuesOf before ++ (frame.esmValues ++ esmValuesOf after)

theorem any_esmValues_fill (p : Text → Bool) (frame : Frame) (node : Node) :
    (frame.fill node).esmValues.any p = (frame.esmValues.any p || node.esmValues.any p) := by
  induction frame with
  | here => rfl
  | among kind attributes before frame after ih =>
    have hfill : ((among kind attributes before frame after).fill node).esmValues =
        esmValuesOf before ++ ((frame.fill node).esmValues ++ esmValuesOf after) :=
      esmValuesOf_append before (frame.fill node :: after)
    rw [hfill, esmValues, List.any_append, List.any_append, List.any_append, List.any_append, ih]
    ac_rfl

end Frame

end CodeTabs.Node

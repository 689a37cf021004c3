import CodeTabs.Proofs.Files.MarkerLines
import CodeTabs.Proofs.OrderedMap
import CodeTabs.Proofs.Text.WholeWord
import CodeTabs.Shaping

/-!
The TypeScript tab loses whole lines and nothing else. What is left of a file are those of its lines
that are no directives, and they are the lines of what is left. All else follows from this: that a
second time changes nothing, that parts of a text can be shaped one by one, and that no line becomes
a marker.
-/

namespace CodeTabs.Shaping

open Text (CutInto WordBoundary)

/-- A line is white space, a directive and a rest, which does not go on with the directive's last
word. -/
structure DirectiveParts (line space directive rest : Text) : Prop where
  line_eq : line = space ++ (directive ++ rest)
  blank : space.isBlank = true
  known : directive = "// @ts-ignore" ∨ directive = "// @ts-expect-error"
  whole : WordBoundary directive rest

def Directive (line : Text) : Prop :=
  ∃ space directive rest, DirectiveParts line space directive rest

theorem mem_directives {directive : Text} : directive ∈ directives ↔
    directive = "// @ts-ignore" ∨ directive = "// @ts-expect-error" := by
  simp [directives]

theorem DirectiveParts.dropWhile_eq {line space directive rest : Text}
    (h : DirectiveParts line space directive rest) :
    line.dropWhile CodeTabs.isBlank = directive ++ rest := by
  rw [h.line_eq, List.dropWhile_append_of_pos (List.all_eq_true.mp h.blank)]
  rcases h.known with rfl | rfl
  · rfl
  · rfl

theorem isDirective_iff {line : Text} : isDirective line = true ↔ Directive line := by
  have hlast : ∀ directive ∈ directives, directive.getLast?.any isWord = true := by decide
  simp only [isDirective, List.any_eq_true, Option.any_eq_true]
  constructor
  · rintro ⟨directive, hknown, rest, hrest, hend⟩
    have hstart := Text.after?_eq_some_iff.mp hrest
    refine ⟨line.takeWhile CodeTabs.isBlank, directive, rest, ?_, List.all_takeWhile,
      mem_directives.mp hknown, (Text.wordEndsAt_iff (hlast directive hknown) rest).mp hend⟩
    rw [← hstart, List.takeWhile_append_dropWhile]
  · rintro ⟨space, directive, rest, h⟩
    have hknown := mem_directives.mpr h.known
    exact ⟨directive, hknown, rest, Text.after?_eq_some_iff.mpr h.dropWhile_eq,
      (Text.wordEndsAt_iff (hlast directive hknown) rest).mpr h.whole⟩

instance (line : Text) : Decidable (Directive line) := decidable_of_iff _ isDirective_iff

theorem not_directive_of_parse? {line : Text} {marker : Marker}
    (h : Marker.parse? line = some marker) : ¬Directive line := by
  -- Both begin with two slashes and a space, and go on differently.
  obtain ⟨rest, rfl, -⟩ := Marker.parse?_eq_some_iff.mp h
  have hopening : isDirective (Marker.opening ++ rest) = false := rfl
  rw [← isDirective_iff, hopening]
  decide

theorem stripDirectives_eq (code : Text) : stripDirectives code =
    (code.pieces.filter fun line => ¬Directive line.body).flatten := by
  apply congrArg List.flatten
  apply List.filter_congr
  intro line _
  simp [← isDirective_iff]

theorem pieces_stripDirectives (code : Text) : (stripDirectives code).pieces =
    code.pieces.filter fun line => ¬Directive line.body := by
  rw [stripDirectives_eq]
  exact Text.pieces_flatten_of_sublist List.filter_sublist

theorem stripDirectives_stripDirectives (code : Text) :
    stripDirectives (stripDirectives code) = stripDirectives code := by
  rw [stripDirectives_eq (stripDirectives code), pieces_stripDirectives, List.filter_filter,
    stripDirectives_eq code]
  simp only [Bool.and_self]

theorem stripDirectives_append {first : Text} (h : first = [] ∨ first.getLast? = some '\n')
    (second : Text) :
    stripDirectives (first ++ second) = stripDirectives first ++ stripDirectives second := by
  rcases h with rfl | hlast
  · rfl
  · obtain ⟨front, rfl⟩ := List.getLast?_eq_some_iff.mp hlast
    rw [List.append_assoc, List.singleton_append, stripDirectives_eq, Text.pieces_append_line,
      List.filter_append, List.flatten_append, ← stripDirectives_eq, ← stripDirectives_eq]

theorem filter_marker_stripDirectives (code : Text) :
    (stripDirectives code).pieces.filter (fun line => (Block.marker? line).isSome) =
      code.pieces.filter fun line => (Block.marker? line).isSome := by
  rw [pieces_stripDirectives, List.filter_filter]
  apply List.filter_congr
  intro line _
  cases hmarker : Block.marker? line with
  | none => rfl
  | some marker => simp [not_directive_of_parse? hmarker]

theorem typeScript_typeScript (files : FileSet) :
    typeScript (typeScript files) = typeScript files := by
  apply OrderedMap.ext
  simp [typeScript, OrderedMap.map, stripDirectives_stripDirectives]

/-- The lines of the result are the lines of the code that are no directives. So it makes no
difference to do it twice, or to each of two parts that are parted at the end of a line, and the
marker lines of the result are those of the code. Of the files nothing changes but their code. -/
theorem stripDirectives_takes_lines :
    (∀ code : Text, code.CutInto code.pieces ∧
      (stripDirectives code).CutInto (code.pieces.filter fun line => ¬Directive line.body)) ∧
    (∀ code, stripDirectives (stripDirectives code) = stripDirectives code) ∧
    (∀ first second : Text, first = [] ∨ first.getLast? = some '\n' →
      stripDirectives (first ++ second) = stripDirectives first ++ stripDirectives second) ∧
    (∀ code, (stripDirectives code).pieces.filter (fun line => (Block.marker? line).isSome) =
      code.pieces.filter fun line => (Block.marker? line).isSome) ∧
    ∀ files, (typeScript files).keys = files.keys ∧
      (∀ path, (typeScript files).get? path =
        (files.get? path).map fun file => ⟨stripDirectives file.code, file.skip⟩) ∧
      typeScript (typeScript files) = typeScript files := by
  refine ⟨?_, stripDirectives_stripDirectives, fun _ second h => stripDirectives_append h second,
    filter_marker_stripDirectives, ?_⟩
  · intro code
    exact ⟨Text.cutInto_iff.mpr rfl, Text.cutInto_iff.mpr (pieces_stripDirectives code)⟩
  · intro files
    exact ⟨OrderedMap.keys_map _ files, OrderedMap.get?_map files _, typeScript_typeScript files⟩

def ignored : Text := "\u2003// @ts-ignore: late\r\n// file: b.ts\r\n"

def expected : Text := "// @ts-ignored\nlet b\n\t// @ts-expect-error"

theorem stripDirectives_ignored_append : ignored.getLast? = some '\n' ∧
    stripDirectives (ignored ++ expected) = "// file: b.ts\r\n// @ts-ignored\nlet b\n" := by
  have hlast : ignored.getLast? = some '\n' := by decide
  refine ⟨hlast, ?_⟩
  rw [stripDirectives_takes_lines.2.2.1 ignored expected (.inr hlast)]
  decide

end CodeTabs.Shaping

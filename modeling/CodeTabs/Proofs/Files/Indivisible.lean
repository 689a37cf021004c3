import CodeTabs.Proofs.Files.NormalForm
import CodeTabs.Proofs.Shaping.Directives

/-!
A file of a block is a block of one file. Its lines are lines of the block that open no file, and
they are such lines still when some of them are left out, so that what is shown of a single file is
read back as that file.
-/

namespace CodeTabs.Block

open FileSet (assemble)

theorem unmarked_stripDirectives {text : Text} (h : Unmarked text) :
    Unmarked (Shaping.stripDirectives text) := by
  intro line hline
  rw [Shaping.pieces_stripDirectives] at hline
  exact h line (List.mem_of_mem_filter hline)

def Indivisible (files : FileSet) : Prop := ∀ e ∈ files.entries, Unmarked e.2.code

theorem indivisible_split (raw folder : Text) : Indivisible (split raw folder) :=
  fun _ he => unmarked_of_mem_split he

theorem Indivisible.typeScript {files : FileSet} (h : Indivisible files) :
    Indivisible (Shaping.typeScript files) := by
  intro e he
  obtain ⟨file, hfile, rfl⟩ := List.mem_map.mp he
  exact unmarked_stripDirectives (h file hfile)

theorem Indivisible.entries_split_shown {files : FileSet} (h : Indivisible files)
    {only : Text × SourceFile} (single : files.emitted = [only]) (folder other : Text) :
    files.assemble folder = only.2.code ∧
      (split (files.assemble folder) other).entries =
        [(filePath other defaultName, .shown only.2.code)] := by
  have hshown : files.assemble folder = only.2.code := by
    rw [assemble, single]
  have hmem : only ∈ files.emitted := single ▸ List.mem_singleton_self only
  refine ⟨hshown, ?_⟩
  rw [hshown]
  exact entries_split_of_unmarked (h only (mem_entries_of_mem_emitted hmem)) other

/-- Split once more, under whatever folder, the code of a file is one file with that code. So is
the text shown of a block that comes down to one file, with its directives or without. -/
theorem split_piece (raw folder other : Text) :
    (∀ e ∈ (split raw folder).entries,
      (split e.2.code other).entries = [(filePath other defaultName, .shown e.2.code)]) ∧
    ∀ files ∈ [split raw folder, Shaping.typeScript (split raw folder)], ∀ only,
      files.emitted = [only] → files.assemble folder = only.2.code ∧
        (split (files.assemble folder) other).entries =
          [(filePath other defaultName, .shown only.2.code)] := by
  have whole := indivisible_split raw folder
  refine ⟨fun e he => entries_split_of_unmarked (whole e he) other, ?_⟩
  intro files hfiles only single
  have hwhole : Indivisible files := by
    rw [List.mem_cons, List.mem_singleton] at hfiles
    rcases hfiles with rfl | rfl
    · exact whole
    · exact whole.typeScript
  exact hwhole.entries_split_shown single folder other

theorem split_piece_of_two_regions :
    let raw : Text := "// file: a.ts\r\none()\r\n// file: b.ts noEmit\n  // file: c.ts\n" ++
      "// file: a.ts\n// @ts-ignore\n// file:d.ts"
    ∃ first second,
      (split raw "f").entries =
        [("f/a.ts".toList, .shown first), ("f/b.ts".toList, .hidden second)] ∧
      (split first "g").entries = [("g/index.ts".toList, .shown first)] ∧
      (split second "g").entries = [("g/index.ts".toList, .shown second)] ∧
      (split ((split raw "f").assemble "f") "g").entries =
        [("g/index.ts".toList, .shown first)] ∧
      (split ((Shaping.typeScript (split raw "f")).assemble "f") "g").entries =
        [("g/index.ts".toList, .shown "one()\r\n// file:d.ts")] := by
  intro raw
  have hentries : (split raw "f").entries =
      [("f/a.ts".toList, .shown "one()\r\n// @ts-ignore\n// file:d.ts"),
        ("f/b.ts".toList, .hidden "  // file: c.ts\n")] := by decide
  have hpieces := split_piece raw "f" "g"
  have single : (split raw "f").emitted =
      [("f/a.ts".toList, .shown "one()\r\n// @ts-ignore\n// file:d.ts")] := by decide
  have single' : (Shaping.typeScript (split raw "f")).emitted =
      [("f/a.ts".toList, .shown "one()\r\n// file:d.ts")] := by decide
  rw [hentries] at hpieces
  exact ⟨_, _, hentries, hpieces.1 _ List.mem_cons_self,
    hpieces.1 _ (List.mem_cons_of_mem _ List.mem_cons_self),
    (hpieces.2 _ List.mem_cons_self _ single).2,
    (hpieces.2 _ (List.mem_cons_of_mem _ List.mem_cons_self) _ single').2⟩

end CodeTabs.Block

import CodeTabs.Proofs.Files.Partition
import CodeTabs.Proofs.Text.Decimal
import Mathlib.Data.List.Basic

/-!
The folder of a block tells its document and its number, and a path in that folder still tells the
number: digits end at the slash behind them and begin behind the underscore before them.
-/

namespace CodeTabs

def folderLabel : Text := "/codeBlock"

theorem virtualFolder_eq (document : Text) (index : Nat) :
    virtualFolder document index =
      Text.dropEndWhile (· == '/') document ++ (folderLabel ++ '_' :: Text.decimal index) := by
  rw [virtualFolder, List.append_assoc]
  rfl

theorem virtualFolder_eq_iff {document other : Text} {i j : Nat} :
    virtualFolder document i = virtualFolder other j ↔
      i = j ∧ Text.dropEndWhile (· == '/') document = Text.dropEndWhile (· == '/') other := by
  constructor
  · intro h
    have hreverse := congrArg List.reverse h
    simp only [virtualFolder_eq, List.reverse_append, List.reverse_cons, List.append_assoc,
      List.singleton_append] at hreverse
    -- Read from its end the folder begins with a run of digits.
    obtain ⟨hdigits, hrest⟩ := Text.run_append_inj
      (fun x hx => Text.isDigit_of_mem_decimal (List.mem_reverse.mp hx))
      (fun x hx => Text.isDigit_of_mem_decimal (List.mem_reverse.mp hx))
      (by decide) (by decide) hreverse
    have hdocument := List.append_cancel_left (List.cons.inj hrest).2
    exact ⟨Text.decimal_injective (List.reverse_injective hdigits),
      List.reverse_injective hdocument⟩
  · rintro ⟨rfl, h⟩
    rw [virtualFolder, virtualFolder, h]

namespace Block

theorem index_eq_of_filePath_eq {document name name' : Text} {i j : Nat}
    (h : filePath (virtualFolder document i) name = filePath (virtualFolder document j) name') :
    i = j := by
  simp only [filePath, virtualFolder_eq, List.append_assoc, List.cons_append] at h
  have hnumber := (List.cons.inj (List.append_cancel_left (List.append_cancel_left h))).2
  exact Text.decimal_injective (Text.run_append_inj
    (fun x hx => Text.isDigit_of_mem_decimal hx) (fun x hx => Text.isDigit_of_mem_decimal hx)
    (by decide) (by decide) hnumber).1

theorem disjoint_keys_split {i j : Nat} (h : i ≠ j) (document raw raw' : Text) :
    (split raw (virtualFolder document i)).keys.Disjoint
      (split raw' (virtualFolder document j)).keys := by
  intro path hpath hpath'
  obtain ⟨e, he, rfl⟩ := List.mem_map.mp hpath
  obtain ⟨e', he', heq⟩ := List.mem_map.mp hpath'
  obtain ⟨name, -, hname, -⟩ := exists_name_of_mem_split he
  obtain ⟨name', -, hname', -⟩ := exists_name_of_mem_split he'
  rw [hname, hname'] at heq
  exact h (index_eq_of_filePath_eq heq).symm

end Block

end CodeTabs

import CodeTabs.Text.Basic
import Mathlib.Logic.Function.Defs

/-!
The decimal form of a number is digits and nothing else, and it tells the number. In a longer text
it reaches to the first character that is no digit.
-/

namespace CodeTabs.Text

theorem decimal_injective : Function.Injective decimal := by
  intro m n h
  have hvalue := congrArg (fun digits => Nat.ofDigitChars 10 digits 0) h
  simpa [decimal] using hvalue

theorem isDigit_of_mem_decimal {n : Nat} {c : Char} (h : c ∈ decimal n) : c.isDigit = true :=
  Nat.isDigit_of_mem_toDigits (by omega) (by omega) h

theorem length_decimal_le {m n : Nat} (h : m ≤ n) : (decimal m).length ≤ (decimal n).length := by
  have hpos : 0 < (decimal n).length := Nat.length_toDigits_pos
  apply (Nat.length_toDigits_le_iff (by omega) hpos).mpr
  have hn := (Nat.length_toDigits_le_iff (n := n) (b := 10) (by omega) hpos).mp (Nat.le_refl _)
  omega

theorem run_append_inj {p : Char → Bool} {run run' rest rest' : Text} {c c' : Char}
    (hrun : ∀ x ∈ run, p x = true) (hrun' : ∀ x ∈ run', p x = true)
    (hc : p c = false) (hc' : p c' = false) (h : run ++ c :: rest = run' ++ c' :: rest') :
    run = run' ∧ c :: rest = c' :: rest' := by
  have htake := congrArg (List.takeWhile p) h
  rw [List.takeWhile_append_of_pos hrun, List.takeWhile_append_of_pos hrun',
    List.takeWhile_cons_of_neg (by simp [hc]), List.takeWhile_cons_of_neg (by simp [hc']),
    List.append_nil, List.append_nil] at htake
  subst htake
  exact ⟨rfl, List.append_cancel_left h⟩

end CodeTabs.Text

/-!
Text is a list of characters. Everything here compares heads and tails of text, and that is
recursion on a list; strings occur only where text enters and leaves the program.
-/

namespace CodeTabs

abbrev Text := List Char

instance : Coe String Text := ⟨String.toList⟩

namespace Text

def after? : (head : Text) → Text → Option Text
  | [], text => some text
  | _ :: _, [] => none
  | h :: head, c :: text => if h = c then after? head text else none

def before? (tail text : Text) : Option Text :=
  (after? tail.reverse text.reverse).map List.reverse

def dropEndWhile (p : Char → Bool) (text : Text) : Text :=
  (text.reverse.dropWhile p).reverse

def splitAt (separator : Char) : Text → List Text
  | [] => [[]]
  | c :: text =>
    if c = separator then [] :: splitAt separator text
    else match splitAt separator text with
      | [] => [[c]]
      | part :: parts => (c :: part) :: parts

def joined (separator : Text) (parts : List Text) : Text :=
  List.intercalate separator parts

def decimal (n : Nat) : Text := Nat.toDigits 10 n

def byteSize : Text → Nat
  | [] => 0
  | c :: text => c.utf8Size + byteSize text

theorem after?_eq_some_iff {head text rest : Text} :
    after? head text = some rest ↔ text = head ++ rest := by
  induction head generalizing text with
  | nil => simp [after?, eq_comm]
  | cons h head ih =>
    cases text with
    | nil => simp [after?]
    | cons c text =>
      by_cases hc : h = c
      · simp [after?, hc, ih]
      · simp [after?, hc, Ne.symm hc]

theorem before?_eq_some_iff {tail text rest : Text} :
    before? tail text = some rest ↔ text = rest ++ tail := by
  simp only [before?, Option.map_eq_some_iff, after?_eq_some_iff]
  constructor
  · rintro ⟨a, ha, rfl⟩
    simpa using congrArg List.reverse ha
  · rintro rfl
    exact ⟨rest.reverse, by simp, by simp⟩

end Text

end CodeTabs

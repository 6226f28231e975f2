import Mathlib.Data.List.Nodup
import Mathlib.Data.String.Basic

/-!
# Labels with numbers in them

A number written in decimal, with zeros in front up to a width, can be read back, and is
followed by no digit where a mark follows. So a label that is a number, a mark and anything
behind it determines both parts.
-/

namespace BossWorker

/-- A number in decimal, with zeros in front up to a width. -/
def zeroPadded (width number : Nat) : String :=
  String.ofList ((Nat.toDigits 10 number).leftpad width '0')

example : [zeroPadded 4 7, zeroPadded 4 12345] = ["0007", "12345"] := by decide

/-- The characters of a padded number. -/
theorem toList_zeroPadded (width number : Nat) : (zeroPadded width number).toList =
    (Nat.toDigits 10 number).leftpad width '0' :=
  String.toList_ofList

/-- Zeros in front do not change what is read. -/
theorem ofDigitChars_zeroPadded (width number : Nat) :
    Nat.ofDigitChars 10 (zeroPadded width number).toList 0 = number := by
  rw [toList_zeroPadded, List.leftpad, Nat.ofDigitChars_append, Nat.ofDigitChars_replicate_zero,
    Nat.mul_zero, Nat.ofDigitChars_ten_toDigits]

/-- A padded number is the number it was written for. -/
theorem zeroPadded_injective (width : Nat) : Function.Injective (zeroPadded width) := by
  intro first second same
  rw [← ofDigitChars_zeroPadded width first, same, ofDigitChars_zeroPadded]

/-- A padded number has digits only. -/
theorem isDigit_of_mem_zeroPadded {width number : Nat} {letter : Char}
    (member : letter ∈ (zeroPadded width number).toList) : letter.isDigit := by
  rw [toList_zeroPadded, List.leftpad] at member
  cases List.mem_append.mp member with
  | inl zero =>
    rw [List.eq_of_mem_replicate zero]
    decide
  | inr digit => exact Nat.isDigit_of_mem_toDigits (by decide) (by decide) digit

/-- What stands before and behind the first mark is determined. -/
theorem append_cons_inj {α : Type} {mark : α} {first second : List α} (clean : mark ∉ first)
    (also : mark ∉ second) {rest other : List α} :
    first ++ mark :: rest = second ++ mark :: other ↔ first = second ∧ rest = other := by
  induction first generalizing second with
  | nil =>
    cases second with
    | nil => simp
    | cons head tail =>
      rw [List.mem_cons, not_or] at also
      simp [also.1]
  | cons head tail ih =>
    rw [List.mem_cons, not_or] at clean
    cases second with
    | nil => simp [Ne.symm clean.1]
    | cons start later =>
      rw [List.mem_cons, not_or] at also
      simp [ih clean.2 also.2, and_assoc]

/-- A padded number, a mark that is no digit and anything behind them are determined by the
label that they form. -/
theorem numbered_label_inj (width : Nat) {mark : Char} (plain : mark.isDigit = false)
    {first second : Nat} {rest other : List Char} :
    (zeroPadded width first).toList ++ mark :: rest =
        (zeroPadded width second).toList ++ mark :: other ↔
      first = second ∧ rest = other := by
  have clean (number : Nat) : mark ∉ (zeroPadded width number).toList := by
    intro member
    have digit := isDigit_of_mem_zeroPadded member
    rw [plain] at digit
    contradiction
  rw [append_cons_inj (clean first) (clean second)]
  apply and_congr_left'
  constructor
  · intro same
    exact zeroPadded_injective width (String.toList_injective same)
  · intro same
    rw [same]

end BossWorker

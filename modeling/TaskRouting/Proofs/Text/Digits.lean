import Mathlib.Data.List.TakeDrop
import Mathlib.Data.List.TakeWhile
import TaskRouting.Number.Power
import TaskRouting.Text.Uppercase
/-!
Decimal digits.

Numbers are written in several places, in result codes that name members, in
instants and in JSON itself, and read back by as many readers. All of them add
up digits from the left, so one fact about the digits of a number serves them
all (`sumDigits_toDigits`).

# Where digits end

A reader takes digits as long as there are any (`List.span`). `span_append`
says that what is behind them does not matter if it begins with no digit, and
`span_isDigit` that a run of digits is then taken as a whole.

# Padding

`paddedDigits` writes a number in so many digits, with zeros in front
(`sumDigits_zeros`). If the number is small enough the width is exact
(`length_paddedDigits`), so fields of fixed width can be taken apart again.
-/

namespace TaskRouting.Text

/-- The number that is added up from decimal digits. -/
def sumDigits (digits : List Char) : Nat :=
  digits.foldl (fun n c => n * 10 + (c.toNat - '0'.toNat)) 0

/-- `sumDigits` is the library's `Nat.ofDigitChars` for ten, so what is known
of that holds here. -/
theorem sumDigits_eq_ofDigitChars (digits : List Char) :
    sumDigits digits = Nat.ofDigitChars 10 digits 0 := by
  unfold sumDigits Nat.ofDigitChars
  simp only [Nat.mul_comm]

/-- The digits that `Nat.toDigits` gives for a number add up to it. -/
theorem sumDigits_toDigits (n : Nat) : sumDigits (Nat.toDigits 10 n) = n := by
  rw [sumDigits_eq_ofDigitChars]
  exact Nat.ofDigitChars_toDigits (by decide) (by decide)

/-- Zeros in front make no difference. -/
theorem sumDigits_zeros (width : Nat) (digits : List Char) :
    sumDigits (List.replicate width '0' ++ digits) = sumDigits digits := by
  induction width with
  | zero => rfl
  | succ width ih =>
    rw [List.replicate_succ, List.cons_append]
    exact ih

/-- The digits of a number are decimal digits. -/
theorem isDigit_of_mem_toDigits {n : Nat} {c : Char}
    (h : c ∈ Nat.toDigits 10 n) : c.isDigit = true :=
  Nat.isDigit_of_mem_toDigits (by decide) (by decide) h

theorem toDigits_ne_nil (n : Nat) : Nat.toDigits 10 n ≠ [] :=
  List.ne_nil_of_length_pos Nat.length_toDigits_pos

/-- A number of several digits begins with none of them zero. By strong
induction: its first digit is that of its tenth part, until only one digit is
left. -/
theorem head?_toDigits {n : Nat} (h : (Nat.toDigits 10 n).length ≠ 1) :
    (Nat.toDigits 10 n).head? ≠ some '0' := by
  induction n using Nat.strongRecOn with
  | ind n ih =>
    by_cases hsmall : n < 10
    · rw [Nat.toDigits_of_lt_base hsmall] at h
      exact absurd rfl h
    · have hquotient : n / 10 < n := by omega
      obtain ⟨first, rest, hfirst⟩ :=
        List.exists_cons_of_ne_nil (toDigits_ne_nil (n / 10))
      have hhead : (Nat.toDigits 10 n).head?
          = (Nat.toDigits 10 (n / 10)).head? := by
        rw [Nat.toDigits_eq_if (by decide), if_neg hsmall, hfirst]
        rfl
      rw [hhead]
      by_cases hlength : (Nat.toDigits 10 (n / 10)).length = 1
      · -- One digit is left in front, and that is not zero.
        have hdigit : n / 10 < 10 := by
          have hle :=
            (Nat.length_toDigits_le_iff (b := 10) (n := n / 10) (k := 1)
              (by decide) (by decide)).1 (Nat.le_of_eq hlength)
          omega
        rw [Nat.toDigits_of_lt_base hdigit]
        have hpos : 1 ≤ n / 10 := by omega
        generalize n / 10 = d at hdigit hpos
        revert d
        decide
      · exact ih _ hquotient hlength

/-- What does not begin with a digit leaves the digits before it as they are.
By induction on the text, with `List.span` taken apart into `takeWhile` and
`dropWhile`. -/
theorem span_append {text rest : List Char}
    (h : ∀ c ∈ rest.head?, c.isDigit = false) :
    (text ++ rest).span Char.isDigit
      = ((text.span Char.isDigit).1, (text.span Char.isDigit).2 ++ rest) := by
  simp only [List.span_eq_takeWhile_dropWhile]
  induction text with
  | nil =>
    cases rest with
    | nil => rfl
    | cons c rest =>
      have hc : ¬ c.isDigit = true := by
        rw [h c rfl]
        exact Bool.false_ne_true
      rw [List.nil_append, List.takeWhile_cons_of_neg hc,
        List.dropWhile_cons_of_neg hc]
      rfl
  | cons c text ih =>
    obtain ⟨htaken, hleft⟩ := Prod.mk.inj ih
    by_cases hc : c.isDigit = true
    · rw [List.cons_append, List.takeWhile_cons_of_pos hc,
        List.dropWhile_cons_of_pos hc, htaken, hleft,
        List.takeWhile_cons_of_pos hc, List.dropWhile_cons_of_pos hc]
    · rw [List.cons_append, List.takeWhile_cons_of_neg hc,
        List.dropWhile_cons_of_neg hc, List.takeWhile_cons_of_neg hc,
        List.dropWhile_cons_of_neg hc]
      rfl

/-- Digits are all taken where nothing follows. -/
theorem span_digits {digits : List Char}
    (h : ∀ c ∈ digits, c.isDigit = true) :
    digits.span Char.isDigit = (digits, []) := by
  rw [List.span_eq_takeWhile_dropWhile, List.takeWhile_eq_self_iff.2 h,
    List.dropWhile_eq_nil_iff.2 h]

/-- A run of digits ends where none follows: `span_append` for digits
alone. -/
theorem span_isDigit {digits rest : List Char}
    (h : ∀ c ∈ digits, c.isDigit = true)
    (hrest : ∀ c ∈ rest.head?, c.isDigit = false) :
    (digits ++ rest).span Char.isDigit = (digits, rest) := by
  rw [span_append hrest, span_digits h]
  rfl

/-- No digit is in one of the `blankRanges`. -/
theorem not_isBlank_of_isDigit {c : Char} (h : c.isDigit = true) :
    isBlank c = false := by
  obtain ⟨hlow, hhigh⟩ := Char.isDigit_iff_toNat.1 h
  have hlow : 48 ≤ c.toNat := hlow
  have hhigh : c.toNat ≤ 57 := hhigh
  simp only [isBlank, within, blankRanges, List.any_cons, List.any_nil,
    Bool.or_false, Bool.or_eq_false_iff, Bool.and_eq_false_iff,
    decide_eq_false_iff_not]
  omega

/-- The digits of a number, with zeros in front up to a width, as
`Instant.padded` writes them. -/
def paddedDigits (width n : Nat) : List Char :=
  List.replicate (width - (Nat.toDigits 10 n).length) '0' ++ Nat.toDigits 10 n

/-- Padding puts nothing but digits in front of digits. -/
theorem isDigit_of_mem_paddedDigits {width n : Nat} {c : Char}
    (h : c ∈ paddedDigits width n) : c.isDigit = true := by
  rcases List.mem_append.1 h with h | h
  · rw [List.eq_of_mem_replicate h]
    rfl
  · exact isDigit_of_mem_toDigits h

/-- Padding adds nothing to the number. -/
theorem sumDigits_paddedDigits (width n : Nat) :
    sumDigits (paddedDigits width n) = n := by
  rw [paddedDigits, sumDigits_zeros, sumDigits_toDigits]

/-- A number below `tenTo width` is written in exactly so many digits. -/
theorem length_paddedDigits {width n : Nat} (hwidth : 0 < width)
    (h : n < tenTo width) : (paddedDigits width n).length = width := by
  have hle := (Nat.length_toDigits_le_iff (b := 10) (by decide) hwidth).2 h
  rw [paddedDigits, List.length_append, List.length_replicate]
  omega

theorem paddedDigits_ne_nil (width n : Nat) : paddedDigits width n ≠ [] :=
  List.append_ne_nil_of_right_ne_nil _ (toDigits_ne_nil n)

end TaskRouting.Text

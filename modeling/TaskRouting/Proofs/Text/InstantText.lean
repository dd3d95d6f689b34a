import TaskRouting.Instant
import TaskRouting.Proofs.Text.Digits
/-!
Instants read back from their texts.

# Parts

The text of an instant has its parts one after the other, each of which is
read up to where the next one begins: the year, two digits for each of month,
day, hour, minute and second, and the decimals of the second. Each part has
its lemma, with whatever may follow as a variable (`year?_yearText`,
`part?_padded`, `decimals?_decimalsText`), and each mark between two parts is
taken off by `mark?_cons`. A year of more than four digits, or below zero, has
a sign and is read as long as there are digits; any other is read as four. The
decimals come in groups of three, six or nine digits, or there are none, and
all four lead back to the same count of nanoseconds.

# Whole instants

`toList_text` spells the text out, and `parse?_text` reads it, one part per
step of the parser. A leap second is written as the sixtieth
(`writtenSecond`), and taken for the second before it when it is read; that
these two are inverse is `writtenSecond_cases`. The text is in universal time,
so the shift at the end of the parser is by nothing (`earlier_zero`).
-/

namespace TaskRouting.Instant

open Text

-- =============================================================== parts

/-- What `padded` writes of a number of fixed width are its `paddedDigits`. -/
theorem toList_padded (width n : Nat) :
    (padded width n).toList = paddedDigits width n :=
  String.toList_ofList

/-- A character that is no blank is where skipping blanks ends. -/
theorem skipBlanks_of_not_blank {c : Char} {rest : List Char}
    (h : isBlank c = false) : skipBlanks (c :: rest) = c :: rest := by
  have hc : ¬ isBlank c = true := by
    rw [h]
    exact Bool.false_ne_true
  exact List.dropWhile_cons_of_neg hc

/-- There are no blanks in front of digits. -/
theorem skipBlanks_digits {digits rest : List Char} (hsome : digits ≠ [])
    (h : ∀ c ∈ digits, c.isDigit = true) :
    skipBlanks (digits ++ rest) = digits ++ rest := by
  obtain ⟨c, more, rfl⟩ := List.exists_cons_of_ne_nil hsome
  exact skipBlanks_of_not_blank
    (not_isBlank_of_isDigit (h c List.mem_cons_self))

/-- A number of just so many digits is read whatever follows, even more
digits: `digitsUpTo?` looks at no more than the width. -/
theorem digitsUpTo?_padded {width n : Nat} {rest : List Char}
    (hwidth : 0 < width) (h : n < tenTo width) :
    digitsUpTo? width (paddedDigits width n ++ rest) = some (n, rest) := by
  have hlength := length_paddedDigits hwidth h
  have htaken : ((paddedDigits width n ++ rest).take width).takeWhile
      Char.isDigit
      = paddedDigits width n := by
    rw [List.take_left' hlength, ← List.append_nil (paddedDigits width n),
      List.takeWhile_append_of_pos fun c hc => isDigit_of_mem_paddedDigits hc]
    rfl
  have hsome : (paddedDigits width n).isEmpty = false :=
    List.isEmpty_eq_false_iff.2 (paddedDigits_ne_nil width n)
  unfold digitsUpTo?
  rw [htaken]
  dsimp only
  rw [hsome, hlength, List.drop_left' hlength]
  exact congrArg (fun n => some (n, rest)) (sumDigits_paddedDigits width n)

/-- A number of any width is read where no more digits follow
(`span_isDigit`). -/
theorem digits?_padded {width n : Nat} {rest : List Char}
    (hrest : ∀ c ∈ rest.head?, c.isDigit = false) :
    digits? (paddedDigits width n ++ rest) = some (n, rest) := by
  have hsome : (paddedDigits width n).isEmpty = false :=
    List.isEmpty_eq_false_iff.2 (paddedDigits_ne_nil width n)
  unfold digits?
  rw [span_isDigit (fun c hc => isDigit_of_mem_paddedDigits hc) hrest]
  dsimp only
  rw [hsome]
  exact congrArg (fun n => some (n, rest)) (sumDigits_paddedDigits width n)

/-- A year that begins with a digit has no sign, and four digits at most. -/
theorem year?_of_isDigit {c : Char} {rest : List Char}
    (h : c.isDigit = true) :
    year? (c :: rest) = (digitsUpTo? 4 (c :: rest)).map fun (n, rest) =>
      ((n : Int), rest) := by
  unfold year?
  rw [skipBlanks_of_not_blank (not_isBlank_of_isDigit h)]
  split
  next heq =>
    cases heq
    cases h
  next heq =>
    cases heq
    cases h
  next => rfl

/-- A year with a sign is read as long as there are digits. -/
theorem year?_signed {n : Nat} {rest : List Char}
    (hrest : ∀ c ∈ rest.head?, c.isDigit = false) :
    year? ('-' :: (paddedDigits 4 n ++ rest)) = some (-(n : Int), rest)
      ∧ year? ('+' :: (paddedDigits 4 n ++ rest))
        = some ((n : Int), rest) := by
  unfold year?
  rw [skipBlanks_of_not_blank (by decide),
    skipBlanks_of_not_blank (by decide)]
  constructor
  · show (digits? (paddedDigits 4 n ++ rest)).map
        (fun (n, rest) => (-(n : Int), rest)) = _
    rw [digits?_padded hrest]
    rfl
  · show (digits? (paddedDigits 4 n ++ rest)).map
        (fun (n, rest) => ((n : Int), rest)) = _
    rw [digits?_padded hrest]
    rfl

/-- A year is read from its text: as four digits if it has no more and is not
negative (`year?_of_isDigit`), and otherwise with its sign
(`year?_signed`). -/
theorem year?_yearText {year : Int} {rest : List Char}
    (hrest : ∀ c ∈ rest.head?, c.isDigit = false) :
    year? ((yearText year).toList ++ rest) = some (year, rest) := by
  by_cases hplain : 0 ≤ year ∧ year ≤ 9999
  · have hbound : year.toNat < tenTo 4 := by
      show year.toNat < 10000
      omega
    have hdigits : digitsUpTo? 4 (paddedDigits 4 year.toNat ++ rest)
        = some (year.toNat, rest) :=
      digitsUpTo?_padded (by decide) hbound
    obtain ⟨c, more, hcons⟩ :=
      List.exists_cons_of_ne_nil (paddedDigits_ne_nil 4 year.toNat)
    have hfirst : c.isDigit = true :=
      isDigit_of_mem_paddedDigits (hcons ▸ List.mem_cons_self)
    have hnat : ((year.toNat : Nat) : Int) = year :=
      Int.toNat_of_nonneg hplain.1
    rw [yearText, if_pos hplain, toList_padded]
    rw [hcons, List.cons_append] at hdigits ⊢
    rw [year?_of_isDigit hfirst, hdigits, Option.map_some]
    exact congrArg (fun y => some (y, rest)) hnat
  · have hsigned := year?_signed (n := year.natAbs) hrest
    rw [yearText, if_neg hplain, String.toList_append, toList_padded,
      List.append_assoc]
    by_cases hneg : year < 0
    · rw [if_pos hneg]
      refine hsigned.1.trans ?_
      have hnat : -((year.natAbs : Nat) : Int) = year := by omega
      exact congrArg (fun y => some (y, rest)) hnat
    · rw [if_neg hneg]
      refine hsigned.2.trans ?_
      have hnat : ((year.natAbs : Nat) : Int) = year := by omega
      exact congrArg (fun y => some (y, rest)) hnat

/-- A part of two digits is read by `part?` if it lies within its bounds. -/
theorem part?_padded {low high n : Nat} {rest : List Char} (hlow : low ≤ n)
    (hhigh : n ≤ high) (h : n < 100) :
    part? low high (paddedDigits 2 n ++ rest) = some (n, rest) := by
  unfold part?
  rw [skipBlanks_digits (paddedDigits_ne_nil 2 n) fun c hc =>
    isDigit_of_mem_paddedDigits hc, digitsUpTo?_padded (by decide) h,
      Option.bind_eq_bind, Option.bind_some]
  exact if_pos ⟨hlow, hhigh⟩

/-- A mark is taken off where it stands. -/
theorem mark?_cons {c : Char} {rest : List Char} (h : isBlank c = false) :
    mark? c (c :: rest) = some rest := by
  unfold mark?
  rw [skipBlanks_of_not_blank h]
  exact if_pos rfl

/-- Behind a point, digits are read as a fraction: nine of them, with zeros
for those that are missing. -/
theorem decimals?_of_span {text digits rest : List Char}
    (hspan : text.span Char.isDigit = (digits, rest)) (hsome : digits ≠ []) :
    decimals? ('.' :: text)
      = some (digitsValue (digits.take 9)
        * tenTo (9 - (digits.take 9).length), rest) := by
  obtain ⟨d, digits, rfl⟩ := List.exists_cons_of_ne_nil hsome
  simp only [decimals?, hspan]
  rfl

/-- The decimals of a second are read up to the letter behind them. All three
groups are the same lemma for another width (`hgroup`), after which only the
arithmetic differs: nothing is lost, since each group is used only where the
digits that it leaves out are zeros. -/
theorem decimals?_decimalsText {nano : Nat} (h : nano < Civil.nanosPerSecond)
    (rest : List Char) :
    decimals? ((decimalsText nano).toList ++ 'Z' :: rest)
      = some (nano, 'Z' :: rest) := by
  have hgroup : ∀ width n, 0 < width → width ≤ 9 → n < tenTo width →
      decimals? ('.' :: (paddedDigits width n ++ 'Z' :: rest))
        = some (n * tenTo (9 - width), 'Z' :: rest) := by
    intro width n hwidth hle hn
    have hlength := length_paddedDigits hwidth hn
    have hspan : (paddedDigits width n ++ 'Z' :: rest).span Char.isDigit
        = (paddedDigits width n, 'Z' :: rest) := by
      refine span_isDigit (fun c hc => isDigit_of_mem_paddedDigits hc)
        fun c hc => ?_
      cases hc
      rfl
    have hkept : (paddedDigits width n).take 9 = paddedDigits width n :=
      List.take_of_length_le (by omega)
    rw [decimals?_of_span hspan (paddedDigits_ne_nil width n), hkept, hlength]
    exact congrArg (fun n => some (n * tenTo (9 - width), 'Z' :: rest))
      (sumDigits_paddedDigits width n)
  have hnano : nano < 1000000000 := h
  -- The cases are the widths that `decimalsText` chooses from: none, three,
  -- six and nine digits.
  unfold decimalsText
  split
  next hzero =>
    rw [hzero]
    rfl
  next =>
    split
    next hmillis =>
      rw [String.toList_append, toList_padded]
      have hbound : nano / 1000000 < tenTo 3 := by
        show nano / 1000000 < 1000
        omega
      refine (hgroup 3 (nano / 1000000) (by decide) (by decide) hbound).trans
        ?_
      have hback : nano / 1000000 * tenTo (9 - 3) = nano := by
        show nano / 1000000 * 1000000 = nano
        omega
      rw [hback]
    next =>
      split
      next hmicros =>
        rw [String.toList_append, toList_padded]
        have hbound : nano / 1000 < tenTo 6 := by
          show nano / 1000 < 1000000
          omega
        refine (hgroup 6 (nano / 1000) (by decide) (by decide) hbound).trans
          ?_
        have hback : nano / 1000 * tenTo (9 - 6) = nano := by
          show nano / 1000 * 1000 = nano
          omega
        rw [hback]
      next =>
        rw [String.toList_append, toList_padded]
        refine (hgroup 9 nano (by decide) (by decide) hnano).trans ?_
        have hback : nano * tenTo (9 - 9) = nano := Nat.mul_one nano
        rw [hback]

-- ====================================================== whole instants

/-- No shift in time changes no part of it: the minutes of the day are put
together by `earlier` and taken apart again. -/
theorem earlier_zero {c : Civil} (hhour : c.hour < 24)
    (hminute : c.minute < 60) : c.earlier 0 = c := by
  have hlow : ¬ (c.hour : Int) * 60 + c.minute - 0 < 0 := by omega
  have hhigh : ¬ 1440 ≤ (c.hour : Int) * 60 + c.minute - 0 := by omega
  have htime : (((c.hour : Int) * 60 + c.minute - 0) % 1440).toNat = c.hour
      * 60 + c.minute := by omega
  have hhours : (c.hour * 60 + c.minute) / 60 = c.hour := by omega
  have hminutes : (c.hour * 60 + c.minute) % 60 = c.minute := by omega
  unfold Civil.earlier
  dsimp only
  rw [if_neg hlow, if_neg hhigh, htime, hhours, hminutes]

/-- The second that is written: a leap second is the sixtieth. -/
def writtenSecond (c : Civil) : Nat :=
  if Civil.nanosPerSecond ≤ c.nano then c.second + 1 else c.second

/-- The nanoseconds that are written, within the second that is written. -/
def writtenNano (c : Civil) : Nat :=
  if Civil.nanosPerSecond ≤ c.nano then c.nano
    - Civil.nanosPerSecond else c.nano

/-- The text of an instant, part by part, with `paddedDigits` for the
numbers. -/
theorem toList_text (i : Instant) :
    i.text.toList = (yearText i.civil.year).toList ++ '-'
      :: (paddedDigits 2 i.civil.month
      ++ '-' :: (paddedDigits 2 i.civil.day ++ 'T'
        :: (paddedDigits 2 i.civil.hour
      ++ ':' :: (paddedDigits 2 i.civil.minute ++ ':'
        :: (paddedDigits 2 (writtenSecond i.civil)
      ++ ((decimalsText (writtenNano i.civil)).toList ++ ['Z'])))))) := by
  simp [text, toList_padded, writtenSecond, writtenNano]

/-- No month has more than 31 days, so a day takes two digits. -/
theorem daysInMonth_le (year : Int) (month : Nat) :
    Civil.daysInMonth year month ≤ 31 := by
  unfold Civil.daysInMonth
  repeat' split
  all_goals omega

/-- Exactly leap seconds are written as the sixtieth: a valid time that holds
one more second of nanoseconds is in the last second of its minute. -/
theorem writtenSecond_cases {c : Civil} (h : c.Valid) :
    (writtenSecond c = c.second ∧ writtenNano c = c.nano ∧ c.second ≠ 60)
      ∨ (writtenSecond c = 60 ∧ c.second = 59
        ∧ writtenNano c + Civil.nanosPerSecond = c.nano) := by
  obtain ⟨-, -, -, -, -, hsecond, hnano⟩ := h
  unfold writtenSecond writtenNano
  by_cases hleap : Civil.nanosPerSecond ≤ c.nano
  · rw [if_pos hleap, if_pos hleap]
    omega
  · rw [if_neg hleap, if_neg hleap]
    omega

/-- What is written of the nanoseconds is a fraction of a second, as a `Valid`
time holds less than two seconds of them. -/
theorem writtenNano_lt {c : Civil} (h : c.Valid) :
    writtenNano c < Civil.nanosPerSecond := by
  obtain ⟨-, -, -, -, -, -, hnano⟩ := h
  unfold writtenNano
  by_cases hleap : Civil.nanosPerSecond ≤ c.nano
  · rw [if_pos hleap]
    omega
  · rw [if_neg hleap]
    omega

/-- An instant is read from its text. After the time has been put together
again (`hmoment`), the steps are those of the parser, each with the lemma for
its part. -/
theorem parse?_text (i : Instant) : parse? i.text = some i := by
  obtain ⟨c, hvalid⟩ := i
  have hlist := toList_text ⟨c, hvalid⟩
  dsimp only at hlist
  have hback := writtenSecond_cases hvalid
  obtain ⟨-, ⟨hmonth, hmonth'⟩, ⟨hday, hday'⟩, hhour, hminute, hsecond,
      hnano⟩ := id hvalid
  have hdays := daysInMonth_le c.year c.month
  have hday' : c.day ≤ 31 := Nat.le_trans hday' hdays
  have hwritten : writtenSecond c ≤ 60 := by omega
  have hmoment :
      ({ year := c.year
         month := c.month
         day := c.day
         hour := c.hour
         minute := c.minute
         second := if writtenSecond c = 60 then 59 else writtenSecond c
         nano := if writtenSecond c = 60
           then writtenNano c + Civil.nanosPerSecond
           else writtenNano c } : Civil) = c := by
    rcases hback with ⟨hsame, hnano, hplain⟩ | ⟨hleap, hbefore, hmore⟩
    · rw [hsame, hnano, if_neg hplain, if_neg hplain]
    · rw [hleap, if_pos rfl, if_pos rfl, ← hbefore, hmore]
  have hdash : isBlank '-' = false := by decide
  have hcolon : isBlank ':' = false := by decide
  have hofCivil : ofCivil? c = some ⟨c, hvalid⟩ := dif_pos hvalid
  -- From here on there is one line for each part or mark that the parser
  -- takes.
  unfold parse?
  rw [hlist]
  refine Option.bind_eq_some_iff.2
    ⟨_, year?_yearText (fun c hc => by cases hc; rfl), ?_⟩
  refine Option.bind_eq_some_iff.2 ⟨_, mark?_cons hdash, ?_⟩
  refine Option.bind_eq_some_iff.2
    ⟨_, part?_padded hmonth hmonth' (by omega), ?_⟩
  refine Option.bind_eq_some_iff.2 ⟨_, mark?_cons hdash, ?_⟩
  refine Option.bind_eq_some_iff.2 ⟨_, part?_padded hday hday' (by omega), ?_⟩
  refine (if_pos (.inr (.inl rfl))).trans
    (Option.bind_eq_some_iff.2 ⟨_, rfl, ?_⟩)
  refine Option.bind_eq_some_iff.2
    ⟨_, part?_padded (Nat.zero_le _) (Nat.le_of_lt_succ hhour) (by omega), ?_⟩
  refine Option.bind_eq_some_iff.2 ⟨_, mark?_cons hcolon, ?_⟩
  refine Option.bind_eq_some_iff.2
    ⟨_, part?_padded (Nat.zero_le _) (Nat.le_of_lt_succ hminute)
      (by omega), ?_⟩
  refine Option.bind_eq_some_iff.2 ⟨_, mark?_cons hcolon, ?_⟩
  refine Option.bind_eq_some_iff.2
    ⟨_, part?_padded (Nat.zero_le _) hwritten (by omega), ?_⟩
  refine Option.bind_eq_some_iff.2
    ⟨_, decimals?_decimalsText (writtenNano_lt hvalid) [], ?_⟩
  refine Option.bind_eq_some_iff.2 ⟨(0, []), rfl, ?_⟩
  dsimp only
  rw [hmoment]
  refine Option.bind_eq_some_iff.2 ⟨_, hofCivil, ?_⟩
  rw [earlier_zero hhour hminute, hofCivil]

end TaskRouting.Instant

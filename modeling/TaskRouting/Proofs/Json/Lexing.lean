import Mathlib.Tactic.IntervalCases
import TaskRouting.Json.Printer
import TaskRouting.Json.Reader
import TaskRouting.Proofs.Text.Digits
/-!
The text of a value is cut into its tokens.

# Pieces of text

A piece of text is cut into certain tokens whatever stands before it, and
whatever stands after it as long as that does not go on with it
(`Lexes after text ts`). The reader counts its steps down, so `Lexes` also
says that a piece takes no more of them than it has characters; that is what
makes pieces composable (`Lexes.append`), and from then on nobody counts.
Pieces are either single steps of the reader (`lexes_of_step`) or put together
from such.

Only numbers can go on: they end where neither a digit nor a point nor an
exponent mark follows (`Delimited`). All other pieces are cut `Whatever`
follows.

# Strings and numbers

A string is written character by character, and each is read back
(`readString_writtenChar`), escaped or not; no character is half of a
surrogate pair, so joining pairs changes nothing (`joinSurrogates_toNat`). A
number is read part by part: sign, digits, decimals, exponent. For each part
there is one lemma that lets something delimited stand behind it, up to
`readNumber_append`. Whole numbers of 64 bits are read from their digits
(`readNumber_int`); that a floating point number is read from its text is what
`Printable` asks.

# Values

`tokensOf` says which tokens belong to a value, and `lexes_pretty` that its
indented text is cut into them at every depth of indentation, by induction on
`Printable`. What follows an item is a comma or a line break, both of which
delimit numbers.
-/

namespace TaskRouting.Json

-- ====================================================== pieces of text

/-- A text is cut into certain tokens if something of a certain kind stands
after it: `tokens` adds these to those it has and goes on with what
follows. -/
def Lexes (after : List Char → Prop) (text : List Char) (ts : List Token) :
    Prop :=
  ∀ n acc rest, after rest → ∃ m, n ≤ m ∧
    tokens (n + text.length) acc (text ++ rest)
      = tokens m (ts.reverse ++ acc) rest

/-- Whatever stands after a text. -/
def Whatever (_ : List Char) : Prop := True

/-- Nothing that goes on with a number follows: neither a digit nor a point
nor an exponent mark. -/
def Delimited (rest : List Char) : Prop :=
  ∀ c ∈ rest.head?, c.isDigit = false ∧ c ≠ '.' ∧ c ≠ 'e' ∧ c ≠ 'E'

variable {after before : List Char → Prop} {text more : List Char}
  {ts us : List Token}

theorem Lexes.nil : Lexes after [] [] :=
  fun n _ _ _ => ⟨n, Nat.le_refl n, rfl⟩

/-- Texts are put together where the second may stand after the first. The
steps that the first one leaves over are enough for the second, since it has
taken no more than it has characters. -/
theorem Lexes.append (h : Lexes before text ts) (hmore : Lexes after more us)
    (hfollows : ∀ rest, after rest → before (more ++ rest)) :
    Lexes after (text ++ more) (ts ++ us) := by
  intro n acc rest hrest
  obtain ⟨m, hm, htext⟩ :=
    h (n + more.length) acc (more ++ rest) (hfollows rest hrest)
  obtain ⟨k, rfl⟩ := Nat.exists_eq_add_of_le'
    (Nat.le_trans (Nat.le_add_left _ n) hm)
  obtain ⟨m', hm', hmoretext⟩ := hmore k (ts.reverse ++ acc) rest hrest
  refine ⟨m', by omega, ?_⟩
  rw [List.length_append, List.append_assoc, Nat.add_comm text.length,
    ← Nat.add_assoc, htext, hmoretext, List.reverse_append, List.append_assoc]

/-- Anything may stand after most texts. -/
theorem Lexes.append' (h : Lexes Whatever text ts)
    (hmore : Lexes after more us) :
    Lexes after (text ++ more) (ts ++ us) := h.append hmore fun _ _ => trivial

/-- A text that is cut whatever follows is cut where something certain
follows. -/
theorem Lexes.mono (h : Lexes Whatever text ts) : Lexes after text ts :=
  fun n acc rest _ => h n acc rest trivial

/-- A text that takes one step of `tokens`, however many characters that step
takes. -/
theorem lexes_of_step {c : Char} {text : List Char} {ts : List Token}
    (h : ∀ n acc rest, after rest →
      tokens (n + 1) acc (c :: (text ++ rest))
        = tokens n (ts.reverse ++ acc) rest) :
    Lexes after (c :: text) ts := by
  intro n acc rest hrest
  refine ⟨n + text.length, Nat.le_add_right n _, ?_⟩
  rw [List.length_cons, ← Nat.add_assoc, List.cons_append]
  exact h _ acc rest hrest

-- ===================================================== marks and words

/-- A blank between tokens is passed over, and so is a line break. -/
theorem lexes_blank : Lexes Whatever [' '] [] :=
  lexes_of_step fun _ _ _ _ => rfl

theorem lexes_lineBreak : Lexes Whatever ['\n'] [] :=
  lexes_of_step fun _ _ _ _ => rfl

/-- Each bracket, colon and comma is a token of its own. -/
theorem lexes_openArray : Lexes Whatever ['['] [.openArray] :=
  lexes_of_step fun _ _ _ _ => rfl

theorem lexes_closeArray : Lexes Whatever [']'] [.closeArray] :=
  lexes_of_step fun _ _ _ _ => rfl

theorem lexes_openObject : Lexes Whatever ['\x7b'] [.openObject] :=
  lexes_of_step fun _ _ _ _ => rfl

theorem lexes_closeObject : Lexes Whatever ['\x7d'] [.closeObject] :=
  lexes_of_step fun _ _ _ _ => rfl

theorem lexes_colon : Lexes Whatever [':'] [.colon] :=
  lexes_of_step fun _ _ _ _ => rfl

theorem lexes_comma : Lexes Whatever [','] [.comma] :=
  lexes_of_step fun _ _ _ _ => rfl

/-- The three words are tokens as well. -/
theorem lexes_null : Lexes Whatever "null".toList [.scalar (some .null)] := by
  show Lexes Whatever ('n' :: ['u', 'l', 'l']) _
  exact lexes_of_step fun _ _ _ _ => rfl

theorem lexes_bool (b : Bool) :
    Lexes Whatever (writtenScalar (.bool b)).toList
      [.scalar (some (.bool b))] := by
  cases b with
  | false =>
    show Lexes Whatever ('f' :: ['a', 'l', 's', 'e']) _
    exact lexes_of_step fun _ _ _ _ => rfl
  | true =>
    show Lexes Whatever ('t' :: ['r', 'u', 'e']) _
    exact lexes_of_step fun _ _ _ _ => rfl

/-- A line break and blanks are passed over: the blanks by induction on how
many there are (`lexes_blank`). -/
theorem lexes_newLine (depth : Nat) :
    Lexes Whatever (newLine depth).toList [] := by
  have hblanks : ∀ width, Lexes Whatever (List.replicate width ' ') [] := by
    intro width
    induction width with
    | zero => exact .nil
    | succ width ih => exact lexes_blank.append' ih
  have htext : (newLine depth).toList = ['\n']
      ++ List.replicate (2 * depth) ' ' := by
    rw [newLine, String.toList_append]
    exact congrArg _ String.toList_ofList
  rw [htext]
  exact lexes_lineBreak.append' (hblanks _)

-- ============================================================= strings

/-- The four digits of a control character are its number, as `hexNumber?`
reads them. There are 32 of them, and each is computed. -/
theorem hexNumber?_controlDigits {n : Nat} (h : n < 32) :
    ∃ a b c d, List.replicate (4 - (Nat.toDigits 16 n).length) '0'
      ++ Nat.toDigits 16 n = [a, b, c, d]
      ∧ Text.hexNumber? [a, b, c, d] = some n := by
  interval_cases n
  all_goals exact ⟨_, _, _, _, rfl, rfl⟩

/-- A control character is read from its `controlEscape`. -/
theorem readString_controlEscape {c : Char} (h : c.toNat < 32)
    (acc : List Nat) (rest : List Char) :
    readString acc ((controlEscape c).toList ++ rest)
      = readString (c.toNat :: acc) rest := by
  obtain ⟨x, y, z, w, hdigits, hnumber⟩ := hexNumber?_controlDigits h
  have htext : (controlEscape c).toList = ['\\', 'u', x, y, z, w] := by
    rw [controlEscape, hdigits, String.toList_append]
    exact congrArg _ String.toList_ofList
  rw [htext]
  show (Text.hexNumber? [x, y, z, w]).bind
      (fun n => readString (n :: acc) rest) = _
  rw [hnumber, Option.bind_some]

/-- A character that needs no escape stands for itself. The cases are those of
`readString`; all but the last are about characters that need one. -/
theorem readString_plain {c : Char} (hquote : c ≠ '"') (hslash : c ≠ '\\')
    (hcontrol : ¬ c.toNat < 32) (acc : List Nat) (rest : List Char) :
    readString acc (c :: rest) = readString (c.toNat :: acc) rest := by
  rw [readString.eq_def]
  split
  next heq =>
    cases heq
    exact absurd rfl hquote
  next heq =>
    cases heq
    exact absurd rfl hslash
  next heq =>
    cases heq
    exact absurd rfl hslash
  next heq =>
    cases heq
    exact if_neg hcontrol
  next heq => cases heq

/-- A character is read from what is written of it: one of the two that have
to be escaped, one of five with an escape of their own, another control
character (`readString_controlEscape`), or any other one
(`readString_plain`). -/
theorem readString_writtenChar (c : Char) (acc : List Nat)
    (rest : List Char) :
    readString acc ((writtenChar c).toList ++ rest)
      = readString (c.toNat :: acc) rest := by
  by_cases hquote : c = '"'
  · rw [hquote]
    rfl
  by_cases hslash : c = '\\'
  · rw [hslash]
    rfl
  unfold writtenChar
  rw [if_neg hquote, if_neg hslash]
  split
  next h =>
    rw [h]
    rfl
  split
  next h =>
    rw [h]
    rfl
  split
  next h =>
    rw [h]
    rfl
  split
  next h =>
    rw [h]
    rfl
  split
  next h =>
    rw [h]
    rfl
  split
  next h => exact readString_controlEscape h acc rest
  next h =>
    have htext : c.toString.toList = [c] := String.toList_singleton c
    rw [htext]
    exact readString_plain hquote hslash h acc rest

/-- Characters are read from what is written of them, one after the other, up
to the closing quote. By induction on them; the codes read so far pile up in
the accumulator. -/
theorem readString_written (chars : List Char) (acc : List Nat)
    (rest : List Char) :
    readString acc ((String.join (chars.map writtenChar)).toList
      ++ '"' :: rest)
      = some (acc.reverse ++ chars.map Char.toNat, rest) := by
  induction chars generalizing acc with
  | nil =>
    show some (acc.reverse, rest) = some (acc.reverse ++ [], rest)
    rw [List.append_nil]
  | cons c chars ih =>
    have htext : (String.join ((c :: chars).map writtenChar)).toList
        = (writtenChar c).toList
          ++ (String.join (chars.map writtenChar)).toList := by
      rw [List.map_cons, String.join_cons, String.toList_append]
    rw [htext, List.append_assoc, readString_writtenChar, ih,
      List.reverse_cons, List.append_assoc]
    rfl

/-- No character is half of a surrogate pair, so `joinSurrogates` gives the
characters back. -/
theorem joinSurrogates_toNat (chars : List Char) :
    joinSurrogates (chars.map Char.toNat) = some chars := by
  induction chars with
  | nil => rfl
  | cons c chars ih =>
    have hvalid : c.toNat < 0xD800 ∨ 0xDFFF < c.toNat ∧ c.toNat < 0x110000 :=
      c.valid
    have hlow : isLowSurrogate c.toNat = false := by
      simp only [isLowSurrogate, Bool.and_eq_false_iff,
        decide_eq_false_iff_not]
      omega
    have hhigh : isHighSurrogate c.toNat = false := by
      simp only [isHighSurrogate, Bool.and_eq_false_iff,
        decide_eq_false_iff_not]
      omega
    rw [List.map_cons, joinSurrogates.eq_def]
    dsimp only
    rw [if_neg (by rw [hlow]; exact Bool.false_ne_true),
      if_neg (by rw [hhigh]; exact Bool.false_ne_true), ih, Char.ofNat_toNat,
        Option.map_some]

/-- A string is one token: `readString_written` for its characters, and
`joinSurrogates_toNat` for the text that they are. -/
theorem lexes_string (s : String) :
    Lexes Whatever (writtenString s).toList [.text (some s)] := by
  have htext : (writtenString s).toList
      = '"'
        :: ((String.join (s.toList.map writtenChar)).toList ++ ['"']) := by
    rw [writtenString, String.toList_append, String.toList_append]
    rfl
  rw [htext]
  refine lexes_of_step fun n acc rest _ => ?_
  have hread : readString []
      ((String.join (s.toList.map writtenChar)).toList ++ ['"'] ++ rest)
      = some (s.toList.map Char.toNat, rest) := by
    rw [List.append_assoc]
    exact readString_written s.toList [] rest
  show (readString [] ((String.join (s.toList.map writtenChar)).toList
      ++ ['"'] ++ rest)).bind
      (fun p => tokens n (.text ((joinSurrogates p.1).map String.ofList)
      :: acc) p.2) = _
  rw [hread, Option.bind_some, joinSurrogates_toNat, Option.map_some,
    String.ofList_toList]
  rfl

-- ============================================================= numbers

variable {rest : List Char}

/-- Digits end where something `Delimited` begins. -/
theorem Delimited.not_isDigit (h : Delimited rest) :
    ∀ c ∈ rest.head?, c.isDigit = false :=
  fun c hc => (h c hc).1

/-- What does not begin with a minus sign has none. -/
theorem signed_of_ne {c : Char} (h : c ≠ '-') :
    signed (c :: text) = (false, c :: text) := by
  unfold signed
  split
  next heq =>
    cases heq
    exact absurd rfl h
  next => rfl

/-- The sign is in the first character, so what stands behind does not
matter. -/
theorem signed_append (h : text ≠ []) :
    signed (text ++ rest) = ((signed text).1, (signed text).2 ++ rest) := by
  obtain ⟨c, text, rfl⟩ := List.exists_cons_of_ne_nil h
  by_cases hc : c = '-'
  · rw [hc]
    rfl
  · rw [List.cons_append, signed_of_ne hc, signed_of_ne hc]
    rfl

/-- An exponent that begins with neither sign has none. -/
theorem signedExponent_of_ne {c : Char} (hplus : c ≠ '+') (hminus : c ≠ '-') :
    signedExponent (c :: text) = (false, c :: text) := by
  unfold signedExponent
  split
  next heq =>
    cases heq
    exact absurd rfl hplus
  next heq =>
    cases heq
    exact absurd rfl hminus
  next => rfl

/-- The sign of an exponent, too, is in its first character. -/
theorem signedExponent_append (h : text ≠ []) :
    signedExponent (text ++ rest)
      = ((signedExponent text).1, (signedExponent text).2 ++ rest) := by
  obtain ⟨c, text, rfl⟩ := List.exists_cons_of_ne_nil h
  by_cases hplus : c = '+'
  · rw [hplus]
    rfl
  by_cases hminus : c = '-'
  · rw [hminus]
    rfl
  · rw [List.cons_append, signedExponent_of_ne hplus hminus,
      signedExponent_of_ne hplus hminus]
    rfl

section Whole

variable {negative pointed : Bool} {s : Scaled} {v : Option Json}

/-- An exponent, or none, is read before what delimits it. Without one, the
text must not begin with its mark, which is what `Delimited` excludes. -/
theorem readExponent_append (hrest : Delimited rest)
    (h : readExponent negative s pointed text = some (v, [])) :
    readExponent negative s pointed (text ++ rest) = some (v, rest) := by
  cases text with
  | nil =>
    cases h
    cases rest with
    | nil => rfl
    | cons c rest =>
      obtain ⟨-, -, hsmall, hlarge⟩ := hrest c rfl
      exact if_neg fun hmark => hmark.elim hsmall hlarge
  | cons c text =>
    rw [readExponent] at h
    by_cases hmark : c = 'e' ∨ c = 'E'
    · rw [if_pos hmark] at h
      dsimp only at h
      split at h
      next => cases h
      next hdigits =>
        have hne : text ≠ [] := by
          rintro rfl
          exact hdigits rfl
        obtain ⟨hv, hleft⟩ := Prod.mk.inj (Option.some.inj h)
        rw [List.cons_append, readExponent, if_pos hmark,
          signedExponent_append hne]
        dsimp only
        rw [Text.span_append hrest.not_isDigit]
        dsimp only
        rw [if_neg hdigits, hv, hleft]
        rfl
    · rw [if_neg hmark] at h
      cases h

/-- Without a point there are no decimals. -/
theorem readDecimals_of_ne (h : ∀ c ∈ text.head?, c ≠ '.') :
    readDecimals negative s text = readExponent negative s false text := by
  unfold readDecimals
  split
  next => exact absurd rfl (h '.' rfl)
  next => rfl

/-- Decimals, or none, are read before what delimits them, and then the
exponent (`readExponent_append`). -/
theorem readDecimals_append (hrest : Delimited rest)
    (h : readDecimals negative s text = some (v, [])) :
    readDecimals negative s (text ++ rest) = some (v, rest) := by
  cases text with
  | nil =>
    have hnone : readExponent negative s false [] = some (v, []) := h
    rw [List.nil_append, readDecimals_of_ne fun c hc => (hrest c hc).2.1]
    exact readExponent_append hrest hnone
  | cons c text =>
    by_cases hpoint : c = '.'
    · subst hpoint
      rw [readDecimals] at h
      dsimp only at h
      split at h
      next => cases h
      next hdigits =>
        rw [List.cons_append, readDecimals,
          Text.span_append hrest.not_isDigit]
        dsimp only
        rw [if_neg hdigits]
        exact readExponent_append hrest h
    · have hne : ∀ text,
          readDecimals negative s (c :: text)
            = readExponent negative s false (c :: text) := by
        intro text
        refine readDecimals_of_ne fun c' hc' => ?_
        cases hc'
        exact hpoint
      rw [hne] at h
      rw [List.cons_append, hne]
      exact readExponent_append hrest h

/-- A number is not gone on with by what delimits it: sign (`signed_append`),
digits (`Text.span_append`), decimals and exponent (`readDecimals_append`)
each end where they did. -/
theorem readNumber_append (hrest : Delimited rest)
    (h : readNumber text = some (v, [])) :
    readNumber (text ++ rest) = some (v, rest) := by
  have hne : text ≠ [] := by
    rintro rfl
    cases h
  unfold readNumber at h
  dsimp only at h
  split at h
  next => cases h
  next hdigits =>
    unfold readNumber
    rw [signed_append hne]
    dsimp only
    rw [Text.span_append hrest.not_isDigit]
    dsimp only
    rw [if_neg hdigits]
    exact readDecimals_append hrest h

/-- A number begins with a digit or with a minus sign. -/
theorem exists_of_readNumber (h : readNumber text = some (v, rest)) :
    ∃ c more, text = c :: more ∧ (c = '-' ∨ c.isDigit = true) := by
  cases text with
  | nil => cases h
  | cons c text =>
    refine ⟨c, text, rfl, ?_⟩
    by_cases hminus : c = '-'
    · exact .inl hminus
    · refine .inr ?_
      by_contra hc
      unfold readNumber at h
      rw [signed_of_ne hminus] at h
      dsimp only at h
      rw [List.span_eq_takeWhile_dropWhile,
        List.takeWhile_cons_of_neg hc] at h
      cases h

/-- Where a sign or a digit stands, `tokens` takes a number: none of the other
tokens begins with either. -/
theorem tokens_of_number {c : Char} (h : c = '-' ∨ c.isDigit = true) (n : Nat)
    (acc : List Token) (text : List Char) :
    tokens (n + 1) acc (c :: text)
      = (readNumber (c :: text)).bind fun p =>
        tokens n (.scalar p.1 :: acc) p.2 := by
  have hne : ∀ d : Char, d ≠ '-' → d.isDigit = false → c ≠ d := by
    rintro d hminus hdigit rfl
    rcases h with h | h
    · exact hminus h
    · rw [hdigit] at h
      cases h
  rw [tokens.eq_def]
  dsimp only
  split
  all_goals try exact absurd rfl (hne _ (by decide) (by decide))
  rfl

/-- A number is one token where nothing goes on with it: `readNumber_append`
tells where it ends, and `exists_of_readNumber` that it is taken for one. -/
theorem lexes_number (h : readNumber text = some (v, [])) :
    Lexes Delimited text [.scalar v] := by
  obtain ⟨c, more, rfl, hc⟩ := exists_of_readNumber h
  refine lexes_of_step fun n acc rest hrest => ?_
  have hread : readNumber (c :: (more ++ rest)) = some (v, rest) :=
    readNumber_append hrest h
  rw [tokens_of_number hc, hread]
  rfl

end Whole

-- ======================================================= whole numbers

/-- A number only grows by more digits. -/
theorem le_sumFrom (n : Nat) (digits : List Char) :
    n ≤ digits.foldl (fun n c => n * 10 + Scaled.digitValue c) n := by
  induction digits generalizing n with
  | nil => exact Nat.le_refl n
  | cons c digits ih =>
    have hmore : n ≤ n * 10 + Scaled.digitValue c := by omega
    exact Nat.le_trans hmore (ih _)

/-- Digits are all taken if their number fits into 64 bits, since then it fits
at each of them (`le_sumFrom`). -/
theorem foldl_whole {digits : List Char} {n : Nat}
    (h : digits.foldl (fun n c => n * 10 + Scaled.digitValue c) n
      < twoTo 64) :
    digits.foldl Scaled.whole ⟨n, 0, false⟩
      = ⟨digits.foldl (fun n c => n * 10 + Scaled.digitValue c) n,
        0, false⟩ := by
  induction digits generalizing n with
  | nil => rfl
  | cons c digits ih =>
    have hfits : Scaled.fits n c = true :=
      decide_eq_true (Nat.lt_of_le_of_lt (le_sumFrom _ digits) h)
    have hwhole : Scaled.whole ⟨n, 0, false⟩ c
        = ⟨n * 10 + Scaled.digitValue c, 0, false⟩ :=
      if_pos hfits
    rw [List.foldl_cons, hwhole, ih h]
    rfl

/-- A number that fits into 64 bits is the sum of its digits
(`Text.sumDigits_toDigits`), with none left out. -/
theorem ofDigits_toDigits {n : Nat} (h : n < twoTo 64) :
    Scaled.ofDigits (Nat.toDigits 10 n) = ⟨n, 0, false⟩ := by
  have hsum : (Nat.toDigits 10 n).foldl
      (fun n c => n * 10 + Scaled.digitValue c) 0 = n :=
    Text.sumDigits_toDigits n
  unfold Scaled.ofDigits
  rw [foldl_whole (by rw [hsum]; exact h), hsum]

/-- A sign and the digits of a number that fits are read as a whole number.
There is no zero in front, as `Nat.toDigits` writes none but for zero
itself. -/
theorem readNumber_of_signed {negative : Bool} {n : Nat} {text : List Char}
    (h : n < twoTo 64)
    (hsigned : signed text = (negative, Nat.toDigits 10 n)) :
    readNumber text = some (wholeNumber negative ⟨n, 0, false⟩, []) := by
  have hspan : (Nat.toDigits 10 n).span Char.isDigit
      = (Nat.toDigits 10 n, []) :=
    Text.span_digits fun c hc => Text.isDigit_of_mem_toDigits hc
  have hsome : (Nat.toDigits 10 n).isEmpty = false :=
    List.isEmpty_eq_false_iff.2 (Text.toDigits_ne_nil n)
  have hplain : ((Nat.toDigits 10 n).isEmpty
      || (Nat.toDigits 10 n).head? == some '0'
        && (Nat.toDigits 10 n).length != 1) = false := by
    rw [hsome, Bool.false_or, Bool.and_eq_false_iff]
    by_cases hlength : (Nat.toDigits 10 n).length = 1
    · exact .inr (bne_eq_false_iff_eq.2 hlength)
    · exact .inl (beq_eq_false_iff_ne.2 (Text.head?_toDigits hlength))
  unfold readNumber
  rw [hsigned]
  dsimp only
  rw [hspan]
  dsimp only
  rw [hplain, if_neg Bool.false_ne_true, ofDigits_toDigits h]
  rfl

/-- A whole number of 64 bits, with or without a sign. -/
def Word (n : Int) : Prop := -(twoTo 63 : Int) ≤ n ∧ n < (twoTo 64 : Int)

/-- A whole number of 64 bits is read from its digits. A negative one has its
sign in front (`readNumber_of_signed`), and its size stays below the limit for
that sign. -/
theorem readNumber_int {n : Int} (h : Word n) :
    readNumber (toString n).toList = some (some (.int n), []) := by
  obtain ⟨hlow, hhigh⟩ := h
  cases n with
  | ofNat n =>
    have hn : n < twoTo 64 := Int.ofNat_lt.1 hhigh
    have htext : (toString (Int.ofNat n)).toList = Nat.toDigits 10 n := by
      show (toString n).toList = _
      rw [Nat.toString_eq_repr, Nat.toList_repr]
    obtain ⟨c, more, hcons⟩ :=
      List.exists_cons_of_ne_nil (Text.toDigits_ne_nil n)
    have hdigit : c.isDigit = true :=
      Text.isDigit_of_mem_toDigits (by rw [hcons]; exact List.mem_cons_self)
    have hsigned : signed (Nat.toDigits 10 n)
        = (false, Nat.toDigits 10 n) := by
      rw [hcons]
      refine signed_of_ne ?_
      rintro rfl
      cases hdigit
    rw [htext, readNumber_of_signed hn hsigned]
    rfl
  | negSucc n =>
    have hn : n + 1 ≤ twoTo 63 := by omega
    have htext : (toString (Int.negSucc n)).toList = '-'
        :: Nat.toDigits 10 (n + 1) := by
      show ("-" ++ toString (n + 1)).toList = _
      rw [String.toList_append, Nat.toString_eq_repr, Nat.toList_repr]
      rfl
    have hlarge : n + 1 < twoTo 64 := Nat.lt_of_le_of_lt hn (by decide)
    have hwithin : ¬ (n + 1 = 0 ∨ twoTo 63 < n + 1) := by omega
    rw [htext, readNumber_of_signed hlarge rfl]
    show some (if n + 1 = 0 ∨ twoTo 63 < n + 1 then _
        else some (Json.int (-(n + 1 : Nat))), []) = _
    rw [if_neg hwithin]
    rfl

-- ============================================================== values

/-- A value that can be read from its text: its whole numbers fit into 64
bits, its other numbers are read from their own texts, and the members of its
objects are in order. -/
inductive Printable : Json → Prop where
  | null : Printable .null
  | bool (b : Bool) : Printable (.bool b)
  | int {n : Int} (word : Word n) : Printable (.int n)
  | float {x : Finite64}
      (legible : readNumber x.value.text.toList
        = some (some (.float x), [])) :
      Printable (.float x)
  | string (s : String) : Printable (.string s)
  | array {items : List Json} (inside : ∀ v ∈ items, Printable v) :
      Printable (.array items)
  | object {members : List (String × Json)}
      (ascending : Table.Ascending members)
      (inside : ∀ m ∈ members, Printable m.2) : Printable (.object members)

mutual

/-- The tokens of the text of a value. -/
def tokensOf : Json → List Token
  | .string s => [.text (some s)]
  | .array items => .openArray :: tokensOfItems items ++ [.closeArray]
  | .object members =>
    .openObject :: tokensOfMembers members ++ [.closeObject]
  | v => [.scalar (some v)]

/-- The tokens of the items of an array, with commas between them. -/
def tokensOfItems : List Json → List Token
  | [] => []
  | [v] => tokensOf v
  | v :: rest => tokensOf v ++ .comma :: tokensOfItems rest

/-- The tokens of the members of an object: name, colon, value. -/
def tokensOfMembers : List (String × Json) → List Token
  | [] => []
  | [(k, v)] => .text (some k) :: .colon :: tokensOf v
  | (k, v) :: rest =>
    .text (some k) :: .colon :: tokensOf v ++ .comma :: tokensOfMembers rest

end

/-- A line break delimits a number. -/
theorem delimited_newLine (depth : Nat) (text : List Char) :
    Delimited ((newLine depth).toList ++ text) := by
  have htext : (newLine depth).toList
      = '\n' :: (String.ofList (List.replicate (2 * depth) ' ')).toList := by
    rw [newLine, String.toList_append]
    rfl
  rw [htext]
  intro c hc
  cases hc
  decide

/-- A comma delimits a number. -/
theorem delimited_comma (text : List Char) : Delimited ([','] ++ text) := by
  intro c hc
  cases hc
  decide

/-- What has been cut between brackets, the brackets and line breaks with it:
`Lexes.append` for each of the five parts. -/
theorem Lexes.bracketed {opening closing : Char} {first last : Token}
    (h : Lexes Delimited text ts) (depth : Nat)
    (hopening : Lexes Whatever [opening] [first])
    (hclosing : Lexes Whatever [closing] [last]) :
    Lexes Delimited
      ([opening] ++ (newLine (depth + 1)).toList ++ text
        ++ (newLine depth).toList ++ [closing])
      (first :: ts ++ [last]) := by
  have hopened := (hopening.append' (lexes_newLine (depth + 1))).append' h
  have hclosed := hopened.append (lexes_newLine depth) fun rest _ =>
    delimited_newLine depth rest
  have hall := hclosed.append' hclosing
  rw [List.append_nil, List.append_nil] at hall
  exact hall.mono

/-- The items of an array are cut into `tokensOfItems`, if each item is cut
into its tokens. By induction on the items; a comma and a line break follow
all but the last. -/
theorem lexes_prettyItems {items : List Json}
    (h : ∀ v ∈ items, ∀ depth, Lexes Delimited (pretty depth v).toList
      (tokensOf v))
    (depth : Nat) :
    Lexes Delimited (prettyItems depth items).toList
      (tokensOfItems items) := by
  induction items with
  | nil => exact .nil
  | cons v rest ih =>
    have hfirst := h v List.mem_cons_self depth
    have hrest := ih fun w hw => h w (List.mem_cons_of_mem _ hw)
    cases rest with
    | nil => exact hfirst
    | cons w rest =>
      have htext : (prettyItems depth (v :: w :: rest)).toList
          = (pretty depth v).toList
            ++ ([','] ++ ((newLine depth).toList
              ++ (prettyItems depth (w :: rest)).toList)) := by
        rw [prettyItems, String.toList_append, String.toList_append,
          String.toList_append, List.append_assoc, List.append_assoc]
        rfl
        exact fun heq => nomatch heq
      rw [htext]
      exact hfirst.append (lexes_comma.append'
        ((lexes_newLine depth).append' hrest))
        fun rest _ => delimited_comma _

/-- The members of an object are cut into `tokensOfMembers`, if each value is
cut into its tokens. The induction is that of `lexes_prettyItems`, with a name
and a colon before each value. -/
theorem lexes_prettyMembers {members : List (String × Json)}
    (h : ∀ m ∈ members, ∀ depth, Lexes Delimited (pretty depth m.2).toList
      (tokensOf m.2))
    (depth : Nat) :
    Lexes Delimited (prettyMembers depth members).toList
      (tokensOfMembers members) := by
  have hmember : ∀ m ∈ members, Lexes Delimited
      ((writtenString m.1).toList
        ++ ([':'] ++ ([' '] ++ (pretty depth m.2).toList)))
      (.text (some m.1) :: .colon :: tokensOf m.2) :=
    fun m hm => (lexes_string m.1).append'
      (lexes_colon.append' (lexes_blank.append' (h m hm depth)))
  induction members with
  | nil => exact .nil
  | cons m rest ih =>
    obtain ⟨k, v⟩ := m
    have hfirst := hmember (k, v) List.mem_cons_self
    have hrest := ih (fun m hm => h m (List.mem_cons_of_mem _ hm))
      fun m hm => hmember m (List.mem_cons_of_mem _ hm)
    cases rest with
    | nil =>
      have htext : (prettyMembers depth [(k, v)]).toList
          = (writtenString k).toList
            ++ ([':'] ++ ([' '] ++ (pretty depth v).toList)) := by
        rw [prettyMembers, String.toList_append, String.toList_append,
          List.append_assoc]
        rfl
      rw [htext]
      exact hfirst
    | cons m rest =>
      have htext : (prettyMembers depth ((k, v) :: m :: rest)).toList
          = (writtenString k).toList
            ++ ([':'] ++ ([' '] ++ (pretty depth v).toList))
            ++ ([','] ++ ((newLine depth).toList
              ++ (prettyMembers depth (m :: rest)).toList)) := by
        rw [prettyMembers]
        · simp only [String.toList_append, List.append_assoc]
          rfl
        · exact fun heq => nomatch heq
      rw [htext]
      exact hfirst.append (lexes_comma.append'
        ((lexes_newLine depth).append' hrest))
        fun rest _ => delimited_comma _

/-- The indented text of a value is cut into the tokens of the value. By
induction on `Printable`, with an empty pair of brackets apart, since it is
written on one line. -/
theorem lexes_pretty {v : Json} (h : v.Printable) :
    ∀ depth, Lexes Delimited (pretty depth v).toList (tokensOf v) := by
  induction h with
  | null => exact fun _ => lexes_null.mono
  | bool b => exact fun _ => (lexes_bool b).mono
  | int word => exact fun _ => lexes_number (readNumber_int word)
  | float legible => exact fun _ => lexes_number legible
  | string s => exact fun _ => (lexes_string s).mono
  | @array items inside ih =>
    intro depth
    cases items with
    | nil =>
      rw [pretty, tokensOf, tokensOfItems]
      exact (lexes_openArray.append' lexes_closeArray).mono
    | cons v rest =>
      have htext : (pretty depth (.array (v :: rest))).toList
          = ['['] ++ (newLine (depth + 1)).toList
            ++ (prettyItems (depth + 1) (v :: rest)).toList
            ++ (newLine depth).toList ++ [']'] := by
        rw [pretty]
        · simp only [String.toList_append]
          rfl
        · exact fun heq => nomatch heq
      rw [htext]
      exact (lexes_prettyItems ih (depth + 1)).bracketed depth lexes_openArray
        lexes_closeArray
  | @object members ascending inside ih =>
    intro depth
    cases members with
    | nil =>
      rw [pretty, tokensOf, tokensOfMembers]
      exact (lexes_openObject.append' lexes_closeObject).mono
    | cons m rest =>
      have htext : (pretty depth (.object (m :: rest))).toList
          = ['\x7b'] ++ (newLine (depth + 1)).toList
            ++ (prettyMembers (depth + 1) (m :: rest)).toList
            ++ (newLine depth).toList ++ ['\x7d'] := by
        rw [pretty]
        · simp only [String.toList_append]
          rfl
        · exact fun heq => nomatch heq
      rw [htext]
      exact (lexes_prettyMembers ih (depth + 1)).bracketed depth
        lexes_openObject lexes_closeObject

/-- The whole text of a value is cut into the tokens of the value
(`lexes_pretty`): nothing stands behind it, which delimits numbers, and one
step more than its characters is enough. -/
theorem tokens_pretty {v : Json} (h : v.Printable) :
    tokens ((pretty 0 v).toList.length + 1) [] (pretty 0 v).toList
      = some (tokensOf v) := by
  have hnothing : Delimited [] := fun c hc => nomatch hc
  obtain ⟨m, -, htokens⟩ := lexes_pretty h 0 1 [] [] hnothing
  rw [List.append_nil, List.append_nil, Nat.add_comm] at htokens
  rw [htokens, tokens.eq_def]
  dsimp only
  rw [List.reverse_reverse]

end TaskRouting.Json

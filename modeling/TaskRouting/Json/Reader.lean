import TaskRouting.Json.Written
import TaskRouting.Number.Scaled
import TaskRouting.Text.Hexadecimal
/-!
Reading a JSON value from its text.

The text is cut into tokens, and the tokens are folded over a stack of the
arrays and objects that are still open; what comes of it is the form of the
text (`Written`), and the value as far as an outline looks at it. A whole
number that fits into 64 bits, signed or unsigned, is read as such; every
other number becomes a floating point number, unless it is too large for that.
-/

namespace TaskRouting.Json

/-- A bracket or mark, or a value that stands alone. A number may be too
large, and a text may have half of a surrogate pair; then there is no
value. -/
inductive Token where
  | openArray
  | closeArray
  | openObject
  | closeObject
  | colon
  | comma
  | scalar (value : Option Json)
  | text (value : Option String)

-- ============================================================== tokens

/-- Whether a code is the first half of a surrogate pair. -/
def isHighSurrogate (n : Nat) : Bool := 0xD800 ≤ n && n ≤ 0xDBFF

/-- Whether a code is the second half of a surrogate pair. -/
def isLowSurrogate (n : Nat) : Bool := 0xDC00 ≤ n && n ≤ 0xDFFF

/-- The character that stands for a letter after a backslash. -/
def simpleEscape? : Char → Option Char
  | '"' => some '"'
  | '\\' => some '\\'
  | '/' => some '/'
  | 'b' => some (Char.ofNat 8)
  | 'f' => some (Char.ofNat 12)
  | 'n' => some '\n'
  | 'r' => some '\r'
  | 't' => some '\t'
  | _ => none

/-- Reads a string up to its closing quote: the numbers of its characters,
surrogates among them, then what follows. -/
def readString : List Nat → List Char → Option (List Nat × List Char)
  | acc, '"' :: rest => some (acc.reverse, rest)
  | acc, '\\' :: 'u' :: a :: b :: c :: d :: rest => do
    readString ((← Text.hexNumber? [a, b, c, d]) :: acc) rest
  | acc, '\\' :: c :: rest =>
    do readString ((← simpleEscape? c).toNat :: acc) rest
  | acc, c :: rest =>
    if c.toNat < 32 then none else readString (c.toNat :: acc) rest
  | _, [] => none

/-- The characters with certain numbers. Two surrogates that form a pair are
one character; a surrogate alone is none. -/
def joinSurrogates : List Nat → Option (List Char)
  | [] => some []
  | n :: rest =>
    if isLowSurrogate n then none
    else if isHighSurrogate n then
      match rest with
      | [] => none
      | m :: rest =>
        if isLowSurrogate m then
          (joinSurrogates rest).map
            (Char.ofNat (0x10000 + (n - 0xD800) * 0x400 + (m - 0xDC00)) :: ·)
        else none
    else (joinSurrogates rest).map (Char.ofNat n :: ·)

/-- The value of an exponent's digits; the sign is given. -/
def exponentOf (negative : Bool) (digits : List Char) : Int :=
  let n := digits.foldl (fun n c => n * 10 + Scaled.digitValue c) 0
  if negative then -n else n

/-- The largest exponent that is taken at its word. -/
def largestExponent : Nat := twoTo 31 - 1

/-- A number written with an exponent. An exponent beyond all bounds leaves
nothing of the number, or makes it too large. -/
def withExponent (negative : Bool) (s : Scaled) (e : Int) : Option Binary64 :=
  if largestExponent < e.natAbs then
    if s.significand ≠ 0 ∧ 0 < e then none
    else some (Binary64.ofMagnitude negative 0)
  else { s with exponent := s.exponent + e }.toBinary64? negative

/-- A number without point and exponent. -/
def wholeNumber (negative : Bool) (s : Scaled) : Option Json :=
  if s.full then (s.toBinary64? negative).map ofBinary64
  else if !negative then some (.int s.significand)
  else if s.significand = 0 ∨ twoTo 63 < s.significand then
    some (ofBinary64 (Binary64.ofInt s.significand).neg)
  else some (.int (-s.significand))

/-- Whether a minus sign stands in front of a number, and what follows. -/
def signed : List Char → Bool × List Char
  | '-' :: rest => (true, rest)
  | text => (false, text)

/-- Whether a minus sign stands in front of an exponent, and what follows. -/
def signedExponent : List Char → Bool × List Char
  | '+' :: rest => (false, rest)
  | '-' :: rest => (true, rest)
  | rest => (false, rest)

/-- A number without exponent. -/
def plainNumber (negative : Bool) (s : Scaled) (pointed : Bool) :
    Option Json :=
  if pointed then (s.toBinary64? negative).map ofBinary64
  else wholeNumber negative s

/-- Reads the exponent that a number may have after its other digits. -/
def readExponent (negative : Bool) (s : Scaled) (pointed : Bool) :
    List Char → Option (Option Json × List Char)
  | [] => some (plainNumber negative s pointed, [])
  | c :: rest =>
    if c = 'e' ∨ c = 'E' then
      let (down, rest) := signedExponent rest
      let (digits, rest) := rest.span Char.isDigit
      if digits.isEmpty then none
      else some ((withExponent negative s (exponentOf down digits)).map
        ofBinary64, rest)
    else some (plainNumber negative s pointed, c :: rest)

/-- Reads the point, the digits after it and the exponent that a number may
have. -/
def readDecimals (negative : Bool) (s : Scaled) :
    List Char → Option (Option Json × List Char)
  | '.' :: rest =>
    let (digits, rest) := rest.span Char.isDigit
    if digits.isEmpty then none
    else readExponent negative (s.decimals digits) true rest
  | text => readExponent negative s false text

/-- Reads a number: the value unless it is too large, then what follows. A
zero may not be followed by a digit, and a point or an exponent mark must
be. -/
def readNumber (text : List Char) : Option (Option Json × List Char) :=
  let (negative, text) := signed text
  let (digits, text) := text.span Char.isDigit
  -- A zero in front of other digits is no number.
  if digits.isEmpty || (digits.head? == some '0' && digits.length != 1) then
    none
  else readDecimals negative (Scaled.ofDigits digits) text

/-- The tokens of a text. Each step takes at least one character, so as many
steps as the text has characters are enough. -/
def tokens : Nat → List Token → List Char → Option (List Token)
  | _, acc, [] => some acc.reverse
  | 0, _, _ => none
  | n + 1, acc, c :: rest =>
    match c with
    | ' ' | '\n' | '\t' | '\r' => tokens n acc rest
    | '[' => tokens n (.openArray :: acc) rest
    | ']' => tokens n (.closeArray :: acc) rest
    | '\x7b' => tokens n (.openObject :: acc) rest
    | '\x7d' => tokens n (.closeObject :: acc) rest
    | ':' => tokens n (.colon :: acc) rest
    | ',' => tokens n (.comma :: acc) rest
    | '"' => do
      -- A text with half of a surrogate pair is still a token; whether it
      -- matters is up to who reads the value.
      let (s, rest) ← readString [] rest
      tokens n (.text ((joinSurrogates s).map String.ofList) :: acc) rest
    | 't' => if ['r', 'u', 'e'].isPrefixOf rest then
        tokens n (.scalar (some (.bool true)) :: acc) (rest.drop 3) else none
    | 'f' => if ['a', 'l', 's', 'e'].isPrefixOf rest then
        tokens n (.scalar (some (.bool false)) :: acc) (rest.drop 4) else none
    | 'n' => if ['u', 'l', 'l'].isPrefixOf rest then
        tokens n (.scalar (some .null) :: acc) (rest.drop 3) else none
    | _ => do
      let (v, rest) ← readNumber (c :: rest)
      tokens n (.scalar v :: acc) rest

-- ============================================================== values

/-- An array or object that is still open, with what it holds so far, the
latest first. An object also keeps the name of the member that is being
read. -/
inductive Frame where
  | items (done : List Written)
  | members (done : List (Option String × Written)) (name : Option String)

/-- What may come next. -/
inductive Expected where
  | value
  | itemOrClose
  | nameOrClose
  | name
  | colon
  | commaOrClose
  | nothing (value : Written)

/-- A reading under way: the arrays and objects that are open, the innermost
first, and what may come next. -/
structure Reading where
  stack : List Frame
  expected : Expected

namespace Reading

/-- Hands a complete value to the array or object around it. -/
def deliver (v : Written) : List Frame → Reading
  | [] => ⟨[], .nothing v⟩
  | .items done :: stack => ⟨.items (v :: done) :: stack, .commaOrClose⟩
  | .members done name :: stack =>
    ⟨.members ((name, v) :: done) name :: stack, .commaOrClose⟩

/-- A token where a value may start. -/
def value (stack : List Frame) : Token → Option Reading
  | .scalar v => some (deliver (.scalar v) stack)
  | .text s => some (deliver (.text s) stack)
  | .openArray => some ⟨.items [] :: stack, .itemOrClose⟩
  | .openObject => some ⟨.members [] none :: stack, .nameOrClose⟩
  | _ => none

/-- A token where the name of a member may stand. -/
def name : List Frame → Token → Option Reading
  | .members done _ :: stack, .text s =>
    some ⟨.members done s :: stack, .colon⟩
  | _, _ => none

/-- Closes the innermost array or object. -/
def close : List Frame → Token → Option Reading
  | .items done :: stack, .closeArray =>
    some (deliver (.array done.reverse) stack)
  | .members done _ :: stack, .closeObject =>
    some (deliver (.object done.reverse) stack)
  | _, _ => none

/-- One more token, if it may stand here. -/
def step (r : Reading) (t : Token) : Option Reading :=
  match r.expected with
  | .value => value r.stack t
  | .itemOrClose => match close r.stack t with
    | some r => some r
    | none => value r.stack t
  | .nameOrClose => match close r.stack t with
    | some r => some r
    | none => name r.stack t
  | .name => name r.stack t
  | .colon => match t with
    | .colon => some { r with expected := .value }
    | _ => none
  | .commaOrClose => match t, r.stack with
    | .comma, .items _ :: _ => some { r with expected := .value }
    | .comma, .members _ _ :: _ => some { r with expected := .name }
    | t, stack => close stack t
  | .nothing _ => none

/-- The reading before the first token. -/
def start : Reading := ⟨[], .value⟩

/-- The form of the text, when all of it has been read. -/
def result? (r : Reading) : Option Written :=
  match r.expected with
  | .nothing v => some v
  | _ => none

end Reading

/-- The form of a text, if it is one of JSON. -/
def Written.ofText? (text : String) : Option Written := do
  let chars := text.toList
  let ts ← tokens (chars.length + 1) [] chars
  let r ← ts.foldlM Reading.step Reading.start
  r.result?

/-- What an outline finds in a text. -/
def readAs? (outline : Outline) (text : String) : Option Json :=
  (Written.ofText? text).bind (Written.value? nestingLimit outline)

/-- The value that a text writes, if it writes one. -/
def read? (text : String) : Option Json := readAs? .whole text

end TaskRouting.Json

import TaskRouting.Task.Basic
import TaskRouting.Text.Quoted
/-!
The result code of an answer.

Blanks at the ends of the answer and the case of its letters do not count. A
label that is the whole answer decides; otherwise the label that occurs
earliest in it, and of several labels that occur at the same place the first
in the order of the labels.
-/

namespace TaskRouting

/-- Labels of answers with their result codes. -/
abbrev Labels := Table String UInt32

namespace Labels

/-- A text as it is compared. -/
def normal (answer : String) : List Char :=
  Text.upper (Text.trim answer.toList)

/-- A label as it is compared. -/
def form (label : String) : List Char := Text.upper label.toList

/-- The code of the first label that is the whole answer. -/
def whole? (labels : Labels) (normal : List Char) : Option UInt32 :=
  (labels.find? fun e => form e.1 == normal).map Prod.snd

/-- The codes of the labels that occur in the answer, each with the place of
the first occurrence. -/
def occurrences (labels : Labels) (normal : List Char) :
    List (Nat × UInt32) :=
  labels.filterMap fun e => (Text.position? (form e.1) normal).map
    fun i => (i, e.2)

/-- The earliest of some occurrences, the first of those at one place. -/
def earliest? : List (Nat × UInt32) → Option (Nat × UInt32)
  | [] => none
  | e :: rest =>
    match earliest? rest with
    | none => some e
    -- Of two at one place the one that is listed first.
    | some f => if e.1 ≤ f.1 then some e else some f

/-- The result code of an answer, if a label fits. -/
def classify (labels : Labels) (answer : String) : Option UInt32 :=
  let normal := normal answer
  match labels.whole? normal with
  | some code => some code
  | none => (earliest? (labels.occurrences normal)).map Prod.snd

end Labels

/-- The result code of an answer to a check, with a diagnostic unless the code
is that of success. -/
def Check.judge {τ : Type} (c : Check τ) (answer : String) :
    UInt32 × Option String :=
  match Labels.classify c.labels answer with
  | some code =>
    if code = successCode then (code, none)
    else (code, some (c.prompt.identity.describeCode code))
  | none =>
    (c.defaultCode,
      some ("Unrecognized check answer; expected one of "
        ++ Text.quotedList c.labels.keys))

end TaskRouting

import TaskRouting.Json.Fields
import TaskRouting.Json.Outline
/-!
What generating messages has cost: tokens and money.

Token counts are words of 64 bits. A sum begins at zero and adds from left to
right, which matters for the cost, since floating point addition is not
associative; where nothing was reported there is no sum, rather than a sum of
nothing.
-/

namespace TaskRouting

/-- Tokens and cost of one or more generations. -/
structure Usage where
  promptTokens : UInt64
  completionTokens : UInt64
  totalTokens : UInt64
  cost : Binary64
  deriving DecidableEq

namespace Usage

/-- What generating nothing costs. -/
def zero : Usage := ⟨0, 0, 0, Binary64.zero⟩

/-- The usage of two generations together. Token counts wrap around at 64
bits. -/
def add (a b : Usage) : Usage :=
  { promptTokens := a.promptTokens + b.promptTokens
    completionTokens := a.completionTokens + b.completionTokens
    totalTokens := a.totalTokens + b.totalTokens
    cost := a.cost.add b.cost }

/-- The sum of what was reported; none when nothing was. -/
def sum (items : List (Option Usage)) : Option Usage :=
  match items.filterMap id with
  | [] => none
  -- The zero in front matters: a cost of -0.0 alone sums up to 0.0.
  | reported => some (reported.foldl add zero)

/-- The record of a usage; how its cost is written is left open. -/
def toJson (cost : Binary64 → Json) (u : Usage) : Json :=
  .ofMembers [
    ("prompt_tokens", .ofNat u.promptTokens.toNat),
    ("completion_tokens", .ofNat u.completionTokens.toNat),
    ("total_tokens", .ofNat u.totalTokens.toNat),
    ("cost", cost u.cost)]

/-- The names of the fields of a usage, in order. -/
def fieldNames : List String :=
  ["prompt_tokens", "completion_tokens", "total_tokens", "cost"]

/-- What is looked at in the record of a usage. -/
def outline : Json.Outline := .record fieldNames []

/-- Reads a usage. A cost that is not given is zero. -/
def ofJson? (v : Json) : Option Usage := do
  let fields ← v.fields? fieldNames
  return {
    promptTokens := ← fields.required "prompt_tokens" Json.uint64?
    completionTokens := ← fields.required "completion_tokens" Json.uint64?
    totalTokens := ← fields.required "total_tokens" Json.uint64?
    cost := ← fields.defaulted "cost" Binary64.zero Json.binary64? }

end Usage

end TaskRouting

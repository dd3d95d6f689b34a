import TaskRouting.Table
/-!
The order of things that contain each other.

A depth-first walk goes from each thing to its owners and lists the things in
the reverse of the order in which it leaves them, so that what is contained
comes before its owner unless something contains itself. A thing that contains
itself directly stops the walk; any other circle shows as a thing that comes
before something it contains. What is reported then is the whole class of
things that contain each other with it.
-/

namespace TaskRouting

/-- All things, each once, and what each of them contains directly. -/
structure Containment where
  contents : List (String × List String)

namespace Containment

variable (c : Containment)

/-- All things, in the order in which they are given. -/
def members : List String := c.contents.map Prod.fst

/-- What a thing contains, in the order in which that was said. -/
def parts (x : String) : List String := (Table.get? c.contents x).getD []

/-- The owners of a thing, once for each time that it is contained. -/
def owners (x : String) : List String :=
  c.contents.flatMap fun (owner, parts) => (parts.filter (· = x)).map
    fun _ => owner

/-- A walk under way. -/
structure Walk where
  /-- What has been entered. -/
  seen : List String
  /-- What has been left, the last first. -/
  left : List String

/-- Walks from one thing to its owners and theirs; fails at a thing that
contains itself directly. The bound is on the length of the way. -/
def walk : Nat → String → Walk → Except String Walk
  | 0, _, w => .ok w
  | n + 1, x, w =>
    if x ∈ w.seen then .ok w
    else
      let owners := c.owners x
      -- Only the direct case is seen here: when the walk comes back to `x`
      -- by way of others, `x` has been seen and the walk just turns around.
      if x ∈ owners then .error x
      else do
        let w ← owners.foldlM (fun w owner => walk n owner w)
            { w with seen := x :: w.seen }
        return { w with left := x :: w.left }

/-- No way is longer than this without meeting a thing twice. -/
def bound : Nat := c.members.length + 1

/-- All things in the order of the walk. -/
def walkAll : Except String (List String) := do
  let w ← c.members.foldlM (fun w x => c.walk c.bound x w) ⟨[], []⟩
  return w.left

/-- The first thing of a list that comes before one of its parts. -/
def firstEarly? : List String → List String → Option String
  | _, [] => none
  | before, x :: rest =>
    if (c.parts x).all (· ∈ before) then
      firstEarly? (x :: before) rest else some x

/-- What can be reached from a thing, itself included, beyond what is already
known. -/
def reach (next : String → List String) :
    Nat → String → List String → List String
  | 0, _, seen => seen
  | n + 1, x, seen =>
    if x ∈ seen then seen
    else (next x).foldl (fun seen y => reach next n y seen) (x :: seen)

/-- A thing and all that it contains, perhaps through others. -/
def within (x : String) : List String := reach c.parts c.bound x []

/-- A thing and all that contain it, perhaps through others. -/
def around (x : String) : List String := reach c.owners c.bound x []

/-- All that contain a thing and are contained by it, the thing included,
ascending. -/
def circle (x : String) : List String :=
  let around := c.around x
  sortedSet ((c.within x).filter fun y => y ∈ around)

/-- The things in an order in which each comes after its parts, or a
circle. -/
def order : Except (List String) (List String) :=
  match c.walkAll with
  | .error x => .error (c.circle x)
  | .ok xs =>
    -- The order is right exactly if nothing comes before its own parts.
    match c.firstEarly? [] xs with
    | some x => .error (c.circle x)
    | none => .ok xs

end Containment

end TaskRouting

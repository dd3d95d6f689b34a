/-!
Powers of two and of ten, in which the limits of numbers are stated.
-/

namespace TaskRouting

/-- A power of two. -/
abbrev twoTo (k : Nat) : Nat := Nat.pow 2 k

/-- A power of ten. -/
abbrev tenTo (k : Nat) : Nat := Nat.pow 10 k

end TaskRouting

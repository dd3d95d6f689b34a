import Mathlib.Data.List.Forall2
/-!
What comes of the things in a list, one after the other.

# Partial computations

Documents are read in `Option` and built in `Except`. Either way something
comes of a list if something comes of each thing in it, and then the results
stand in the order of the things: `mapM` is `List.Forall₂` in both, and that
is one induction (`mapM_eq_pure_iff`), which needs nothing of the monad but
that a value tells what it is the value of and that a sequence of two steps
has a value only by way of a value of the first. `mapM_eq_some_iff` and
`mapM_eq_ok_iff` are its two cases.

# Related lists

What `List.Forall₂` says of two lists is used thing by thing. Forwards, a
related list is put together from a related thing for each (`exists_forall₂`);
backwards, a thing in one list has a related one in the other
(`exists_of_forall₂`).
-/

namespace TaskRouting

variable {α β γ : Type}

-- ======================================================= related lists

/-- Where each thing has a related one, so has the list of them. -/
theorem exists_forall₂ {R : α → β → Prop} {xs : List α}
    (h : ∀ x ∈ xs, ∃ y, R x y) : ∃ ys, List.Forall₂ R xs ys := by
  induction xs with
  | nil => exact ⟨[], .nil⟩
  | cons x xs ih =>
    obtain ⟨y, hy⟩ := h x List.mem_cons_self
    obtain ⟨ys, hys⟩ := ih fun x' hx => h x' (List.mem_cons_of_mem _ hx)
    exact ⟨y :: ys, .cons hy hys⟩

/-- A thing in a list has a related one in a related list. For a thing in the
second list, `List.Forall₂.flip` swaps the two. -/
theorem exists_of_forall₂ {R : α → β → Prop} {xs : List α} {ys : List β}
    (h : List.Forall₂ R xs ys) {x : α} (hx : x ∈ xs) : ∃ y ∈ ys, R x y := by
  induction h with
  | nil => cases hx
  | cons hfirst _ ih =>
    rcases List.mem_cons.1 hx with rfl | hx
    · exact ⟨_, List.mem_cons_self, hfirst⟩
    · obtain ⟨y, hy, hR⟩ := ih hx
      exact ⟨y, List.mem_cons_of_mem _ hy, hR⟩

-- ================================================ partial computations

/-- Two steps have a value exactly if the first has one from which the second
has it: `Option.bind_eq_some_iff`, for computations that explain themselves
where they have none. -/
theorem bind_eq_ok_iff {ε : Type} {x : Except ε α} {f : α → Except ε β}
    {b : β} : (x >>= f) = .ok b ↔ ∃ a, x = .ok a ∧ f a = .ok b := by
  cases x with
  | error e => exact ⟨fun h => (nomatch h), fun ⟨_, h, _⟩ => (nomatch h)⟩
  | ok a =>
    constructor
    · exact fun h => ⟨a, rfl, h⟩
    · rintro ⟨a', heq, h⟩
      cases heq
      exact h

/-- A value does not depend on how its absence would be explained. -/
theorem mapError_eq_ok_iff {ε ε' : Type} {x : Except ε α} {f : ε → ε'}
    {a : α} : x.mapError f = .ok a ↔ x = .ok a := by
  cases x with
  | error e => exact ⟨fun h => (nomatch h), fun h => (nomatch h)⟩
  | ok a' =>
    constructor
    · intro h
      cases h
      rfl
    · intro h
      cases h
      rfl

/-- All of some things are dealt with if each of them is. The induction is on
the things; `hbind` splits the two steps of `List.mapM_cons` apart and puts
them together again. -/
theorem mapM_eq_pure_iff {m : Type → Type} [Monad m] [LawfulMonad m]
    (hpure : ∀ {γ : Type} {a b : γ}, (pure a : m γ) = pure b → a = b)
    (hbind : ∀ {γ δ : Type} {x : m γ} {f : γ → m δ} {b : δ},
      x >>= f = pure b ↔ ∃ a, x = pure a ∧ f a = pure b)
    {f : α → m β} {xs : List α} {ys : List β} :
    xs.mapM f = pure ys ↔ List.Forall₂ (fun x y => f x = pure y) xs ys := by
  induction xs generalizing ys with
  | nil =>
    rw [List.mapM_nil, List.forall₂_nil_left_iff]
    exact ⟨fun h => (hpure h).symm, fun h => congrArg pure h.symm⟩
  | cons x xs ih =>
    rw [List.mapM_cons, hbind, List.forall₂_cons_left_iff]
    constructor
    · rintro ⟨y, hy, h⟩
      obtain ⟨rest, hrest, h⟩ := hbind.1 h
      exact ⟨y, rest, hy, ih.1 hrest, (hpure h).symm⟩
    · rintro ⟨y, rest, hy, hrest, rfl⟩
      exact ⟨y, hy, hbind.2 ⟨rest, ih.2 hrest, rfl⟩⟩

/-- `mapM_eq_pure_iff` for steps that may explain why they have no value. -/
theorem mapM_eq_ok_iff {ε : Type} {f : α → Except ε β} {xs : List α}
    {ys : List β} :
    xs.mapM f = .ok ys ↔ List.Forall₂ (fun x y => f x = .ok y) xs ys :=
  mapM_eq_pure_iff Except.ok.inj bind_eq_ok_iff

/-- `mapM_eq_pure_iff` for steps that may have no value. -/
theorem mapM_eq_some_iff {f : α → Option β} {xs : List α} {ys : List β} :
    xs.mapM f = some ys ↔ List.Forall₂ (fun x y => f x = some y) xs ys :=
  mapM_eq_pure_iff Option.some.inj Option.bind_eq_some_iff

/-- What comes of some things comes of one of them each, by
`exists_of_forall₂`. -/
theorem exists_of_mapM {f : α → Option β} {xs : List α} {ys : List β}
    (h : xs.mapM f = some ys) {y : β} (hy : y ∈ ys) :
    ∃ x ∈ xs, f x = some y :=
  exists_of_forall₂ (mapM_eq_some_iff.1 h).flip hy

/-- Things that have been made of others by `g` come back from them by `f`
exactly if each one does. -/
theorem mapM_map_eq_some_iff {f : β → Option α} {g : α → β} {xs : List α} :
    (xs.map g).mapM f = some xs ↔ ∀ x ∈ xs, f (g x) = some x := by
  rw [mapM_eq_some_iff, List.forall₂_map_left_iff, List.forall₂_same]

/-- Where something comes of every thing, nothing is left out, so that the
order of the things can be changed as for `List.filterMap`. -/
theorem mapM_eq_some_filterMap {f : α → Option β} {xs : List α}
    (h : ∀ x ∈ xs, (f x).isSome = true) :
    xs.mapM f = some (xs.filterMap f) := by
  induction xs with
  | nil => rfl
  | cons x xs ih =>
    obtain ⟨y, hy⟩ := Option.isSome_iff_exists.1 (h x List.mem_cons_self)
    have hrest := ih fun x hx => h x (List.mem_cons_of_mem _ hx)
    rw [List.mapM_cons, hy, hrest, List.filterMap_cons_some hy]
    rfl

/-- To go through some things twice is to do both steps for each of them. By
induction on the things, with cases on whether there is something for the
first. -/
theorem mapM_bind_mapM {f : α → Option β} {g : β → Option γ} {xs : List α} :
    ((xs.mapM f).bind fun ys => ys.mapM g)
      = xs.mapM fun x => (f x).bind g := by
  induction xs with
  | nil => rfl
  | cons x xs ih =>
    rw [List.mapM_cons, List.mapM_cons, ← ih]
    cases f x with
    | none => rfl
    | some y =>
      -- The second step of `x` comes before the first one of `xs` on one
      -- side only, which does not matter where neither may have an effect.
      cases xs.mapM f with
      | none => cases hy : g y <;> simp [hy]
      | some ys => simp [List.mapM_cons]

end TaskRouting

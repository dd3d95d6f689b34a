import Mathlib.Data.Finset.Card
import Mathlib.Data.Finset.Dedup
import Mathlib.Logic.Relation
import TaskRouting.Catalog.Containment
/-!
The order of containment is one in which parts come first.

# The measure

A walk may meet the same thing again and again, so what bounds it is not how
deep things lie but how many it has not seen (`remaining`, over a finite set
of names). The count never grows as more is seen (`remaining_le`), and drops
with each thing that is entered (`remaining_cons_lt`), so a bound of one more
than there are things is enough (`unseen_lt_bound`). The survey of APIs is
bounded by the same count, over the keys of workflows.

# The walk

Where nothing contains itself directly, a walk enters a thing, goes on at its
owners and leaves it. `Walk.Sound` is the invariant of a single state, and
`Walk.Grows` relates two states between which all that has been entered has
been left again; both are kept by the whole walk (`walk_grows`, by induction
on the bound, with `walkEach_grows` for the owners in turn).

# Why the order is right

The walk lists things in the reverse of the order in which it leaves them, so
the owners of a thing should stand behind it in the list: they have been left
before it. That can fail only for an owner that has been entered and not yet
left when the walk comes to it, and such a thing is contained in the one from
which the walk comes (`Walk.From`, `walk_places`). So where nothing contains
itself each thing stands before its owners (`Placed.settled`), and the check
that follows finds no part too late (`Settled.ordered`).

The other way round, a list of all things in which every part comes before its
owner leaves no room for a circle (`Ordered.acyclic`), whatever walk has found
it. `exists_order_iff` is both directions.
-/

namespace TaskRouting

-- ============================================= what remains to be seen

section Remaining

/-- How many of some names have not been seen. -/
def remaining (names : Finset String) (seen : List String) : Nat :=
  (names.filter (· ∉ seen)).card

variable {names : Finset String} {seen seen' : List String}

/-- At first no more remain than there are names. -/
theorem remaining_le_card : remaining names seen ≤ names.card :=
  Finset.card_filter_le _ _

/-- No more remain when more has been seen. -/
theorem remaining_le (h : ∀ name ∈ seen, name ∈ seen') :
    remaining names seen' ≤ remaining names seen := by
  refine Finset.card_le_card fun name hname => ?_
  obtain ⟨hmem, hfresh⟩ := Finset.mem_filter.1 hname
  exact Finset.mem_filter.2 ⟨hmem, fun hseen => hfresh (h name hseen)⟩

/-- Fewer remain when a name is seen that had not been: one that was counted
by `remaining` no longer is. -/
theorem remaining_cons_lt {name : String} (hmem : name ∈ names)
    (hfresh : name ∉ seen) :
    remaining names (name :: seen) < remaining names seen := by
  refine Finset.card_lt_card ⟨fun other hother => ?_, fun hsubset => ?_⟩
  · obtain ⟨hother, hfresh'⟩ := Finset.mem_filter.1 hother
    exact Finset.mem_filter.2
      ⟨hother, fun hseen => hfresh' (List.mem_cons_of_mem _ hseen)⟩
  · -- The name itself remained before.
    obtain ⟨-, hfresh'⟩ := Finset.mem_filter.1
      (hsubset (Finset.mem_filter.2 ⟨hmem, hfresh⟩))
    exact hfresh' List.mem_cons_self

end Remaining

namespace Containment

open Relation

variable {c : Containment}

-- ========================================================= containment

/-- One thing contains another one directly. -/
def Contains (c : Containment) (owner part : String) : Prop :=
  ∃ parts, (owner, parts) ∈ c.contents ∧ part ∈ parts

/-- Nothing contains itself, be it through others: no path of `Contains` comes
back to where it began. -/
def Acyclic (c : Containment) : Prop := ∀ x, ¬ TransGen c.Contains x x

/-- Everything that is contained is one of the things. -/
def Closed (c : Containment) : Prop :=
  ∀ owner part, c.Contains owner part → part ∈ c.members

/-- What contains something is one of the things. -/
theorem Contains.owner_mem {owner part : String} (h : c.Contains owner part) :
    owner ∈ c.members := by
  obtain ⟨parts, hmem, -⟩ := h
  exact List.mem_map.2 ⟨_, hmem, rfl⟩

/-- The `owners` of a thing are those that contain it. -/
theorem mem_owners {owner x : String} :
    owner ∈ c.owners x ↔ c.Contains owner x := by
  constructor
  · intro h
    obtain ⟨⟨owner', parts⟩, hmem, hin⟩ := List.mem_flatMap.1 h
    obtain ⟨part, hpart, rfl⟩ := List.mem_map.1 hin
    obtain ⟨hpart, heq⟩ := List.mem_filter.1 hpart
    rw [of_decide_eq_true heq] at hpart
    exact ⟨parts, hmem, hpart⟩
  · rintro ⟨parts, hmem, hpart⟩
    refine List.mem_flatMap.2 ⟨_, hmem, List.mem_map.2 ⟨x, ?_, rfl⟩⟩
    exact List.mem_filter.2 ⟨hpart, decide_eq_true rfl⟩

/-- The `parts` of a thing are those that it contains, if no thing is listed
twice; else `get?` finds only the first of its lists. -/
theorem mem_parts (hdistinct : c.members.Nodup) {owner part : String} :
    part ∈ c.parts owner ↔ c.Contains owner part := by
  constructor
  · intro h
    unfold parts at h
    cases hget : Table.get? c.contents owner with
    | none =>
      rw [hget] at h
      cases h
    | some parts =>
      rw [hget] at h
      exact ⟨parts, Table.mem_of_get? hget, h⟩
  · rintro ⟨parts, hmem, hpart⟩
    unfold Containment.parts
    rw [Table.get?_of_mem hdistinct hmem]
    exact hpart

-- ============================================================== orders

/-- In a list, each thing comes after its parts. -/
def Ordered (c : Containment) (xs : List String) : Prop :=
  ∀ before x after, xs = before ++ x :: after → ∀ part, c.Contains x part →
    part ∈ before

/-- In a list, each thing comes before its owners. -/
def Settled (c : Containment) : List String → Prop
  | [] => True
  | x :: rest => (∀ owner, c.Contains owner x → owner ∈ rest) ∧ Settled c rest

/-- In a list, each thing comes before its owners, those apart that the thing
contains. -/
def Placed (c : Containment) : List String → Prop
  | [] => True
  | x :: rest =>
    (∀ owner, c.Contains owner x → owner ∈ rest ∨ TransGen c.Contains x owner)
      ∧ Placed c rest

/-- The tail of a list in which things are placed has them placed. -/
theorem Placed.of_append {xs ys : List String} (h : c.Placed (xs ++ ys)) :
    c.Placed ys := by
  induction xs with
  | nil => exact h
  | cons first rest ih => exact ih h.2

/-- Where nothing contains itself, no owner is left out: the exception in
`Placed` would make a circle of two. -/
theorem Placed.settled (hacyclic : c.Acyclic) {xs : List String}
    (h : c.Placed xs) : c.Settled xs := by
  induction xs with
  | nil => trivial
  | cons first rest ih =>
    refine ⟨fun owner hcontains => ?_, ih h.2⟩
    exact (h.1 owner hcontains).resolve_right fun hcircle =>
      hacyclic owner (.head hcontains hcircle)

/-- In a `Settled` list a thing has all of its owners with it. -/
theorem Settled.owner_mem {xs : List String} (h : c.Settled xs)
    {owner x : String} (hx : x ∈ xs) (hcontains : c.Contains owner x) :
    owner ∈ xs := by
  induction xs with
  | nil => cases hx
  | cons first rest ih =>
    obtain ⟨hfirst, hrest⟩ := h
    rcases List.mem_cons.1 hx with rfl | hx
    · exact List.mem_cons_of_mem _ (hfirst owner hcontains)
    · exact List.mem_cons_of_mem _ (ih hrest hx)

/-- The tail of a settled list is settled. -/
theorem Settled.of_append {xs ys : List String} (h : c.Settled (xs ++ ys)) :
    c.Settled ys := by
  induction xs with
  | nil => exact h
  | cons first rest ih => exact ih h.2

/-- If each thing comes before its owners and all parts are there, each comes
after its parts. A part that came later would have its owner after it again
(`Settled.owner_mem`), and so the owner twice. -/
theorem Settled.ordered {xs : List String} (h : c.Settled xs)
    (hnodup : xs.Nodup)
    (hall : ∀ owner part, c.Contains owner part → part ∈ xs) :
    c.Ordered xs := by
  rintro before x after rfl part hcontains
  rcases List.mem_append.1 (hall x part hcontains) with hbefore | hlater
  · exact hbefore
  · exfalso
    -- Otherwise the thing would come once more, after its part.
    obtain ⟨hlast, -⟩ := List.nodup_cons.1 (List.Nodup.of_append_right hnodup)
    obtain ⟨howner, hafter⟩ := h.of_append
    rcases List.mem_cons.1 hlater with rfl | hlater
    · exact hlast (howner _ hcontains)
    · exact hlast (hafter.owner_mem hlater hcontains)

/-- Where every part comes before its owner, nothing contains itself: along
containment the place in the list goes down, by one step (`hone`) or by
several (`hmany`), and no place is below itself. -/
theorem Ordered.acyclic {xs : List String} (h : c.Ordered xs)
    (hall : ∀ x ∈ c.members, x ∈ xs) : c.Acyclic := by
  have hone : ∀ owner part, c.Contains owner part →
      xs.idxOf part < xs.idxOf owner := by
    intro owner part hcontains
    have howner := hall owner hcontains.owner_mem
    obtain ⟨before, after, hsplit, hfirst⟩ :=
      List.eq_append_cons_of_mem howner
    have hpart := h before owner after hsplit part hcontains
    rw [hsplit, List.idxOf_append_of_mem hpart,
      List.idxOf_append_of_notMem hfirst, List.idxOf_cons_self, Nat.add_zero]
    exact List.idxOf_lt_length_iff.2 hpart
  have hmany : ∀ owner part, TransGen c.Contains owner part →
      xs.idxOf part < xs.idxOf owner := by
    intro owner part hcontains
    induction hcontains with
    | single hcontains => exact hone _ _ hcontains
    | tail _ hcontains ih => exact Nat.lt_trans (hone _ _ hcontains) ih
  exact fun x hcircle => Nat.lt_irrefl _ (hmany x x hcircle)

/-- Nothing comes too early if the parts of each thing are among those before
it, be it those that have been passed. By induction on the list, for any that
have been passed. -/
theorem firstEarly?_eq_none_iff_parts (hdistinct : c.members.Nodup)
    {zs ys : List String} :
    c.firstEarly? zs ys = none
      ↔ ∀ before x after, ys = before ++ x :: after →
        ∀ part, c.Contains x part →
          part ∈ zs ∨ part ∈ before := by
  induction ys generalizing zs with
  | nil =>
    refine ⟨fun _ before x after h => ?_, fun _ => rfl⟩
    cases before with
    | nil => cases h
    | cons first rest => cases h
  | cons first rest ih =>
    unfold firstEarly?
    by_cases hparts : (c.parts first).all (· ∈ zs) = true
    · rw [if_pos hparts, ih]
      have hfirst : ∀ part, c.Contains first part → part ∈ zs :=
        fun part hpart =>
          of_decide_eq_true (List.all_eq_true.1 hparts part
            ((mem_parts hdistinct).2 hpart))
      constructor
      · rintro h (_ | ⟨_, before⟩) x after hsplit part hpart
        · cases hsplit
          exact Or.inl (hfirst part hpart)
        · cases hsplit
          rcases h before x after rfl part hpart with hseen | hbefore
          · rcases List.mem_cons.1 hseen with rfl | hseen
            · exact Or.inr List.mem_cons_self
            · exact Or.inl hseen
          · exact Or.inr (List.mem_cons_of_mem _ hbefore)
      · rintro h before x after rfl part hpart
        rcases h (first :: before) x after rfl part hpart with hseen | hbefore
        · exact Or.inl (List.mem_cons_of_mem _ hseen)
        · rcases List.mem_cons.1 hbefore with rfl | hbefore
          · exact Or.inl List.mem_cons_self
          · exact Or.inr hbefore
    · rw [if_neg hparts]
      refine ⟨fun h => absurd h (Option.some_ne_none first), fun h =>
        absurd (List.all_eq_true.2 fun part hpart => ?_) hparts⟩
      have hseen := h [] first rest rfl part ((mem_parts hdistinct).1 hpart)
      exact decide_eq_true (hseen.resolve_right List.not_mem_nil)

/-- The check of `firstEarly?` passes exactly the `Ordered` lists. -/
theorem firstEarly?_eq_none_iff (hdistinct : c.members.Nodup)
    {xs : List String} : c.firstEarly? [] xs = none ↔ c.Ordered xs := by
  rw [firstEarly?_eq_none_iff_parts hdistinct]
  refine ⟨fun h before x after hsplit part hpart => ?_,
    fun h before x after hsplit part hpart => ?_⟩
  · exact (h before x after hsplit part hpart).resolve_left List.not_mem_nil
  · exact Or.inr (h before x after hsplit part hpart)

-- =============================================================== walks

/-- A walk has left only what it has entered, and each thing once. -/
structure Walk.Sound (c : Containment) (w : Walk) : Prop where
  entered : ∀ x ∈ w.left, x ∈ w.seen
  members : ∀ x ∈ w.seen, x ∈ c.members
  nodup : w.left.Nodup

/-- Between two states of a walk, all that has been entered has been left
again, and nothing else. So the walk is as open as before. -/
structure Walk.Grows (w w' : Walk) : Prop where
  seen : ∀ x ∈ w.seen, x ∈ w'.seen
  left : ∀ x ∈ w.left, x ∈ w'.left
  finished : ∀ x ∈ w'.seen, x ∈ w.seen ∨ x ∈ w'.left
  fresh : ∀ x ∈ w'.left, x ∈ w.left ∨ x ∉ w.seen

/-- A walk that does nothing has left all that it has entered. -/
theorem Walk.Grows.refl (w : Walk) : Grows w w where
  seen _ h := h
  left _ h := h
  finished _ h := Or.inl h
  fresh _ h := Or.inl h

/-- Two parts of a walk that leave what they enter do so together. -/
theorem Walk.Grows.trans {w w' w'' : Walk} (h : Grows w w')
    (h' : Grows w' w'') : Grows w w'' where
  seen x hx := h'.seen x (h.seen x hx)
  left x hx := h'.left x (h.left x hx)
  finished x hx := by
    rcases h'.finished x hx with hx | hx
    · exact (h.finished x hx).imp_right (h'.left x)
    · exact Or.inr hx
  fresh x hx := by
    rcases h'.fresh x hx with hx | hx
    · exact h.fresh x hx
    · exact Or.inr fun hseen => hx (h.seen x hseen)

/-- What has been entered and not left when a walk goes on is what was so
before. -/
theorem Walk.Grows.open_of_open {w w' : Walk} (h : Grows w w') {x : String}
    (hseen : x ∈ w'.seen) (hopen : x ∉ w'.left) : x ∈ w.seen ∧ x ∉ w.left :=
  ⟨(h.finished x hseen).resolve_right hopen, fun hleft =>
    hopen (h.left x hleft)⟩

/-- Goes on at some things in turn. -/
def walkEach (c : Containment) (n : Nat) (xs : List String) (w : Walk) :
    Except String Walk :=
  xs.foldlM (fun w x => c.walk n x w) w

/-- What has been entered is not entered again. -/
theorem walk_of_seen {n : Nat} {x : String} {w : Walk} (h : x ∈ w.seen) :
    c.walk n x w = .ok w := by
  cases n with
  | zero => rfl
  | succ n =>
    unfold walk
    exact if_pos h

/-- A walk stops at a thing that contains itself directly: it is among its own
`owners`. -/
theorem walk_of_self {n : Nat} {x : String} {w : Walk} (hfresh : x ∉ w.seen)
    (hself : c.Contains x x) : c.walk (n + 1) x w = .error x := by
  unfold walk
  rw [if_neg hfresh]
  exact if_pos (mem_owners.2 hself)

/-- Any other new thing is entered, the walk goes on at its owners by
`walkEach`, and then the thing is left. -/
theorem walk_of_fresh {n : Nat} {x : String} {w : Walk} (hfresh : x ∉ w.seen)
    (hself : ¬ c.Contains x x) :
    c.walk (n + 1) x w
      = (c.walkEach n (c.owners x) { w with seen := x :: w.seen }).map
          fun w => { w with left := x :: w.left } := by
  unfold walk
  rw [if_neg hfresh]
  dsimp only
  rw [if_neg fun h => hself (mem_owners.1 h)]
  unfold walkEach
  cases List.foldlM (fun w owner => c.walk n owner w)
    { w with seen := x :: w.seen } (c.owners x)
  · rfl
  · rfl

/-- Things are walked in turn, each from where the walk before it has
ended. -/
theorem walkEach_cons {n : Nat} {x : String} {xs : List String} {w w' : Walk}
    (h : c.walkEach n (x :: xs) w = .ok w') :
    ∃ w₁, c.walk n x w = .ok w₁ ∧ c.walkEach n xs w₁ = .ok w' := by
  unfold walkEach at h
  rw [List.foldlM_cons] at h
  cases hwalk : c.walk n x w with
  | error y =>
    rw [hwalk] at h
    cases h
  | ok w₁ =>
    rw [hwalk] at h
    exact ⟨w₁, rfl, h⟩

/-- A walk that goes into a thing goes on at its owners and then leaves the
thing: of `walk_of_self` and `walk_of_fresh`, only the second lets it go
on. -/
theorem walk_cases {n : Nat} {x : String} {w w' : Walk} (hfresh : x ∉ w.seen)
    (h : c.walk (n + 1) x w = .ok w') :
    ∃ w₁, c.walkEach n (c.owners x) { w with seen := x :: w.seen } = .ok w₁
      ∧ w' = { w₁ with left := x :: w₁.left } := by
  by_cases hself : c.Contains x x
  · rw [walk_of_self hfresh hself] at h
    cases h
  · rw [walk_of_fresh hfresh hself] at h
    cases heach : c.walkEach n (c.owners x)
      { w with seen := x :: w.seen } with
    | error y =>
      rw [heach] at h
      cases h
    | ok w₁ =>
      rw [heach] at h
      cases h
      exact ⟨w₁, rfl, rfl⟩

/-- If a walk from each thing ends, so does one from several. -/
theorem exists_walkEach {n : Nat} (hwalk : ∀ x w, ∃ w', c.walk n x w = .ok w')
    (xs : List String) : ∀ w, ∃ w', c.walkEach n xs w = .ok w' := by
  induction xs with
  | nil => exact fun w => ⟨w, rfl⟩
  | cons x xs ih =>
    intro w
    obtain ⟨w₁, hfirst⟩ := hwalk x w
    obtain ⟨w', hrest⟩ := ih w₁
    refine ⟨w', ?_⟩
    unfold walkEach at hrest ⊢
    rw [List.foldlM_cons, hfirst]
    exact hrest

/-- A walk fails only at things that contain themselves. By induction on the
bound, which never makes it fail, as a walk that may go no deeper just stays;
`exists_walkEach` is the step. -/
theorem exists_walk (hacyclic : c.Acyclic) (n : Nat) :
    ∀ x w, ∃ w', c.walk n x w = .ok w' := by
  induction n with
  | zero => exact fun x w => ⟨w, rfl⟩
  | succ n ih =>
    intro x w
    by_cases hseen : x ∈ w.seen
    · exact ⟨w, walk_of_seen hseen⟩
    · obtain ⟨w₁, howners⟩ :=
        exists_walkEach ih (c.owners x) { w with seen := x :: w.seen }
      refine ⟨{ w₁ with left := x :: w₁.left }, ?_⟩
      rw [walk_of_fresh hseen fun hself =>
        hacyclic x (.single hself), howners]
      rfl

-- ================================================== what a walk leaves

/-- How many things a walk has still to enter. -/
def Walk.unseen (c : Containment) (w : Walk) : Nat :=
  remaining c.members.toFinset w.seen

/-- Entering a thing leaves a walk sound. -/
theorem Walk.Sound.enter {w : Walk} (h : w.Sound c) {x : String}
    (hmem : x ∈ c.members) : Walk.Sound c { w with seen := x :: w.seen } where
  entered y hy := List.mem_cons_of_mem _ (h.entered y hy)
  members y hy := by
    rcases List.mem_cons.1 hy with rfl | hy
    · exact hmem
    · exact h.members y hy
  nodup := h.nodup

/-- A walk that has gone on from a thing and come back leaves it, which keeps
both `Walk.Sound` and `Walk.Grows`. -/
theorem Walk.Grows.leave {w w₁ : Walk} {x : String} (hsound : w.Sound c)
    (hfresh : x ∉ w.seen) (hsound₁ : w₁.Sound c)
    (h : Grows { w with seen := x :: w.seen } w₁) :
    Walk.Sound c { w₁ with left := x :: w₁.left }
      ∧ w.Grows { w₁ with left := x :: w₁.left } := by
  have hx : x ∈ w₁.seen := h.seen x List.mem_cons_self
  have hopen : x ∉ w₁.left := by
    intro hleft
    rcases h.fresh x hleft with hbefore | hnew
    · exact hfresh (hsound.entered x hbefore)
    · exact hnew List.mem_cons_self
  constructor
  · refine ⟨fun y hy => ?_, hsound₁.members,
      List.nodup_cons.2 ⟨hopen, hsound₁.nodup⟩⟩
    rcases List.mem_cons.1 hy with rfl | hy
    · exact hx
    · exact hsound₁.entered y hy
  · constructor
    case seen => exact fun y hy => h.seen y (List.mem_cons_of_mem _ hy)
    case left => exact fun y hy => List.mem_cons_of_mem _ (h.left y hy)
    case finished =>
      intro y hy
      rcases h.finished y hy with hbefore | hleft
      · rcases List.mem_cons.1 hbefore with rfl | hbefore
        · exact Or.inr List.mem_cons_self
        · exact Or.inl hbefore
      · exact Or.inr (List.mem_cons_of_mem _ hleft)
    case fresh =>
      intro y hy
      rcases List.mem_cons.1 hy with rfl | hy
      · exact Or.inr hfresh
      · rcases h.fresh y hy with hbefore | hnew
        · exact Or.inl hbefore
        · exact Or.inr fun hseen => hnew (List.mem_cons_of_mem _ hseen)

/-- A walk from several things keeps the invariants, and enters all of them,
if a walk from each does. By induction on the things; what is unseen does not
grow along the way, so the bound suffices for each. -/
theorem walkEach_grows {n : Nat}
    (hwalk : ∀ {x w w'}, w.Sound c → x ∈ c.members → w.unseen c < n →
      c.walk n x w = .ok w' →
      w'.Sound c ∧ w.Grows w' ∧ x ∈ w'.seen) {xs : List String} :
    ∀ {w w' : Walk}, w.Sound c → (∀ x ∈ xs, x ∈ c.members) → w.unseen c < n →
      c.walkEach n xs w = .ok w' → w'.Sound c ∧ w.Grows w'
        ∧ ∀ x ∈ xs, x ∈ w'.seen := by
  induction xs with
  | nil =>
    intro w w' hsound _ _ h
    cases h
    exact ⟨hsound, .refl w, fun x hx => (nomatch hx)⟩
  | cons x xs ih =>
    intro w w' hsound hmem hdeep h
    obtain ⟨w₁, hfirst, hrest⟩ := walkEach_cons h
    obtain ⟨hsound₁, hgrows₁, hx⟩ :=
      hwalk hsound (hmem x List.mem_cons_self) hdeep hfirst
    have hdeep₁ : w₁.unseen c < n :=
      Nat.lt_of_le_of_lt (remaining_le hgrows₁.seen) hdeep
    obtain ⟨hsound₂, hgrows₂, hxs⟩ :=
      ih hsound₁ (fun y hy => hmem y (List.mem_cons_of_mem _ hy)) hdeep₁ hrest
    refine ⟨hsound₂, hgrows₁.trans hgrows₂, fun y hy => ?_⟩
    rcases List.mem_cons.1 hy with rfl | hy
    · exact hgrows₂.seen _ hx
    · exact hxs y hy

/-- A walk that may go deep enough enters a thing and leaves all that it has
entered. By induction on the bound; entering a new thing leaves one fewer
unseen (`remaining_cons_lt`). -/
theorem walk_grows {n : Nat} :
    ∀ {x : String} {w w' : Walk}, w.Sound c → x ∈ c.members →
    w.unseen c < n → c.walk n x w = .ok w' → w'.Sound c ∧ w.Grows w'
      ∧ x ∈ w'.seen := by
  induction n with
  | zero =>
    intro x w w' _ _ hdeep _
    exact absurd hdeep (Nat.not_lt_zero _)
  | succ n ih =>
    intro x w w' hsound hmem hdeep h
    by_cases hseen : x ∈ w.seen
    · rw [walk_of_seen hseen] at h
      cases h
      exact ⟨hsound, .refl w, hseen⟩
    · obtain ⟨w₁, howners, rfl⟩ := walk_cases hseen h
      have hdeep₁ : Walk.unseen c { w with seen := x :: w.seen } < n :=
        Nat.lt_of_lt_of_le (remaining_cons_lt (List.mem_toFinset.2 hmem)
          hseen) (Nat.le_of_lt_succ hdeep)
      obtain ⟨hsound₁, hgrows, -⟩ := walkEach_grows ih (hsound.enter hmem)
        (fun owner howner => (mem_owners.1 howner).owner_mem) hdeep₁ howners
      obtain ⟨hsound', hgrows'⟩ := hgrows.leave hsound hseen hsound₁
      exact ⟨hsound', hgrows', hgrows.seen x List.mem_cons_self⟩

/-- The things from which a walk comes to a thing, those that it has entered
and not left, are contained in that thing. -/
def Walk.From (c : Containment) (x : String) (w : Walk) : Prop :=
  ∀ y ∈ w.seen, y ∉ w.left → TransGen c.Contains x y

/-- A walk from several things keeps them placed. Between two of them nothing
is open that was not open before (`Grows.open_of_open`), so `Walk.From`
carries over. -/
theorem walkEach_places {n : Nat}
    (hwalk : ∀ {x w w'}, w.Sound c → x ∈ c.members → w.unseen c < n →
      w.From c x →
      c.Placed w.left → c.walk n x w = .ok w' → c.Placed w'.left)
    {xs : List String} :
    ∀ {w w' : Walk}, w.Sound c → (∀ x ∈ xs, x ∈ c.members) → w.unseen c < n →
      (∀ x ∈ xs, w.From c x) → c.Placed w.left → c.walkEach n xs w = .ok w' →
      c.Placed w'.left := by
  induction xs with
  | nil =>
    intro w w' _ _ _ _ hplaced h
    cases h
    exact hplaced
  | cons x xs ih =>
    intro w w' hsound hmem hdeep hfrom hplaced h
    obtain ⟨w₁, hfirst, hrest⟩ := walkEach_cons h
    have hx := hmem x List.mem_cons_self
    obtain ⟨hsound₁, hgrows₁, -⟩ := walk_grows hsound hx hdeep hfirst
    have hplaced₁ := hwalk hsound hx hdeep (hfrom x List.mem_cons_self)
      hplaced hfirst
    have hdeep₁ : w₁.unseen c < n :=
      Nat.lt_of_le_of_lt (remaining_le hgrows₁.seen) hdeep
    -- What is open after the first thing was open before.
    have hfrom₁ : ∀ y ∈ xs, w₁.From c y := by
      intro y hy z hz hopen
      obtain ⟨hz, hopen⟩ := hgrows₁.open_of_open hz hopen
      exact hfrom y (List.mem_cons_of_mem _ hy) z hz hopen
    exact ih hsound₁ (fun y hy => hmem y (List.mem_cons_of_mem x hy)) hdeep₁
      hfrom₁ hplaced₁ hrest

/-- A walk puts each thing before its owners, those apart that the thing
contains. By induction on the bound, with `Walk.From` as what is known of the
things that are open: going on from a thing to its owner, they are contained
in the owner as well. -/
theorem walk_places {n : Nat} :
    ∀ {x : String} {w w' : Walk}, w.Sound c → x ∈ c.members →
    w.unseen c < n → w.From c x → c.Placed w.left → c.walk n x w = .ok w' →
    c.Placed w'.left := by
  induction n with
  | zero =>
    intro x w w' _ _ hdeep
    exact absurd hdeep (Nat.not_lt_zero _)
  | succ n ih =>
    intro x w w' hsound hmem hdeep hfrom hplaced h
    by_cases hseen : x ∈ w.seen
    · rw [walk_of_seen hseen] at h
      cases h
      exact hplaced
    · obtain ⟨w₁, howners, rfl⟩ := walk_cases hseen h
      have hdeep₁ : Walk.unseen c { w with seen := x :: w.seen } < n :=
        Nat.lt_of_lt_of_le (remaining_cons_lt (List.mem_toFinset.2 hmem)
          hseen) (Nat.le_of_lt_succ hdeep)
      have hmembers : ∀ owner ∈ c.owners x, owner ∈ c.members :=
        fun owner howner => (mem_owners.1 howner).owner_mem
      have hfrom₁ : ∀ owner ∈ c.owners x, Walk.From c owner
          { w with seen := x :: w.seen } := by
        intro owner howner y hy hopen
        have hcontains := mem_owners.1 howner
        rcases List.mem_cons.1 hy with rfl | hy
        · exact .single hcontains
        · exact .head hcontains (hfrom y hy hopen)
      obtain ⟨-, hgrows, hmet⟩ :=
        walkEach_grows walk_grows (hsound.enter hmem) hmembers hdeep₁ howners
      refine ⟨fun owner hcontains => ?_,
        walkEach_places ih (hsound.enter hmem) hmembers hdeep₁ hfrom₁
          hplaced howners⟩
      -- An owner that has not been left is the thing itself, or the walk has
      -- come from it.
      rcases hgrows.finished owner (hmet owner (mem_owners.2 hcontains))
        with hbefore | hleft
      · rcases List.mem_cons.1 hbefore with rfl | hbefore
        · exact Or.inr (.single hcontains)
        · by_cases hopen : owner ∈ w.left
          · exact Or.inl (hgrows.left owner hopen)
          · exact Or.inr (hfrom owner hbefore hopen)
      · exact Or.inl hleft

-- ====================================================== the whole walk

/-- The whole walk begins with nothing entered, goes on at all things, and
lists what it has left. -/
theorem walkAll_eq_ok_iff {xs : List String} :
    c.walkAll = .ok xs ↔ ∃ w, c.walkEach c.bound c.members ⟨[], []⟩ = .ok w
      ∧ w.left = xs := by
  show (c.walkEach c.bound c.members ⟨[], []⟩ >>= fun w => pure w.left)
      = .ok xs ↔ _
  cases c.walkEach c.bound c.members ⟨[], []⟩ with
  | error y => exact ⟨fun h => (nomatch h), fun ⟨w, h, _⟩ => (nomatch h)⟩
  | ok w =>
    constructor
    · intro h
      cases h
      exact ⟨w, rfl, rfl⟩
    · rintro ⟨w', h, rfl⟩
      cases h
      rfl

theorem Walk.sound_start : Walk.Sound c ⟨[], []⟩ :=
  ⟨fun _ hx => (nomatch hx), fun _ hx => (nomatch hx), .nil⟩

/-- The bound is larger than what can be `unseen`. -/
theorem unseen_lt_bound {w : Walk} : w.unseen c < c.bound := by
  have hcard := List.toFinset_card_le c.members
  have hremaining : w.unseen c ≤ c.members.toFinset.card := remaining_le_card
  unfold bound
  omega

/-- The whole walk lists all things, each once: it has entered all of them
and, by `walkEach_grows` from the start, left them again. -/
theorem walkAll_lists {xs : List String} (h : c.walkAll = .ok xs) :
    xs.Nodup ∧ ∀ x, x ∈ xs ↔ x ∈ c.members := by
  obtain ⟨w, heach, rfl⟩ := walkAll_eq_ok_iff.1 h
  obtain ⟨hsound, hgrows, hseen⟩ :=
    walkEach_grows walk_grows Walk.sound_start (fun x hx => hx)
      unseen_lt_bound heach
  refine ⟨hsound.nodup, fun x =>
    ⟨fun hx => hsound.members x (hsound.entered x hx), fun hx => ?_⟩⟩
  exact (hgrows.finished x (hseen x hx)).resolve_left List.not_mem_nil

/-- The whole walk lists each thing before its owners, those apart that the
thing contains (`walkEach_places` from the start). -/
theorem walkAll_places {xs : List String} (h : c.walkAll = .ok xs) :
    c.Placed xs := by
  obtain ⟨w, heach, rfl⟩ := walkAll_eq_ok_iff.1 h
  exact walkEach_places walk_places Walk.sound_start (fun x hx => hx)
    unseen_lt_bound (fun _ _ _ hseen => (nomatch hseen)) trivial heach

/-- There is an order exactly if the whole walk lists one and it passes the
check, which is to be `Ordered`. -/
theorem order_eq_ok_iff (hdistinct : c.members.Nodup) {xs : List String} :
    c.order = .ok xs ↔ c.walkAll = .ok xs ∧ c.Ordered xs := by
  unfold order
  cases hwalk : c.walkAll with
  | error y => exact ⟨fun h => (nomatch h), fun h => (nomatch h.1)⟩
  | ok ys =>
    dsimp only
    cases hearly : c.firstEarly? [] ys with
    | some x =>
      refine ⟨fun h => (nomatch h), fun ⟨hsame, hordered⟩ => ?_⟩
      cases hsame
      rw [(firstEarly?_eq_none_iff hdistinct).2 hordered] at hearly
      cases hearly
    | none =>
      constructor
      · intro h
        cases h
        exact ⟨rfl, (firstEarly?_eq_none_iff hdistinct).1 hearly⟩
      · rintro ⟨hsame, -⟩
        cases hsame
        rfl

/-- An order lists all things, each once and after its parts. -/
theorem ordered_of_order (hdistinct : c.members.Nodup) {xs : List String}
    (h : c.order = .ok xs) :
    xs.Nodup ∧ (∀ x, x ∈ xs ↔ x ∈ c.members) ∧ c.Ordered xs := by
  obtain ⟨hwalk, hordered⟩ := (order_eq_ok_iff hdistinct).1 h
  obtain ⟨hnodup, hmem⟩ := walkAll_lists hwalk
  exact ⟨hnodup, hmem, hordered⟩

/-- There is an order exactly if nothing contains itself. An order leaves no
room for circles (`Ordered.acyclic`); without circles the walk ends
(`exists_walk`), and what it lists is settled, so it passes the check. -/
theorem exists_order_iff (hdistinct : c.members.Nodup) (hclosed : c.Closed) :
    (∃ xs, c.order = .ok xs) ↔ c.Acyclic := by
  constructor
  · rintro ⟨xs, h⟩
    obtain ⟨-, hmem, hordered⟩ := ordered_of_order hdistinct h
    exact hordered.acyclic fun x hx => (hmem x).2 hx
  · intro hacyclic
    obtain ⟨w, heach⟩ := exists_walkEach (exists_walk hacyclic c.bound)
      c.members ⟨[], []⟩
    have hwalk := walkAll_eq_ok_iff.2 ⟨w, heach, rfl⟩
    obtain ⟨hnodup, hmem⟩ := walkAll_lists hwalk
    have hsettled := (walkAll_places hwalk).settled hacyclic
    refine ⟨w.left, (order_eq_ok_iff hdistinct).2
      ⟨hwalk, hsettled.ordered hnodup ?_⟩⟩
    exact fun owner part hcontains =>
      (hmem part).2 (hclosed owner part hcontains)

end Containment

end TaskRouting

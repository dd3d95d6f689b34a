import TaskRouting.Proofs.Catalog.WellFormed
/-!
What is reported where tasks contain themselves.

# What is to blame

There are two ways to find out that something contains itself. The walk stops
at a thing that does so directly (`of_walk_error`). Otherwise the walk lists
all things, and puts each one before its owners unless it contains the owner
in turn (`Placed`); so a thing that stands before one of its own parts is
contained in that part (`circle_of_early`). The first way is tried on all
things, so if anything contains itself directly such a thing is blamed
(`walk_flat`: a walk that is not stopped has met none).

# What can be reached

What is reported is all that the blamed thing contains, as far as that
contains it. Both halves are found by `reach`, which goes on at the successors
of what it has not met. `Spread` says what that does: what has been met before
stays, what is newly met has its successors met too, and nothing is met that
cannot be reached. It is closed under going on at several things
(`Spread.cons`) and at the successors of one (`Spread.enter`), so by induction
on the bound `reach` meets exactly what can be reached (`mem_reach_iff`),
since the bound is above what `remaining` can be.

# What is reported

So the report is the whole class of things that contain each other, and
nothing else (`mem_circle`, `circle_of_order_error`).
`order_is_topological_or_circle` says it of documents, with both outcomes of
putting their entries in order.
-/

namespace TaskRouting.Containment

open Relation

variable {c : Containment}

-- =================================================== what stops a walk

/-- A walk from several things is stopped only where one of its parts is,
which the hypothesis on `walk` puts down to a thing that contains itself. -/
theorem of_walkEach_error {n : Nat}
    (hwalk : ∀ {x w y}, c.walk n x w = .error y → c.Contains y y)
    {xs : List String} :
    ∀ {w : Walk} {y : String}, c.walkEach n xs w = .error y →
      c.Contains y y := by
  induction xs with
  | nil => exact fun h => (nomatch h)
  | cons x xs ih =>
    intro w y h
    unfold walkEach at h
    rw [List.foldlM_cons] at h
    cases hfirst : c.walk n x w with
    | error y' =>
      rw [hfirst] at h
      cases h
      exact hwalk hfirst
    | ok w₁ =>
      rw [hfirst] at h
      exact ih h

/-- A walk is stopped only by a thing that contains itself directly. By
induction on the bound: the thing itself (`walk_of_self`), or one that the
walk from its owners has met (`of_walkEach_error`). -/
theorem of_walk_error {n : Nat} :
    ∀ {x : String} {w : Walk} {y : String}, c.walk n x w = .error y →
      c.Contains y y := by
  induction n with
  | zero => exact fun h => (nomatch h)
  | succ n ih =>
    intro x w y h
    by_cases hseen : x ∈ w.seen
    · rw [walk_of_seen hseen] at h
      cases h
    · by_cases hself : c.Contains x x
      · rw [walk_of_self hseen hself] at h
        cases h
        exact hself
      · rw [walk_of_fresh hseen hself] at h
        cases heach : c.walkEach n (c.owners x)
          { w with seen := x :: w.seen } with
        | error y' =>
          rw [heach] at h
          cases h
          exact of_walkEach_error ih heach
        | ok w₁ =>
          rw [heach] at h
          cases h

/-- Nothing that has been entered contains itself directly. -/
def Walk.Flat (c : Containment) (w : Walk) : Prop :=
  ∀ x ∈ w.seen, ¬ c.Contains x x

/-- A walk from several things that is not stopped has entered no thing that
contains itself directly, if that is so for each one. -/
theorem walkEach_flat {n : Nat}
    (hwalk : ∀ {x w w'}, w.Flat c → c.walk n x w = .ok w' → w'.Flat c)
    {xs : List String} :
    ∀ {w w' : Walk}, w.Flat c → c.walkEach n xs w = .ok w' → w'.Flat c := by
  induction xs with
  | nil =>
    intro w w' hflat h
    cases h
    exact hflat
  | cons x xs ih =>
    intro w w' hflat h
    obtain ⟨w₁, hfirst, hrest⟩ := walkEach_cons h
    exact ih (hwalk hflat hfirst) hrest

/-- A walk that is not stopped has entered no thing that contains itself
directly: it would have stopped there. By induction on the bound, with
`walkEach_flat` for the owners. -/
theorem walk_flat {n : Nat} :
    ∀ {x : String} {w w' : Walk}, w.Flat c →
      c.walk n x w = .ok w' → w'.Flat c := by
  induction n with
  | zero =>
    intro x w w' hflat h
    cases h
    exact hflat
  | succ n ih =>
    intro x w w' hflat h
    by_cases hseen : x ∈ w.seen
    · rw [walk_of_seen hseen] at h
      cases h
      exact hflat
    · by_cases hself : c.Contains x x
      · rw [walk_of_self hseen hself] at h
        cases h
      · obtain ⟨w₁, howners, rfl⟩ := walk_cases hseen h
        have hentered : Walk.Flat c { w with seen := x :: w.seen } := by
          intro y hy
          rcases List.mem_cons.1 hy with rfl | hy
          · exact hself
          · exact hflat y hy
        have howned : w₁.Flat c := walkEach_flat ih hentered howners
        exact howned

/-- If the whole walk is not stopped, nothing contains itself directly, since
it is `Flat` and has entered everything. -/
theorem not_contains_self_of_walkAll {xs : List String}
    (h : c.walkAll = .ok xs) {x : String} (hx : x ∈ c.members) :
    ¬ c.Contains x x := by
  obtain ⟨w, heach, -⟩ := walkAll_eq_ok_iff.1 h
  obtain ⟨-, -, hmet⟩ :=
    walkEach_grows walk_grows Walk.sound_start (fun x hx => hx)
      unseen_lt_bound heach
  have hflat : w.Flat c :=
    walkEach_flat walk_flat (fun _ hy => absurd hy List.not_mem_nil) heach
  exact hflat x (hmet x hx)

/-- If it is stopped, it is so at a thing that contains itself directly
(`of_walk_error`). -/
theorem of_walkAll_error {x : String} (h : c.walkAll = .error x) :
    c.Contains x x := by
  have hwalk :
      (c.walkEach c.bound c.members ⟨[], []⟩ >>= fun w => pure w.left)
        = (.error x : Except String (List String)) := h
  cases heach : c.walkEach c.bound c.members ⟨[], []⟩ with
  | error y =>
    rw [heach] at hwalk
    cases hwalk
    exact of_walkEach_error of_walk_error heach
  | ok w =>
    rw [heach] at hwalk
    cases hwalk

-- ================================================ what comes too early

/-- What `firstEarly?` finds has a part that is not among those before it. By
induction on the list, for any things that have been passed. -/
theorem of_firstEarly?_eq_some (hdistinct : c.members.Nodup) {x : String}
    {ys : List String} :
    ∀ {zs : List String}, c.firstEarly? zs ys = some x →
      ∃ before after part, ys = before ++ x :: after ∧ c.Contains x part
        ∧ part ∉ zs ∧ part ∉ before := by
  induction ys with
  | nil => exact fun h => (nomatch h)
  | cons first rest ih =>
    intro zs h
    unfold firstEarly? at h
    by_cases hparts : (c.parts first).all (· ∈ zs) = true
    · rw [if_pos hparts] at h
      obtain ⟨before, after, part, rfl, hpart, hzs, hbefore⟩ := ih h
      obtain ⟨hne, hzs⟩ := not_or.1 (mt List.mem_cons.2 hzs)
      refine ⟨first :: before, after, part, rfl, hpart, hzs, fun hmem => ?_⟩
      exact (List.mem_cons.1 hmem).elim hne hbefore
    · rw [if_neg hparts] at h
      cases h
      obtain ⟨part, hpart, hlate⟩ : ∃ part ∈ c.parts x, part ∉ zs := by
        by_contra hall
        push Not at hall
        exact hparts (List.all_eq_true.2 fun part hpart =>
          decide_eq_true (hall part hpart))
      exact ⟨[], rest, part, rfl, (mem_parts hdistinct).1 hpart, hlate,
        List.not_mem_nil⟩

/-- A thing that comes too early in the whole walk contains itself, be it
through others. One of its parts comes after it (`of_firstEarly?_eq_some`),
and the whole walk places each thing before its owners but for those that it
contains (`walkAll_places`). -/
theorem circle_of_early (hdistinct : c.members.Nodup) (hclosed : c.Closed)
    {xs : List String} {x : String} (hwalk : c.walkAll = .ok xs)
    (hearly : c.firstEarly? [] xs = some x) : TransGen c.Contains x x := by
  obtain ⟨before, after, part, rfl, hpart, -, hlate⟩ :=
    of_firstEarly?_eq_some hdistinct hearly
  obtain ⟨hnodup, hmem⟩ := walkAll_lists hwalk
  have hlisted : part ∈ before ++ x :: after :=
    (hmem part).2 (hclosed x part hpart)
  rcases List.mem_cons.1 ((List.mem_append.1 hlisted).resolve_left hlate)
    with rfl | hafter
  · exact .single hpart
  · -- The part comes after its owner, so it must contain the owner in turn.
    obtain ⟨between, rest, rfl⟩ := List.append_of_mem hafter
    have hplaced : c.Placed (before ++ x :: between ++ part :: rest) := by
      rw [List.append_assoc]
      exact walkAll_places hwalk
    have howner : x ∉ rest := by
      intro hrest
      have hlater : x ∉ between ++ part :: rest :=
        (List.nodup_cons.1 (List.Nodup.of_append_right hnodup)).1
      exact hlater (List.mem_append_right _ (List.mem_cons_of_mem _ hrest))
    exact .head hpart ((hplaced.of_append.1 x hpart).resolve_left howner)

-- ================================================= what can be reached

/-- What has been met after some things has been met before, or can be reached
from one of them. All that has been newly met has its successors met as
well. -/
structure Spread (next : String → List String)
    (xs seen seen' : List String) : Prop where
  kept : ∀ y ∈ seen, y ∈ seen'
  met : ∀ x ∈ xs, x ∈ seen'
  closed : ∀ y ∈ seen', y ∉ seen → ∀ z ∈ next y, z ∈ seen'
  sound : ∀ y ∈ seen', y ∈ seen
    ∨ ∃ x ∈ xs, ReflTransGen (fun a b => b ∈ next a) x y

variable {next : String → List String}

theorem Spread.nil (seen : List String) : Spread next [] seen seen where
  kept _ hy := hy
  met _ hx := nomatch hx
  closed _ hy hfresh := absurd hy hfresh
  sound _ hy := Or.inl hy

/-- Going on at one thing and then at others meets what can be reached from
any of them. The successors of what the first part has met stay met in the
second. -/
theorem Spread.cons {x : String} {xs seen seen₁ seen₂ : List String}
    (hfirst : Spread next [x] seen seen₁)
    (hrest : Spread next xs seen₁ seen₂) :
    Spread next (x :: xs) seen seen₂ where
  kept y hy := hrest.kept y (hfirst.kept y hy)
  met y hy := by
    rcases List.mem_cons.1 hy with rfl | hy
    · exact hrest.kept _ (hfirst.met _ List.mem_cons_self)
    · exact hrest.met y hy
  closed y hy hfresh z hz := by
    by_cases hmet : y ∈ seen₁
    · exact hrest.kept z (hfirst.closed y hmet hfresh z hz)
    · exact hrest.closed y hy hmet z hz
  sound y hy := by
    rcases hrest.sound y hy with hy | ⟨x', hx', hreach⟩
    · refine (hfirst.sound y hy).imp_right ?_
      rintro ⟨x', hx', hreach⟩
      exact ⟨x', List.mem_cons.2 (Or.inl (List.mem_singleton.1 hx')), hreach⟩
    · exact Or.inr ⟨x', List.mem_cons_of_mem _ hx', hreach⟩

/-- What has been met is left as it is. -/
theorem Spread.again {x : String} {seen : List String} (h : x ∈ seen) :
    Spread next [x] seen seen where
  kept _ hy := hy
  met _ hy := List.mem_singleton.1 hy ▸ h
  closed _ hy hfresh := absurd hy hfresh
  sound _ hy := Or.inl hy

/-- A thing is met by meeting all of its successors. -/
theorem Spread.enter {x : String} {seen seen' : List String}
    (h : Spread next (next x) (x :: seen) seen') :
    Spread next [x] seen seen' where
  kept y hy := h.kept y (List.mem_cons_of_mem _ hy)
  met y hy := List.mem_singleton.1 hy ▸ h.kept x List.mem_cons_self
  closed y hy hfresh z hz := by
    by_cases heq : y = x
    · subst heq
      exact h.met z hz
    · exact h.closed y hy (fun hmem => (List.mem_cons.1 hmem).elim heq hfresh)
        z hz
  sound y hy := by
    rcases h.sound y hy with hseen | ⟨z, hz, hreach⟩
    · rcases List.mem_cons.1 hseen with rfl | hseen
      · exact Or.inr ⟨_, List.mem_cons_self, .refl⟩
      · exact Or.inl hseen
    · exact Or.inr ⟨x, List.mem_cons_self, .head hz hreach⟩

/-- Going on at several things in turn is a `Spread` from all of them, if it
is one from each; what remains to be met does not grow on the way. -/
theorem foldl_spreads {meet : String → List String → List String}
    {all : Finset String} {n : Nat}
    (hmeet : ∀ {x seen}, x ∈ all → remaining all seen < n →
      Spread next [x] seen (meet x seen))
    {xs : List String} :
    ∀ {seen : List String}, (∀ x ∈ xs, x ∈ all) → remaining all seen < n →
      Spread next xs seen (xs.foldl (fun seen x => meet x seen) seen) := by
  induction xs with
  | nil => exact fun {seen} _ _ => .nil seen
  | cons x xs ih =>
    intro seen hall hdeep
    have hfirst := hmeet (hall x List.mem_cons_self) hdeep
    have hdeep' := Nat.lt_of_le_of_lt (remaining_le hfirst.kept) hdeep
    exact hfirst.cons
      (ih (fun y hy => hall y (List.mem_cons_of_mem _ hy)) hdeep')

/-- Among finitely many things, going deep enough meets all that can be
reached. By induction on the bound: a thing that is new leaves one fewer to be
met for its successors (`remaining_cons_lt`). -/
theorem reach_spreads {all : Finset String}
    (hall : ∀ y ∈ all, ∀ z ∈ next y, z ∈ all) {n : Nat} :
    ∀ {x : String} {seen : List String}, x ∈ all → remaining all seen < n →
      Spread next [x] seen (reach next n x seen) := by
  induction n with
  | zero => exact fun _ hdeep => absurd hdeep (Nat.not_lt_zero _)
  | succ n ih =>
    intro x seen hx hdeep
    unfold reach
    by_cases hseen : x ∈ seen
    · rw [if_pos hseen]
      exact .again hseen
    · rw [if_neg hseen]
      have hdeep' : remaining all (x :: seen) < n :=
        Nat.lt_of_lt_of_le (remaining_cons_lt hx hseen)
          (Nat.le_of_lt_succ hdeep)
      exact .enter (foldl_spreads ih (hall x hx) hdeep')

/-- Started with nothing met, it meets exactly what can be reached:
`Spread.sound` for one direction, `Spread.closed` along the path for the
other. -/
theorem mem_reach_iff {all : Finset String}
    (hall : ∀ y ∈ all, ∀ z ∈ next y, z ∈ all) {n : Nat} (hdeep : all.card < n)
    {x y : String} (hx : x ∈ all) :
    y ∈ reach next n x [] ↔ ReflTransGen (fun a b => b ∈ next a) x y := by
  have hspread : Spread next [x] [] (reach next n x []) :=
    reach_spreads hall hx (Nat.lt_of_le_of_lt remaining_le_card hdeep)
  constructor
  · intro hy
    obtain ⟨x', hx', hreach⟩ :=
      (hspread.sound y hy).resolve_left List.not_mem_nil
    rwa [List.mem_singleton.1 hx'] at hreach
  · intro hreach
    induction hreach with
    | refl => exact hspread.met x List.mem_cons_self
    | tail _ hstep ih => exact hspread.closed _ ih List.not_mem_nil _ hstep

-- ==================================================== what is reported

/-- The bound is above the number of things. -/
theorem card_members_lt_bound : c.members.toFinset.card < c.bound :=
  Nat.lt_succ_of_le (List.toFinset_card_le c.members)

/-- What is reported for a thing is all that it contains and that contains it:
`within` follows the parts, and `around` the owners, which is the same
relation turned round. -/
theorem mem_circle (hdistinct : c.members.Nodup) (hclosed : c.Closed)
    {x y : String} (hx : x ∈ c.members) :
    y ∈ c.circle x ↔ ReflTransGen c.Contains x y
      ∧ ReflTransGen c.Contains y x := by
  have hwithin : y ∈ c.within x ↔ ReflTransGen c.Contains x y := by
    have hsame : (fun owner part => part ∈ c.parts owner) = c.Contains := by
      funext owner part
      exact propext (mem_parts hdistinct)
    rw [within, mem_reach_iff (fun owner _ part hpart => ?_)
      card_members_lt_bound (List.mem_toFinset.2 hx), hsame]
    exact List.mem_toFinset.2
      (hclosed owner part ((mem_parts hdistinct).1 hpart))
  have haround : y ∈ c.around x ↔ ReflTransGen c.Contains y x := by
    have hsame : (fun part owner => owner ∈ c.owners part)
        = Function.swap c.Contains := by
      funext part owner
      exact propext mem_owners
    rw [around, mem_reach_iff (fun part _ owner howner => ?_)
      card_members_lt_bound (List.mem_toFinset.2 hx), hsame,
      reflTransGen_swap]
    exact List.mem_toFinset.2 (mem_owners.1 howner).owner_mem
  unfold circle
  rw [mem_sortedSet, List.mem_filter, decide_eq_true_iff, hwithin, haround]

/-- Where there is no order, something that contains itself is to blame:
directly, if anything does so. One case for a walk that is stopped
(`of_walkAll_error`), and one for a list that fails the check
(`circle_of_early`). -/
theorem of_order_error (hdistinct : c.members.Nodup) (hclosed : c.Closed)
    {members : List String} (h : c.order = .error members) :
    ∃ x, TransGen c.Contains x x ∧ members = c.circle x
      ∧ ((∃ y, c.Contains y y) → c.Contains x x) := by
  unfold order at h
  cases hwalk : c.walkAll with
  | error x =>
    rw [hwalk] at h
    cases h
    have hself := of_walkAll_error hwalk
    exact ⟨x, .single hself, rfl, fun _ => hself⟩
  | ok xs =>
    rw [hwalk] at h
    dsimp only at h
    cases hearly : c.firstEarly? [] xs with
    | none =>
      rw [hearly] at h
      cases h
    | some x =>
      rw [hearly] at h
      cases h
      refine ⟨x, circle_of_early hdistinct hclosed hwalk hearly, rfl, ?_⟩
      rintro ⟨y, hself⟩
      exact absurd hself (not_contains_self_of_walkAll hwalk hself.owner_mem)

/-- What is reported is one whole class of things that contain each other,
ascending. Where anything contains itself directly, it is the class of such a
thing. The class is that of the thing to blame (`of_order_error`), which lies
on a circle, so any two of its members contain each other by way of that
one. -/
theorem circle_of_order_error (hdistinct : c.members.Nodup)
    (hclosed : c.Closed) {members : List String}
    (h : c.order = .error members) :
    members ≠ [] ∧ members.Pairwise (· < ·)
      ∧ (∀ x ∈ members, ∀ y, y ∈ members ↔ TransGen c.Contains x y
        ∧ TransGen c.Contains y x)
      ∧ ((∃ y, c.Contains y y) → ∃ x ∈ members, c.Contains x x) := by
  obtain ⟨blamed, hcircle, rfl, hself⟩ := of_order_error hdistinct hclosed h
  have hblamed : blamed ∈ c.members := by
    obtain ⟨part, hcontains, -⟩ := TransGen.head'_iff.1 hcircle
    exact hcontains.owner_mem
  have hmem : ∀ y, y ∈ c.circle blamed
      ↔ ReflTransGen c.Contains blamed y ∧ ReflTransGen c.Contains y blamed :=
    fun y => mem_circle hdistinct hclosed hblamed
  have hin : blamed ∈ c.circle blamed := (hmem blamed).2 ⟨.refl, .refl⟩
  refine ⟨List.ne_nil_of_mem hin, pairwise_sortedSet, fun x hx y => ?_,
    fun hdirect => ?_⟩
  · obtain ⟨hfrom, hto⟩ := (hmem x).1 hx
    constructor
    · -- Each way leads round by the thing to blame, which is on a circle.
      intro hy
      obtain ⟨hfrom', hto'⟩ := (hmem y).1 hy
      exact ⟨(hcircle.trans_left hfrom').trans_right hto,
        (hcircle.trans_left hfrom).trans_right hto'⟩
    · rintro ⟨hxy, hyx⟩
      exact (hmem y).2 ⟨hfrom.trans hxy.to_reflTransGen,
        hyx.to_reflTransGen.trans hto⟩
  · exact ⟨blamed, hin, hself hdirect⟩

end TaskRouting.Containment

namespace TaskRouting.Catalog

open Relation

/-- The entry of a workflow that has some sub-tasks under their own keys and
goes no further. -/
def Entry.holding (key : String) (parts : List String) : Entry :=
  { Entry.needing key "" with
    kind := .workflow
    tasks := parts.map fun part => (part, part) }

namespace Document

variable {d : Document}

/-- Of a document with distinct keys and known names, only circles keep the
entries from being put in order: the two checks before `Containment.order`
pass. -/
theorem order_eq_error_iff (hdistinct : d.keys.Nodup)
    (hknown : ∀ e ∈ d.entries, ∀ key ∈ Table.values e.tasks, key ∈ d.keys)
    {error : CatalogError} :
    d.order = .error error
      ↔ ∃ members, error = .containmentCycle members
        ∧ d.containment.order = .error members := by
  unfold order
  rw [firstRepeated?_eq_none_iff.2 hdistinct,
    firstUnknown?_eq_none_iff.2 hknown]
  dsimp only
  cases d.containment.order with
  | ok xs => exact ⟨fun h => (nomatch h), fun ⟨_, _, h⟩ => (nomatch h)⟩
  | error members =>
    constructor
    · intro h
      cases h
      exact ⟨members, rfl, rfl⟩
    · rintro ⟨_, rfl, h⟩
      cases h
      rfl

/-- The keys of all entries in an order in which each entry comes after those
that it names. -/
structure Topological (d : Document) (xs : List String) : Prop where
  keys : xs.Perm d.keys
  entries : (xs.filterMap d.entry?).Perm d.entries
  ordered : ∀ before e after, xs.filterMap d.entry? = before ++ e :: after →
    ∀ key ∈ Table.values e.tasks, key ∈ before.map (·.key)

/-- A whole class of entries that contain each other and themselves, ascending
by key. -/
structure Mutual (d : Document) (members : List String) : Prop where
  nonempty : members ≠ []
  ascending : members.Pairwise (· < ·)
  whole : ∀ key ∈ members, ∀ other,
    other ∈ members ↔ TransGen d.Contains key other
      ∧ TransGen d.Contains other key

/-- An order of the keys of a document is `Topological`. Both lists hold the
same without repetition, so they are permutations of each other. -/
theorem topological_of_order {xs : List String} (h : d.order = .ok xs) :
    d.Topological xs := by
  obtain ⟨hdistinct, -, horder⟩ := order_eq_ok_iff.1 h
  obtain ⟨hnodup, hmem, -⟩ :=
    Containment.ordered_of_order (members_containment ▸ hdistinct) horder
  obtain ⟨hdistinct', hentries, hordered⟩ := entries_of_order h
  constructor
  · exact (List.perm_ext_iff_of_nodup hnodup hdistinct).2
      (members_containment ▸ hmem)
  · exact (List.perm_ext_iff_of_nodup (.of_map _ hdistinct')
      (.of_map _ hdistinct)).2 hentries
  · exact hordered

/-- Of a document with distinct keys and known names, the entries are put in
an order in which each comes after those that it names, exactly if none
contains itself. Otherwise one whole class of entries that contain each other
is reported, with an entry in it that contains itself directly if there is
such an entry at all. The two outcomes are `topological_of_order` and
`Containment.circle_of_order_error`. -/
theorem order_is_topological_or_circle (hdistinct : d.keys.Nodup)
    (hknown : ∀ e ∈ d.entries, ∀ key ∈ Table.values e.tasks, key ∈ d.keys) :
    ((∃ xs, d.order = .ok xs) ↔ ∀ key, ¬ TransGen d.Contains key key)
      ∧ (∀ xs, d.order = .ok xs → d.Topological xs)
      ∧ ∀ error, d.order = .error error →
          ∃ members, error = .containmentCycle members ∧ d.Mutual members
            ∧ ((∃ key, d.Contains key key) →
              ∃ key ∈ members, d.Contains key key) := by
  refine ⟨?_, fun xs h => topological_of_order h, fun error h => ?_⟩
  · rw [exists_order_iff]
    exact ⟨fun h => h.2.2, fun h => ⟨hdistinct, hknown, h⟩⟩
  · obtain ⟨members, rfl, horder⟩ := (order_eq_error_iff hdistinct hknown).1 h
    obtain ⟨hnonempty, hascending, hwhole, hdirect⟩ :=
      Containment.circle_of_order_error (members_containment ▸ hdistinct)
        (containment_closed hknown) horder
    rw [containment_contains] at hwhole hdirect
    exact ⟨members, rfl, ⟨hnonempty, hascending, hwhole⟩, hdirect⟩

/-- Two pairs of workflows that contain each other. One of the first pair also
contains one of the second, and a fifth workflow contains one of the first
without being contained. -/
def knot : Document where
  parameters := []
  entries := [
    .holding "report" ["outline"],
    .holding "outline" ["draft"],
    .holding "draft" ["outline", "check"],
    .holding "check" ["review"],
    .holding "review" ["check"]]

/-- Of two classes that are entangled, one is reported as a whole, and nothing
besides. -/
theorem knot_reports_one_circle :
    knot.keys.Nodup
      ∧ (∀ e ∈ knot.entries, ∀ key ∈ Table.values e.tasks, key ∈ knot.keys)
      ∧ knot.order = .error (.containmentCycle ["check", "review"])
      ∧ knot.Mutual ["check", "review"] := by
  have hdistinct : knot.keys.Nodup := by decide
  have hknown : ∀ e ∈ knot.entries, ∀ key ∈ Table.values e.tasks,
      key ∈ knot.keys := by
    decide
  have horder : knot.order = .error (.containmentCycle ["check", "review"]) :=
    rfl
  obtain ⟨-, -, hcircle⟩ := order_is_topological_or_circle hdistinct hknown
  obtain ⟨members, hmembers, hmutual, -⟩ := hcircle _ horder
  cases hmembers
  exact ⟨hdistinct, hknown, horder, hmutual⟩

end Document

end TaskRouting.Catalog

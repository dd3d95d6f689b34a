import Mathlib.Data.List.Induction
import TaskRouting.Proofs.Setting
import TaskRouting.Proofs.Table
import TaskRouting.Proofs.Workflow.Stepping
import TaskRouting.Workflow.Draft
/-!
Which drafts become workflows.

# Writes

A draft is what a list of writes leaves (`Write`, `written`). Of two writes to
one place the last one counts, and a whole routing table is a write to all
routes at once. So every question about a draft is a question about the last
write that has something to say to it: `latest?`, asked with one of the
readers in the namespace `Write`. The answers are `taskOf?`, `startOf`,
`routeOf?`, `IsSource`, `attemptsOf` and `recursiveOf`, none of which mentions
the draft.

`Shows` says that a draft holds exactly these answers. It is true of the new
draft (`shows_new`) and each write preserves it (`Shows.write`, one case per
kind of write in every field), so by induction on the list it is true of
whatever has been written (`shows_written`).

# Building

`Sound` is what makes a workflow: there is a sub-task, the start is one, each
source of routes is a sub-task or a target, and there is an attempt.
`FirstWrong` says which of the four is the first that fails. They exclude
nothing (`Shows.wrong_or_sound`) and each decides what `build` answers
(`Shows.build_eq_error`, `Shows.build_eq_ok`), so both are exact.

The only search in it is the one for a stray source. `Shows.strayed?_spec`
says that it finds the least one, which is where the order of the table
counts: `InOrder` is part of `Shows` for this alone.

# First steps

Two of the four are what the first step of a run depends on. With the start
among the sub-tasks that step asks nobody (`step_of_owned`), and with an
attempt allowed it is not short of attempts (`failed_of_owned`). All of this
is assembled in `Draft.built_exactly_if_sound`.
-/

namespace TaskRouting

-- ====================================================== routing tables

namespace RoutingTable

/-- The sources ascend, and so do the codes of each source. -/
structure InOrder (t : RoutingTable) : Prop where
  sources : Table.Ascending t
  codes : ∀ e ∈ t, Table.Ascending e.2

/-- After a route is set it is taken, and all others are taken as before. The
two levels of the table are read back by `Table.get?_insert` each. -/
theorem route?_set (t : RoutingTable) (name : String) (code : UInt32)
    (route : Route) (source : String) (code' : UInt32) :
    (t.set name code route).route? source code'
      = if source = name ∧ code' = code then some route
        else t.route? source code' := by
  unfold set route?
  rw [Table.get?_insert]
  by_cases hsource : source = name
  · subst hsource
    rw [if_pos rfl, Option.bind_some, Table.get?_insert]
    by_cases hcode : code' = code
    · simp [hcode]
    · cases hcodes : Table.get? t source with
      | none => simp [hcode, Table.get?]
      | some codes => simp [hcode]
  · rw [if_neg hsource, if_neg fun h => hsource h.1]

/-- Setting a route keeps a table in order: the codes that are put back are
either the ones that have been there or none, with one code inserted
(`Ascending.insert`). -/
theorem InOrder.set {t : RoutingTable} (h : t.InOrder) (name : String)
    (code : UInt32) (route : Route) : (t.set name code route).InOrder := by
  refine ⟨h.sources.insert _ _, fun e he => ?_⟩
  rcases Table.mem_of_mem_insert he with rfl | he
  · have hcodes : Table.Ascending ((Table.get? t name).getD []) := by
      cases hfound : Table.get? t name with
      | none => exact List.Pairwise.nil
      | some codes => exact h.codes _ (Table.mem_of_get? hfound)
    exact hcodes.insert _ _
  · exact h.codes e he

/-- The targets are where the routes lead that are taken. That each entry of a
table is also the one that is taken needs `InOrder`: a second entry of one key
would never be. -/
theorem mem_targets_iff {t : RoutingTable} (h : t.InOrder) {name : String} :
    name ∈ t.targets
      ↔ ∃ source code route, t.route? source code = some route
        ∧ route.next = some name := by
  unfold targets route? Table.values
  simp only [List.mem_flatMap, List.mem_filterMap, List.mem_map,
    Option.bind_eq_some_iff]
  constructor
  · rintro ⟨_, ⟨⟨source, codes⟩, hsource, rfl⟩, _,
      ⟨⟨code, route⟩, hcode, rfl⟩, hnext⟩
    have hcodes : Table.get? t source = some codes :=
      Table.get?_of_mem h.sources.nodup_keys hsource
    have hroute : Table.get? codes code = some route :=
      Table.get?_of_mem (h.codes _ hsource).nodup_keys hcode
    exact ⟨source, code, route, ⟨codes, hcodes, hroute⟩, hnext⟩
  · rintro ⟨source, code, route, ⟨codes, hsource, hcode⟩, hnext⟩
    exact ⟨codes, ⟨_, Table.mem_of_get? hsource, rfl⟩, route,
      ⟨_, Table.mem_of_get? hcode, rfl⟩, hnext⟩

end RoutingTable

namespace Workflow.Draft

variable {τ α : Type}

-- ============================================================== writes

/-- One thing that is said of a workflow in the making. -/
inductive Write (τ : Type) where
  | task (name : String) (task : τ)
  | start (name : String)
  | route (name : String) (code : UInt32) (route : Route)
  | routing (table : RoutingTable) (inOrder : table.InOrder)
  | attempts (allowed : UInt32)
  | recursive (allowed : Bool)

/-- The draft after one more `Write`, made by the operation of that kind. -/
def write (d : Draft τ) : Write τ → Draft τ
  | .task name task => d.task name task
  | .start name => d.startAt name
  | .route name code route => d.route name code route
  | .routing table _ => d.withRouting table
  | .attempts allowed => d.attempts allowed
  | .recursive allowed => d.mayRecur allowed

/-- What some writes leave, the earliest first. -/
def written (identity : Identity) (ws : List (Write τ)) : Draft τ :=
  ws.foldl write (new identity)

namespace Write

/-- The sub-task that a write puts under a name. -/
def task? (name : String) : Write τ → Option τ
  | task name' t => if name = name' then some t else none
  | _ => none

/-- The name that a write puts first. -/
def start? : Write τ → Option String
  | start name => some name
  | _ => none

/-- The route that a write leaves for a source and a code. A whole table also
says where there is to be no route. -/
def route? (source : String) (code : UInt32) : Write τ → Option (Option Route)
  | route source' code' r =>
    if source = source' ∧ code = code' then some (some r) else none
  | routing table _ => some (table.route? source code)
  | _ => none

/-- Whether a write leaves a name among the sources of routes. -/
def source? (name : String) : Write τ → Option Bool
  | route source _ _ => if name = source then some true else none
  | routing table _ => some (table.contains name)
  | _ => none

/-- The number of attempts that a write allows. -/
def attempts? : Write τ → Option UInt32
  | attempts allowed => some allowed
  | _ => none

/-- Whether a write allows the workflow to recur. -/
def recursive? : Write τ → Option Bool
  | recursive allowed => some allowed
  | _ => none

end Write

/-- What the last write tells that has something to tell. -/
def latest? (tells : Write τ → Option α) (ws : List (Write τ)) : Option α :=
  ws.reverse.findSome? tells

/-- One more write is asked first, and only where it has nothing to tell are
the others asked. -/
theorem latest?_concat (tells : Write τ → Option α) (ws : List (Write τ))
    (w : Write τ) :
    latest? tells (ws ++ [w]) = (tells w).or (latest? tells ws) := by
  unfold latest?
  rw [List.reverse_append, List.reverse_singleton, List.singleton_append,
    List.findSome?_cons]
  cases tells w with
  | none => rfl
  | some a => rfl

-- ============================================== what some writes leave

section Left

variable (ws : List (Write τ))

/-- The sub-task that is left under a name, by the `latest?` write to it. -/
def taskOf? (name : String) : Option τ := latest? (Write.task? name) ws

/-- The name that runs first; the empty name where none has been given. -/
def startOf : String := (latest? Write.start? ws).getD ""

/-- The route that is left for a source and a code. A whole table may say last
that there is none. -/
def routeOf? (source : String) (code : UInt32) : Option Route :=
  (latest? (Write.route? source code) ws).join

/-- A name is left among the sources of routes: it is the `source?` of the
last write that has a say in it. -/
def IsSource (name : String) : Prop :=
  latest? (Write.source? name) ws = some true

/-- Some route that is left leads to a name. -/
def IsTarget (name : String) : Prop :=
  ∃ source code route, routeOf? ws source code = some route
    ∧ route.next = some name

/-- The number of attempts that is left, or else the usual one. -/
def attemptsOf : UInt32 := (latest? Write.attempts? ws).getD usualMaxAttempts

/-- Whether the workflow is left free to recur. Where nothing is said it is
not. -/
def recursiveOf : Bool := (latest? Write.recursive? ws).getD false

/-- A source of routes that is neither a sub-task nor the target of a
route. -/
def Stray (name : String) : Prop :=
  IsSource ws name ∧ taskOf? ws name = none ∧ ¬ IsTarget ws name

end Left

/-- A draft holds in each place what the last write to it has left there: the
values of `taskOf?`, `startOf`, `routeOf?` and the like. -/
structure Shows (d : Draft τ) (identity : Identity)
    (ws : List (Write τ)) : Prop where
  identity : d.identity = identity
  tasks : ∀ name, Table.get? d.tasks name = taskOf? ws name
  start : d.start.getD "" = startOf ws
  routes : ∀ source code, d.routing.route? source code
    = routeOf? ws source code
  sources : ∀ name, name ∈ Table.keys d.routing ↔ IsSource ws name
  attempts : d.maxAttempts = attemptsOf ws
  recursive : d.recursive = recursiveOf ws
  inOrder : d.routing.InOrder

/-- A `new` draft shows what no writes leave: nothing, or the usual values. -/
theorem shows_new (identity : Identity) :
    (new identity : Draft τ).Shows identity [] where
  identity := rfl
  tasks _ := rfl
  start := rfl
  routes _ _ := rfl
  sources name := by simp [new, Table.keys, IsSource, latest?]
  attempts := rfl
  recursive := rfl
  inOrder := ⟨List.Pairwise.nil, fun _ he => nomatch he⟩

/-- One more write leaves what it tells, and everything else as it was. Each
field is one use of `latest?_concat`, and in it each kind of write that does
not touch the place is closed by what `h` says of it. -/
theorem Shows.write {d : Draft τ} {identity : Identity} {ws : List (Write τ)}
    (h : d.Shows identity ws) (w : Write τ) :
    (d.write w).Shows identity (ws ++ [w]) where
  identity := by
    rw [← h.identity]
    cases w with
    | _ => rfl
  tasks name := by
    rw [taskOf?, latest?_concat, ← taskOf?, ← h.tasks]
    cases w with
    | task name' t =>
      refine (Table.get?_insert _ _ _ _).trans ?_
      by_cases hname : name = name'
      · simp [Write.task?, hname]
      · simp [Write.task?, hname]
    | _ => rfl
  start := by
    rw [startOf, latest?_concat, Option.getD_or, ← startOf, ← h.start]
    cases w with
    | _ => rfl
  routes source code := by
    rw [routeOf?, latest?_concat]
    have hkept := h.routes source code
    cases w with
    | route source' code' r =>
      refine (RoutingTable.route?_set _ _ _ _ _ _).trans ?_
      by_cases hboth : source = source' ∧ code = code'
      · simp [Write.route?, hboth]
      · simp [Write.route?, hboth, hkept, routeOf?]
    | routing table inOrder => rfl
    | _ => exact hkept
  sources name := by
    rw [IsSource, latest?_concat]
    have hkept := h.sources name
    cases w with
    | route source code r =>
      refine Table.mem_keys_insert.trans ?_
      by_cases hname : name = source
      · simp [Write.source?, hname]
      · simp [Write.source?, hname, hkept, IsSource]
    | routing table inOrder =>
      simp [Write.source?, ← Table.contains_iff, Draft.write, withRouting]
    | _ => exact hkept
  attempts := by
    rw [attemptsOf, latest?_concat, Option.getD_or, ← attemptsOf,
      ← h.attempts]
    cases w with
    | _ => rfl
  recursive := by
    rw [recursiveOf, latest?_concat, Option.getD_or, ← recursiveOf,
      ← h.recursive]
    cases w with
    | _ => rfl
  inOrder := by
    cases w with
    | route source code r => exact h.inOrder.set source code r
    | routing table inOrder => exact inOrder
    | _ => exact h.inOrder

/-- What some writes leave is what the last of them tell. By induction on the
writes from the end, since `written` folds from the front; the step is
`Shows.write`. -/
theorem shows_written (identity : Identity) (ws : List (Write τ)) :
    (written identity ws).Shows identity ws := by
  induction ws using List.reverseRecOn with
  | nil => exact shows_new identity
  | append_singleton ws w ih =>
    unfold written
    rw [List.foldl_concat]
    exact ih.write w

-- ============================================================ building

/-- What some writes leave can be built: none of the things is wrong that
`FirstWrong` lists. -/
structure Sound (ws : List (Write τ)) : Prop where
  nonempty : ∃ name task, taskOf? ws name = some task
  starts : ∃ task, taskOf? ws (startOf ws) = some task
  sources : ∀ name, IsSource ws name → (∃ task, taskOf? ws name = some task)
    ∨ IsTarget ws name
  attempts : 1 ≤ attemptsOf ws

/-- The first thing that is wrong with what some writes leave. Of several
stray sources it is the least one. -/
inductive FirstWrong (key : String) (ws : List (Write τ)) :
    WorkflowError → Prop where
  | empty (bare : ∀ name, taskOf? ws name = none) :
      FirstWrong key ws (.empty key)
  | unknownStart (filled : ∃ name task, taskOf? ws name = some task)
      (unknown : taskOf? ws (startOf ws) = none) :
      FirstWrong key ws (.unknownStart key (startOf ws))
  | unknownSource {source : String}
      (starts : ∃ task, taskOf? ws (startOf ws) = some task)
      (stray : Stray ws source)
      (least : ∀ other, Stray ws other → source ≤ other) :
      FirstWrong key ws (.unknownSource key source)
  | noAttempts (starts : ∃ task, taskOf? ws (startOf ws) = some task)
      (routed : ∀ source, ¬ Stray ws source) (unable : attemptsOf ws = 0) :
      FirstWrong key ws (.noAttempts key)

/-- A workflow is what some writes leave. -/
structure Follows (w : Workflow τ) (identity : Identity)
    (ws : List (Write τ)) : Prop where
  identity : w.identity = identity
  tasks : ∀ name, w.own? name = taskOf? ws name
  start : w.start = startOf ws
  routes : ∀ source code, w.route? source code = routeOf? ws source code
  attempts : w.maxAttempts = attemptsOf ws
  recursive : w.recursive = recursiveOf ws

variable {identity : Identity} {ws : List (Write τ)} {d : Draft τ}

theorem Shows.owns_iff (h : d.Shows identity ws) {name : String} :
    d.owns name = true ↔ ∃ task, taskOf? ws name = some task := by
  rw [owns, Table.contains, h.tasks, Option.isSome_iff_exists]

/-- A draft is without sub-tasks exactly if `taskOf?` leaves none under any
name. -/
theorem Shows.isEmpty_iff (h : d.Shows identity ws) :
    d.tasks.isEmpty = true ↔ ∀ name, taskOf? ws name = none := by
  simp only [← h.tasks, List.isEmpty_iff]
  constructor
  · intro hnil name
    rw [hnil]
    rfl
  · intro hnone
    cases htasks : d.tasks with
    | nil => rfl
    | cons e rest =>
      have hfirst := hnone e.1
      rw [htasks, Table.get?, if_pos rfl] at hfirst
      cases hfirst

theorem Shows.isTarget_iff (h : d.Shows identity ws) {name : String} :
    name ∈ d.routing.targets ↔ IsTarget ws name := by
  rw [RoutingTable.mem_targets_iff h.inOrder]
  simp only [h.routes]
  rfl

/-- A source that is complained of is the least stray one. The search runs
through the keys of the table, and these ascend (`Shows.inOrder`), so that the
first one that passes the test is below all others that do. -/
theorem Shows.strayed?_spec (h : d.Shows identity ws) :
    (d.strayed? = none ∧ ∀ name, ¬ Stray ws name)
      ∨ ∃ source, d.strayed? = some source ∧ Stray ws source
        ∧ ∀ other, Stray ws other → source ≤ other := by
  let loose : String × Table UInt32 Route → Bool :=
    fun e => !d.owns e.1 && !d.routing.targets.contains e.1
  -- The test of the search, read as the two things that a stray source lacks.
  have hloose : ∀ e,
      loose e = true ↔ taskOf? ws e.1 = none ∧ ¬ IsTarget ws e.1 := by
    intro e
    rw [Bool.and_eq_true, Bool.not_eq_true', Bool.not_eq_true',
      ← Bool.not_eq_true, ← Bool.not_eq_true, h.owns_iff,
      List.contains_iff_mem, h.isTarget_iff, ← Option.isSome_iff_exists,
      Option.not_isSome_iff_eq_none]
  have hstray : ∀ name,
      Stray ws name ↔ ∃ e ∈ d.routing, loose e = true ∧ e.1 = name := by
    intro name
    rw [Stray, ← h.sources, Table.keys, List.mem_map]
    constructor
    · rintro ⟨⟨e, he, rfl⟩, hneither⟩
      exact ⟨e, he, (hloose e).2 hneither, rfl⟩
    · rintro ⟨e, he, hp, rfl⟩
      exact ⟨⟨e, he, rfl⟩, (hloose e).1 hp⟩
  have hfind : d.strayed? = (d.routing.find? loose).map Prod.fst :=
    List.find?_map
  rw [hfind]
  cases hfound : d.routing.find? loose with
  | none =>
    refine Or.inl ⟨rfl, fun name hname => ?_⟩
    obtain ⟨e, he, hp, -⟩ := (hstray name).1 hname
    exact List.find?_eq_none.1 hfound e he hp
  | some e =>
    have hp : loose e = true := List.find?_some hfound
    refine Or.inr ⟨e.1, rfl,
      (hstray e.1).2 ⟨e, List.mem_of_find?_eq_some hfound, hp, rfl⟩, ?_⟩
    intro other hother
    obtain ⟨f, hf, hp', rfl⟩ := (hstray other).1 hother
    exact h.inOrder.sources.le_of_find? hfound f hf hp'

/-- Sources are justified exactly if none of them is `Stray`. -/
theorem not_stray_iff : (∀ name, ¬ Stray ws name)
    ↔ ∀ name, IsSource ws name → (∃ task, taskOf? ws name = some task)
      ∨ IsTarget ws name := by
  refine forall_congr' fun name => ?_
  rw [Stray, not_and, not_and_or, not_not, ← Ne, Option.ne_none_iff_exists']

/-- At least one attempt is allowed exactly if their number is not zero, which
is how the draft asks. -/
theorem one_le_attemptsOf_iff : 1 ≤ attemptsOf ws ↔ attemptsOf ws ≠ 0 := by
  rw [UInt32.le_iff_toNat_le, Ne, ← UInt32.toNat_inj]
  exact Nat.one_le_iff_ne_zero

/-- Something is wrong first, or nothing is wrong. The questions are asked in
the order of `build`, and each case of `FirstWrong` is one of them with the
earlier ones answered well. -/
theorem Shows.wrong_or_sound (h : d.Shows identity ws) (key : String) :
    (∃ error, FirstWrong key ws error) ∨ Sound ws := by
  by_cases hfilled : ∃ name task, taskOf? ws name = some task
  · cases hstart : taskOf? ws (startOf ws) with
    | none => exact Or.inl ⟨_, .unknownStart hfilled hstart⟩
    | some task =>
      rcases h.strayed?_spec with ⟨-, hnone⟩ | ⟨source, -, hstray, hleast⟩
      · by_cases hunable : attemptsOf ws = 0
        · exact Or.inl ⟨_, .noAttempts ⟨task, hstart⟩ hnone hunable⟩
        · refine Or.inr ⟨hfilled, ⟨task, hstart⟩, not_stray_iff.1 hnone, ?_⟩
          exact one_le_attemptsOf_iff.2 hunable
      · exact Or.inl ⟨_, .unknownSource ⟨task, hstart⟩ hstray hleast⟩
  · refine Or.inl ⟨_, .empty fun name => ?_⟩
    exact Option.eq_none_iff_forall_ne_some.2 fun task htask =>
      hfilled ⟨name, task, htask⟩

/-- A draft with a sub-task under some name passes the first question of
`build`. -/
theorem Shows.not_isEmpty (h : d.Shows identity ws)
    (hfilled : ∃ name task, taskOf? ws name = some task) :
    ¬ d.tasks.isEmpty = true := by
  rw [h.isEmpty_iff]
  obtain ⟨name, task, htask⟩ := hfilled
  intro hnone
  rw [hnone name] at htask
  cases htask

/-- With a start that is a sub-task, it is left to look for stray sources and
for attempts. The first two questions of `build` are answered here once for
the cases that come after them. -/
theorem Shows.build_of_starts (h : d.Shows identity ws)
    (hstarts : ∃ task, taskOf? ws (startOf ws) = some task) :
    d.build = match d.strayed? with
      | some source => .error (.unknownSource identity.key source)
      | none =>
        if attemptsOf ws = 0 then .error (.noAttempts identity.key)
        else .ok { d with start := d.start.getD "" } := by
  have howned : d.owns (d.start.getD "") = true := by
    rw [h.start]
    exact h.owns_iff.2 hstarts
  unfold build
  dsimp only
  rw [if_neg (h.not_isEmpty ⟨_, hstarts⟩), howned, h.attempts, h.identity]
  rfl

/-- A draft is told what is wrong first. One case for each kind of error; in
the last two the search for a stray source has the answer that
`Shows.strayed?_spec` gives it. -/
theorem Shows.build_eq_error (h : d.Shows identity ws) {error : WorkflowError}
    (hwrong : FirstWrong identity.key ws error) : d.build = .error error := by
  cases hwrong with
  | empty bare =>
    unfold build
    dsimp only
    rw [if_pos (h.isEmpty_iff.2 bare), h.identity]
  | unknownStart filled unknown =>
    have hforeign : d.owns (startOf ws) = false := by
      rw [owns, Table.contains, h.tasks, unknown]
      rfl
    unfold build
    dsimp only
    rw [if_neg (h.not_isEmpty filled), h.start, hforeign, h.identity]
    rfl
  | @unknownSource source starts stray least =>
    rw [h.build_of_starts starts]
    rcases h.strayed?_spec with ⟨-, hnone⟩ | ⟨source', hfound, hstray, hleast⟩
    · exact absurd stray (hnone source)
    · -- Both are stray and each is the least one, so they are the same.
      obtain rfl := String.le_antisymm (hleast source stray)
        (least source' hstray)
      rw [hfound]
  | noAttempts starts routed unable =>
    rw [h.build_of_starts starts]
    rcases h.strayed?_spec with ⟨hfound, -⟩ | ⟨source', -, hstray, -⟩
    · rw [hfound]
      dsimp only
      rw [if_pos unable]
    · exact absurd hstray (routed source')

/-- A draft is built as it is where nothing is wrong: none of its sources has
strayed (`Shows.strayed?_spec`), and it starts at a sub-task. -/
theorem Shows.build_eq_ok (h : d.Shows identity ws) (hsound : Sound ws) :
    ∃ w, d.build = .ok w ∧ Follows w identity ws := by
  rcases h.strayed?_spec with ⟨hfound, -⟩ | ⟨source, -, hstray, -⟩
  · let w : Workflow τ := { d with start := d.start.getD "" }
    have hfollows : Follows w identity ws :=
      ⟨h.identity, h.tasks, h.start, h.routes, h.attempts, h.recursive⟩
    refine ⟨w, ?_, hfollows⟩
    rw [h.build_of_starts hsound.starts, hfound]
    dsimp only
    rw [if_neg (one_le_attemptsOf_iff.1 hsound.attempts)]
  · exact absurd hstray (not_stray_iff.2 hsound.sources source)

/-- A draft fails with exactly the error that is wrong first: it cannot be
sound then, because `Shows.build_eq_ok` would have it built. -/
theorem build_eq_error_iff (identity : Identity) (ws : List (Write τ))
    (error : WorkflowError) :
    (written identity ws).build = .error error
      ↔ FirstWrong identity.key ws error := by
  have hshows := shows_written identity ws
  refine ⟨fun h => ?_, hshows.build_eq_error⟩
  rcases hshows.wrong_or_sound identity.key with ⟨first, hwrong⟩ | hsound
  · rw [hshows.build_eq_error hwrong] at h
    cases h
    exact hwrong
  · obtain ⟨w, hok, -⟩ := hshows.build_eq_ok hsound
    rw [hok] at h
    cases h

/-- One of the sources is the target of a route, if only of its own. Of the
other two, the lesser one is reported. -/
example :
    let ws : List (Write Unit) := [
      .task "ask" (), .start "ask",
      .route "then" 0 .finish, .route "else" 0 .finish,
      .route "again" 1 (.retry "again")]
    (written (.named "talk" "talk") ws).build
      = .error (.unknownSource "talk" "else") := rfl

/-- A draft is built exactly if what has been written is `Sound`: it is sound
or something is the first to be wrong with it (`Shows.wrong_or_sound`), and
then it is not built. -/
theorem exists_build_iff (identity : Identity) (ws : List (Write τ)) :
    (∃ w, (written identity ws).build = .ok w) ↔ Sound ws := by
  have hshows := shows_written identity ws
  constructor
  · rintro ⟨w, h⟩
    refine (hshows.wrong_or_sound identity.key).resolve_left
      fun ⟨error, hwrong⟩ => ?_
    rw [hshows.build_eq_error hwrong] at h
    cases h
  · intro hsound
    obtain ⟨w, hok, -⟩ := hshows.build_eq_ok hsound
    exact ⟨w, hok⟩

/-- A workflow that is built `Follows` the writes (`Shows.build_eq_ok`). -/
theorem follows_of_build {w : Workflow τ}
    (h : (written identity ws).build = .ok w) :
    Sound ws ∧ Follows w identity ws := by
  have hsound := (exists_build_iff identity ws).1 ⟨w, h⟩
  obtain ⟨w', hok, hfollows⟩ := (shows_written identity ws).build_eq_ok hsound
  rw [h] at hok
  cases hok
  exact ⟨hsound, hfollows⟩

-- ========================================================= first steps

end Workflow.Draft

namespace Workflow

variable {σ : Type} {c : Collaborators σ} {x : Executor σ} {w : Workflow Task}

/-- With an attempt left, a step that comes to a sub-task of the workflow asks
nobody for it (`find_of_own`). What remains of the step is to see whether it
has been cancelled or is refused, to run the sub-task and to advance. -/
theorem step_of_owned {run : Run} {t : Trace σ} {name : String} {task : Task}
    (hcurrent : run.current = some name)
    (hbudget : run.attempts < w.maxAttempts)
    (howned : w.own? name = some task) :
    w.step c x run t
      = if run.context.isCancelled c t.world then
        ⟨.ok (.failed .cancelled), run, t⟩
        else match refusal? run.context task with
          | some obstacle => ⟨.ok (.failed obstacle), run, t⟩
          | none =>
            match x run.context task (run.inputsFor task) t with
            | (.error stop, t') => ⟨.error stop, run, t'⟩
            | (.ok response, t') =>
              ⟨.ok (w.advance name response run).1,
                (w.advance name response run).2, t'⟩ := by
  cases hcancelled : run.context.isCancelled c t.world with
  | true => exact (StepsTo.cancelled hcurrent hcancelled).step_eq
  | false =>
    rw [step_of_budget hcurrent hcancelled hbudget, find_of_own howned]
    rfl

/-- What stops such a step is that the run has been asked to stop, that the
sub-task may not run, or that there is no route for its result: read off from
`step_of_owned`. -/
theorem failed_of_owned {run : Run} {t : Trace σ} {name : String}
    {task : Task} {obstacle : Obstacle} (hcurrent : run.current = some name)
    (hbudget : run.attempts < w.maxAttempts)
    (howned : w.own? name = some task)
    (h : (w.step c x run t).result = .ok (.failed obstacle)) :
    obstacle = .cancelled ∨ refusal? run.context task = some obstacle
      ∨ ∃ code, obstacle = .noRoute code name := by
  rw [step_of_owned hcurrent hbudget howned] at h
  split at h
  · cases h
    exact Or.inl rfl
  · split at h
    next refused hrefused =>
      cases h
      exact Or.inr (Or.inl hrefused)
    next =>
      split at h
      next => cases h
      next response t' _ =>
        unfold advance at h
        dsimp only at h
        split at h
        next =>
          cases h
          exact Or.inr (Or.inr ⟨_, rfl⟩)
        next => cases h

/-- A draft becomes a workflow exactly if it has a sub-task and starts at one,
each source of routes is a sub-task or the target of a route, and there is at
least one attempt. Otherwise it is reported which of these, in this order, is
the first that does not hold, and of several stray sources the least. The
workflow is what the last writes to each place have left.

The first step of a run of it finds the sub-task without asking anybody,
whoever looks up names, and is never short of attempts.

The first part is `exists_build_iff`, `build_eq_error_iff` and
`follows_of_build`; the step is `step_of_owned`, and what it can fail for
`failed_of_owned`. -/
theorem Draft.built_exactly_if_sound (identity : Identity)
    (ws : List (Draft.Write Task)) :
    ((∃ w, (Draft.written identity ws).build = .ok w) ↔ Draft.Sound ws)
    ∧ (∀ error, (Draft.written identity ws).build = .error error
        ↔ Draft.FirstWrong identity.key ws error)
    ∧ ∀ w, (Draft.written identity ws).build = .ok w →
      Draft.Follows w identity ws
      ∧ ∀ {σ : Type} (c : Collaborators σ) (x : Executor σ)
          (context : Context) (inputs : Inputs) (t : Trace σ),
        let run := w.newRun context inputs
        (∃ task, Draft.taskOf? ws (Draft.startOf ws) = some task
          ∧ w.find c w.start t = (.ok (some task), t))
        ∧ (∀ lookup, w.step { c with lookup } x run t = w.step c x run t)
        ∧ ∀ obstacle, (w.step c x run t).result = .ok (.failed obstacle) →
            (∀ taken allowed, obstacle ≠ .attempts taken allowed)
            ∧ ∀ name, obstacle ≠ .unresolvable name := by
  refine ⟨Draft.exists_build_iff identity ws,
    Draft.build_eq_error_iff identity ws, ?_⟩
  intro w hbuilt
  obtain ⟨hsound, hfollows⟩ := Draft.follows_of_build hbuilt
  refine ⟨hfollows, fun c x context inputs t => ?_⟩
  obtain ⟨task, htask⟩ := hsound.starts
  have howned : w.own? w.start = some task := by
    rw [hfollows.start, hfollows.tasks, htask]
  have hbudget : (w.newRun context inputs).attempts < w.maxAttempts := by
    have hone := hsound.attempts
    rw [← hfollows.attempts, UInt32.le_iff_toNat_le] at hone
    exact UInt32.lt_iff_toNat_lt.2 hone
  refine ⟨⟨task, htask, find_of_own howned t⟩, fun lookup => ?_,
    fun obstacle hfailed => ?_⟩
  · -- The right side of `step_of_owned` does not mention the lookup.
    rw [step_of_owned rfl hbudget howned, step_of_owned rfl hbudget howned]
    rfl
  · rcases failed_of_owned rfl hbudget howned hfailed
      with rfl | hrefused | ⟨code, rfl⟩
    · exact ⟨fun _ _ h => (nomatch h), fun _ h => (nomatch h)⟩
    · obtain ⟨nested, -, ⟨-, -, rfl⟩ | ⟨-, -, rfl⟩⟩ := of_refusal? hrefused
      · exact ⟨fun _ _ h => (nomatch h), fun _ h => (nomatch h)⟩
      · exact ⟨fun _ _ h => (nomatch h), fun _ h => (nomatch h)⟩
    · exact ⟨fun _ _ h => (nomatch h), fun _ h => (nomatch h)⟩

/-- The relay, drafted in a roundabout way: most of what is said of it is
taken back. -/
def Draft.roundabout : List (Draft.Write Task) := [
  .start "ghost", .route "ghost" 3 .finish, .attempts 0,
  .task "first" (.prompt (.asking "ghost")),
  -- The whole table takes back the route from the ghost, and is changed in
  -- turn.
  .routing [("first", [(0, .finish)])]
    ⟨List.pairwise_singleton _ _, fun e he => by
      obtain rfl := List.mem_singleton.1 he
      exact List.pairwise_singleton _ _⟩,
  .route "second" 0 .finish, .attempts 1,
  .route "first" 0 (.plain "second"), .start "first",
  .task "first" (.prompt (.asking "first"))]

/-- An agent that never has time. -/
def busy (_ : Agent) (_ : Request) (world : Unit) : Conversation Unit :=
  .answer (.error (.generationFailed "busy")) world

/-- What is left in the end is the relay. Where its agent is busy, its first
step fails because nothing is said of that case, and not for want of attempts
or of a sub-task. -/
theorem relay_is_built_roundabout :
    let c : Collaborators Unit := .among busy fun _ => none
    let first := relay.newRun (.fresh false) []
    let stepped := relay.step c (Task.execute c 1) first (.start ())
    (Draft.written (.named "relay" "relay") Draft.roundabout).build
      = .ok relay
      ∧ Draft.Sound Draft.roundabout
      ∧ Draft.Follows relay (.named "relay" "relay") Draft.roundabout
      ∧ (∃ task, relay.find c "first" (.start ())
        = (.ok (some task), .start ()))
      ∧ (∀ lookup, relay.step { c with lookup } (Task.execute c 1) first
        (.start ()) = stepped)
      ∧ stepped.result = .ok (.failed (.noRoute 1 "first"))
      ∧ (∀ taken allowed, Obstacle.noRoute 1 "first"
        ≠ .attempts taken allowed)
      ∧ ∀ name, Obstacle.noRoute 1 "first" ≠ .unresolvable name := by
  intro c first stepped
  have hbuilt :
      (Draft.written (.named "relay" "relay") Draft.roundabout).build
        = .ok relay := rfl
  have hfailed : stepped.result = .ok (.failed (.noRoute 1 "first")) := rfl
  obtain ⟨hsound, -, hworks⟩ :=
    Draft.built_exactly_if_sound (.named "relay" "relay") Draft.roundabout
  obtain ⟨hfollows, hsteps⟩ := hworks relay hbuilt
  obtain ⟨⟨task, -, hfound⟩, hunasked, hable⟩ :=
    hsteps c (Task.execute c 1) (.fresh false) [] (.start ())
  exact ⟨hbuilt, hsound.1 ⟨relay, hbuilt⟩, hfollows, ⟨task, hfound⟩, hunasked,
    hfailed, hable _ hfailed⟩

end Workflow

end TaskRouting

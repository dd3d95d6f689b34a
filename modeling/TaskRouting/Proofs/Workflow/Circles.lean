import Mathlib.Data.List.Dedup
import Mathlib.Data.List.Perm.Subperm
import Mathlib.Data.List.ProdSigma
import Mathlib.Logic.Relation
import TaskRouting.Proofs.Bound
import TaskRouting.Proofs.Setting
import TaskRouting.Workflow.Draft
/-!
Which workflows always come to an end.

The budget of a workflow is on its retry routes alone. A run hops from a name
to the next, and all that the routing table can tell of it is the name and how
many retry routes it has taken, so these two are the place of a run. The
result is an equivalence: a workflow ends whatever its tasks respond, exactly
if no run of it can get to a circle of plain routes (`Circles`).

# Without circles

A run that came twice to the same place would have come back by a circle of
hops, and retry routes that have been taken stay taken (`le_of_hops`), so such
a circle takes plain routes only (`plain_of_hops`). `Visits` is the invariant:
the places where a run has been all differ, lie within bounds, and lead to the
one where it is. There are only as many places as names times attempts
(`length_places_le`), which bounds the steps of a drive
(`settles_of_not_circles`).

# With circles

From a place that leads to a circle some hop leads to such a place again
(`Circling.hop`). Tasks that know where the run is can therefore lead it round
for ever: `leadRound` keeps the place in the world of the collaborators, and
answers with the result that the hop needs. By induction no bound is enough
for a drive among them (`drive_leadRound`).

# A loop

`loop_never_ends` is the smallest workflow of that kind, with a task that
always succeeds, and built as every workflow is.
-/

namespace TaskRouting.Workflow

open Execution Relation

variable {σ : Type} (w : Workflow Task)

-- ================================================================ hops

/-- The distinct names that a run can get to: the start, and the `targets` of
the routing table. -/
def names : List String := (w.start :: w.routing.targets).dedup

/-- A name whose task is refused in every run: the workflow owns a workflow
under its own key that may not run inside itself. -/
def Barred (name : String) : Prop :=
  ∃ nested, w.own? name = some (.workflow nested) ∧ nested.key = w.key
    ∧ nested.recursive = false

/-- From a number of retry routes taken and a name, some result leads to
another number and name. -/
def Hop (s s' : Nat × String) : Prop :=
  s.1 < w.maxAttempts.toNat ∧ ¬ w.Barred s.2
    ∧ ∃ code route, w.route? s.2 code = some route ∧ route.next = some s'.2
      ∧ s'.1 = s.1 + if route.isRetry then 1 else 0

/-- From a name, some result leads to another name by a plain route. -/
def PlainHop (name name' : String) : Prop :=
  ¬ w.Barred name ∧ ∃ code, w.route? name code = some (.plain name')

/-- A run can get, with attempts left, to a name on a circle of
`PlainHop`s. -/
def Circles : Prop :=
  ∃ s, ReflTransGen w.Hop (0, w.start) s ∧ s.1 < w.maxAttempts.toNat
    ∧ TransGen w.PlainHop s.2 s.2

variable {w}

theorem mem_names_start : w.start ∈ w.names :=
  List.mem_dedup.2 List.mem_cons_self

/-- Routes lead to `names` that the workflow can get to. -/
theorem mem_names_of_route? {name next : String} {code : UInt32}
    {route : Route} (hroute : w.route? name code = some route)
    (hnext : route.next = some next) : next ∈ w.names := by
  unfold route? RoutingTable.route? at hroute
  obtain ⟨codes, hcodes, hroute⟩ := Option.bind_eq_some_iff.1 hroute
  refine List.mem_dedup.2 (List.mem_cons_of_mem _ ?_)
  unfold RoutingTable.targets
  refine List.mem_flatMap.2 ⟨codes, ?_, ?_⟩
  · exact List.mem_map.2 ⟨(name, codes), Table.mem_of_get? hcodes, rfl⟩
  · refine List.mem_filterMap.2 ⟨route, ?_, hnext⟩
    exact List.mem_map.2 ⟨(code, route), Table.mem_of_get? hroute, rfl⟩

/-- A hop takes one retry route more or none. -/
theorem Hop.le {s s' : Nat × String} (h : w.Hop s s') : s.1 ≤ s'.1 := by
  obtain ⟨-, -, code, route, -, -, htaken⟩ := h
  omega

/-- Retry routes that have been taken stay taken, hop by hop (`Hop.le`). -/
theorem le_of_hops {s s' : Nat × String} (h : TransGen w.Hop s s') :
    s.1 ≤ s'.1 := by
  induction h with
  | single hop => exact hop.le
  | tail _ hop ih => exact Nat.le_trans ih hop.le

/-- A hop that takes no retry route takes a plain one. -/
theorem Hop.plain {s s' : Nat × String} (h : w.Hop s s') (hle : s'.1 ≤ s.1) :
    w.PlainHop s.2 s'.2 := by
  obtain ⟨-, hbarred, code, ⟨next, isRetry⟩, hroute, hnext, htaken⟩ := h
  cases isRetry with
  | true =>
    rw [if_pos rfl] at htaken
    omega
  | false =>
    cases hnext
    exact ⟨hbarred, code, hroute⟩

/-- Hops that take no retry route take plain ones (`Hop.plain`). Along them
the count can neither fall nor, in the end, have risen. -/
theorem plain_of_hops {s s' : Nat × String} (h : TransGen w.Hop s s')
    (hle : s'.1 ≤ s.1) : TransGen w.PlainHop s.2 s'.2 := by
  induction h with
  | single hop => exact .single (hop.plain hle)
  | tail hops hop ih =>
    have hbefore := le_of_hops hops
    have hafter := hop.le
    exact (ih (by omega)).tail (hop.plain (by omega))

/-- A circle of hops takes plain routes only (`plain_of_hops`), and has
attempts left, since any hop needs some. -/
theorem circles_of_hops {s : Nat × String}
    (hreach : ReflTransGen w.Hop (0, w.start) s)
    (hcircle : TransGen w.Hop s s) : w.Circles := by
  have hbudget : s.1 < w.maxAttempts.toNat := by
    obtain ⟨s', hop, -⟩ := TransGen.head'_iff.1 hcircle
    exact hop.1
  exact ⟨s, hreach, hbudget, plain_of_hops hcircle (Nat.le_refl _)⟩

-- ================================================ where a run has been

/-- Where a run has been: the retry routes taken and the name each time that a
task was run, the latest first. It was never at the same place twice. -/
structure Visits (w : Workflow Task) (run : Run)
    (places : List (Nat × String)) : Prop where
  active : w.key ∈ run.context.active
  length : places.length = run.past.length
  nodup : places.Nodup
  bounded : ∀ s ∈ places, s.1 < w.maxAttempts.toNat ∧ s.2 ∈ w.names
  named : ∀ name, run.current = some name → name ∈ w.names
  reached : ∀ name, run.current = some name →
    ReflTransGen w.Hop (0, w.start) (run.attempts.toNat, name)
  led : ∀ name, run.current = some name →
    ∀ s ∈ places, TransGen w.Hop s (run.attempts.toNat, name)

variable {c : Collaborators σ} {execute : Executor σ}

/-- A new run is at the start, and has been nowhere. -/
theorem Visits.start {context : Context} {inputs : Inputs} :
    w.Visits (w.newRun context inputs) [] where
  active := List.mem_append_right _ (List.mem_singleton.2 rfl)
  length := rfl
  nodup := .nil
  bounded s h := nomatch h
  named name h := by
    cases h
    exact mem_names_start
  reached name h := by
    cases h
    exact .refl
  led name _ s h := nomatch h

/-- The task that a run is `Ready` to run is not `Barred`: a barred one is
refused, since the run's own workflow is under way. -/
theorem Visits.not_barred {run : Run} {t t' : Trace σ}
    {places : List (Nat × String)} {name : String} {task : Task}
    (h : w.Visits run places) (ready : w.Ready c run t name task t') :
    ¬ w.Barred name := by
  rintro ⟨nested, hown, hkey, hflat⟩
  have hfound := ready.found
  rw [find_of_own hown] at hfound
  cases hfound
  have hrecursive := (refusal?_eq_none_iff.1 ready.admitted nested rfl).1
  rw [hkey] at hrecursive
  rw [hrecursive h.active] at hflat
  cases hflat

/-- Without circles, a run that is ready is at a place where it has not been:
all places lead to this one, so a place come back to would be on a circle of
hops (`circles_of_hops`). -/
theorem Visits.record (hcircles : ¬ w.Circles) {run : Run} {t t' : Trace σ}
    {places : List (Nat × String)} {name : String} {task : Task}
    (h : w.Visits run places) (ready : w.Ready c run t name task t') :
    ((run.attempts.toNat, name) :: places).Nodup
      ∧ ∀ s ∈ (run.attempts.toNat, name) :: places,
          s.1 < w.maxAttempts.toNat ∧ s.2 ∈ w.names := by
  constructor
  · -- Had the run been here before, it would have come back by a circle of
    -- hops.
    refine List.nodup_cons.2 ⟨fun hmem => hcircles ?_, h.nodup⟩
    exact circles_of_hops (h.reached name ready.current)
      (h.led name ready.current _ hmem)
  · intro s hs
    rcases List.mem_cons.1 hs with rfl | hs
    · exact ⟨UInt32.lt_iff_toNat_lt.1 ready.budget,
        h.named name ready.current⟩
    · exact h.bounded s hs

/-- Without circles, a step that goes on leaves one place more behind. The
route that it takes is a `Hop` from there, so all places still lead to the new
one. -/
theorem Visits.step (hcircles : ¬ w.Circles) {run run' : Run}
    {t t'' : Trace σ} {places : List (Nat × String)} (h : w.Visits run places)
    (hstep : w.step c execute run t = ⟨.ok .goesOn, run', t''⟩) :
    ∃ place, w.Visits run' (place :: places) := by
  obtain ⟨name, task, response, route, t', ready, -, routed, rfl⟩ :=
    of_step_goesOn hstep
  obtain ⟨hnodup, hbounded⟩ := h.record hcircles ready
  have hlt : run.attempts.toNat < w.maxAttempts.toNat :=
    UInt32.lt_iff_toNat_lt.1 ready.budget
  have htaken :
      (if route.isRetry then run.attempts + 1 else run.attempts).toNat
        = run.attempts.toNat + if route.isRetry then 1 else 0 :=
    toNat_taken ready.budget
  have hhop : ∀ next, route.next = some next →
      w.Hop (run.attempts.toNat, name)
        ((if route.isRetry then run.attempts + 1 else run.attempts).toNat,
          next) :=
    fun next hnext => ⟨hlt, h.not_barred ready, response.code, route, routed,
      hnext, htaken⟩
  refine ⟨(run.attempts.toNat, name), ?_⟩
  constructor
  case active => exact h.active
  case length => exact congrArg (· + 1) h.length
  case nodup => exact hnodup
  case bounded => exact hbounded
  case named => exact fun next hnext => mem_names_of_route? routed hnext
  case reached =>
    exact fun next hnext =>
      (h.reached name ready.current).tail (hhop next hnext)
  case led =>
    intro next hnext s hs
    rcases List.mem_cons.1 hs with rfl | hs
    · exact .single (hhop next hnext)
    · exact (h.led name ready.current s hs).tail (hhop next hnext)

/-- Without circles, a run is never at the same place twice, by induction on
the runs that it passes through (`Visits.start`, `Visits.step`). -/
theorem Passes.visits (hcircles : ¬ w.Circles) {context : Context}
    {inputs : Inputs} {run : Run} {t₀ t : Trace σ}
    (h : w.Passes c execute (w.newRun context inputs) t₀ run t) :
    ∃ places, w.Visits run places := by
  induction h with
  | start => exact ⟨[], .start⟩
  | step _ goesOn ih =>
    obtain ⟨places, hplaces⟩ := ih
    obtain ⟨place, hplace⟩ := hplaces.step hcircles goesOn
    exact ⟨place :: places, hplace⟩

-- =============================================== how long a run can be

/-- There are only so many places: a list without repetition inside the
product of the attempts and the `names`. -/
theorem length_places_le {places : List (Nat × String)}
    (hnodup : places.Nodup)
    (hbounded : ∀ s ∈ places, s.1 < w.maxAttempts.toNat ∧ s.2 ∈ w.names) :
    places.length ≤ w.maxAttempts.toNat * w.names.length := by
  have hsubset : places ⊆ List.range w.maxAttempts.toNat ×ˢ w.names := by
    intro s hs
    obtain ⟨hlt, hname⟩ := hbounded s hs
    exact List.mem_product.2 ⟨List.mem_range.2 hlt, hname⟩
  calc places.length
      ≤ (List.range w.maxAttempts.toNat ×ˢ w.names).length :=
        (hnodup.subperm hsubset).length_le
    _ = w.maxAttempts.toNat * w.names.length := by
        rw [List.length_product, List.length_range]

/-- Without circles, a run has at most as many responses behind it as there
are places. -/
theorem Passes.length_past_le (hcircles : ¬ w.Circles) {context : Context}
    {inputs : Inputs} {run : Run} {t₀ t : Trace σ}
    (h : w.Passes c execute (w.newRun context inputs) t₀ run t) :
    run.past.length ≤ w.maxAttempts.toNat * w.names.length := by
  obtain ⟨places, hplaces⟩ := h.visits hcircles
  rw [← hplaces.length]
  exact length_places_le hplaces.nodup hplaces.bounded

/-- Without circles, the history of a driven run has at most as many responses
as there are places. The last step may add one response without going on,
which it does at a new place (`Visits.record`). -/
theorem length_history_le (hcircles : ¬ w.Circles) {context : Context}
    {inputs : Inputs} {bound : Nat} {t t' : Trace σ} {outcome : Outcome}
    {run : Run}
    (h : w.drive c execute bound (w.newRun context inputs) t
      = (.ok (outcome, run), t')) :
    run.history.length ≤ w.maxAttempts.toNat * w.names.length := by
  obtain ⟨last, tₗ, hpasses, hlast, hends⟩ := of_drive_ok h
  have hsame := hpasses.length_past_le hcircles
  have hcases : w.StepsTo c execute last tₗ (w.step c execute last tₗ) :=
    step_stepsTo last tₗ
  rw [Run.history, List.length_reverse]
  rw [hlast] at hcases
  cases hcases with
  | unrouted ready ran unrouted =>
    obtain ⟨places, hplaces⟩ := hpasses.visits hcircles
    obtain ⟨hnodup, hbounded⟩ := hplaces.record hcircles ready
    refine Nat.le_trans (Nat.le_of_eq ?_) (length_places_le hnodup hbounded)
    exact congrArg (· + 1) hplaces.length.symm
  | routed => exact absurd rfl hends
  | _ => exact hsame

/-- Without circles, a run ends if the tasks that it runs do. Otherwise the
bound would have given out (`of_drive_exhausted`), so there would be more
responses behind the run than there are places. -/
theorem settles_of_not_circles (hcircles : ¬ w.Circles) {context : Context}
    {inputs : Inputs} {t : Trace σ}
    (htasks : ∀ run t₁ name task t₂, w.Passes c execute
      (w.newRun context inputs) t run t₁ →
      w.Ready c run t₁ name task t₂ →
      (execute run.context task (run.inputsFor task)).Settles t₂) :
    (w.drive c execute (w.maxAttempts.toNat * w.names.length + 1)
      (w.newRun context inputs)).Settles t := by
  intro hexhausted
  have hdrive : w.drive c execute (w.maxAttempts.toNat * w.names.length + 1)
      (w.newRun context inputs) t = (.error .exhausted, _) :=
    Prod.ext hexhausted rfl
  obtain ⟨last, tₗ, hpasses, ⟨name, task, tₙ, ready, ran⟩ | hlength⟩ :=
    of_drive_exhausted hdrive
  · refine htasks last tₗ name task tₙ hpasses ready ?_
    rw [ran]
  · have hle := hpasses.length_past_le hcircles
    have hnew : (w.newRun context inputs).past.length = 0 := rfl
    omega

-- ================================================ going round for ever

/-- A run can go on from a place to a circle of hops. -/
def Circling (w : Workflow Task) (s : Nat × String) : Prop :=
  ∃ s₀, ReflTransGen w.Hop s s₀ ∧ TransGen w.Hop s₀ s₀

/-- If there is a circle of plain routes, the start is `Circling`: the plain
routes are hops as long as an attempt is left, and none is used up. -/
theorem Circles.circling (h : w.Circles) : w.Circling (0, w.start) := by
  obtain ⟨⟨taken, name⟩, hreach, hbudget, hcircle⟩ := h
  refine ⟨(taken, name), hreach, ?_⟩
  refine TransGen.lift (fun name' => (taken, name')) ?_ _ _ hcircle
  rintro a b ⟨hbarred, code, hroute⟩
  exact ⟨hbudget, hbarred, code, .plain b, hroute, rfl, rfl⟩

/-- From a place that leads to a circle, some hop leads to such a place again:
a hop of the way there, or of the circle itself. -/
theorem Circling.hop {s : Nat × String} (h : w.Circling s) :
    ∃ s', w.Hop s s' ∧ w.Circling s' := by
  obtain ⟨s₀, hreach, hcircle⟩ := h
  rcases ReflTransGen.cases_head hreach with rfl | ⟨s', hop, hreach⟩
  · obtain ⟨s', hop, hback⟩ := TransGen.head'_iff.1 hcircle
    exact ⟨s', hop, s, hback, hcircle⟩
  · exact ⟨s', hop, s₀, hreach, hcircle⟩

/-- A result leads from a place to another one from which a run can go on to a
circle. -/
def LeadsRound (w : Workflow Task) (s : Nat × String)
    (result : UInt32 × (Nat × String)) : Prop :=
  w.Circling result.2 ∧ ∃ route, w.route? s.2 result.1 = some route
    ∧ route.next = some result.2.2
    ∧ result.2.1 = s.1 + if route.isRetry then 1 else 0

open Classical in
/-- Tasks that know where the run is, and answer with a result that
`LeadsRound` a circle if there is one. -/
noncomputable def leadRound (w : Workflow Task) : Executor (Nat × String) :=
  fun _ task inputs t =>
  if h : ∃ result, w.LeadsRound t.world result then
    (.ok (.completed Instant.epoch task.identity.header inputs h.choose.1 none
      none), { t with world := h.choose.2 })
  else (.ok (.completed Instant.epoch task.identity.header inputs successCode
    none none), t)

/-- Such tasks always respond, so it is not for them that a run does not
end. -/
theorem leadRound_settles {context : Context} {task : Task} {inputs : Inputs}
    {t : Trace (Nat × String)} :
    (leadRound w context task inputs).Settles t := by
  unfold Settles leadRound
  split
  · exact fun hexhausted => nomatch hexhausted
  · exact fun hexhausted => nomatch hexhausted

/-- From a place that is `Circling`, such tasks lead the run to such a place
again, by one more hop (`Circling.hop`). -/
theorem leadRound_of_circling {context : Context} {task : Task}
    {inputs : Inputs} {t : Trace (Nat × String)} (h : w.Circling t.world) :
    ∃ response s' route,
      leadRound w context task inputs t
        = (.ok response, { t with world := s' })
      ∧ w.route? t.world.2 response.code = some route ∧ route.next = some s'.2
      ∧ s'.1 = t.world.1 + (if route.isRetry then 1 else 0)
      ∧ w.Circling s' := by
  obtain ⟨s', ⟨-, -, code, route, hroute, hnext, htaken⟩, hcircling⟩ := h.hop
  have hsome : ∃ result, w.LeadsRound t.world result :=
    ⟨(code, s'), hcircling, route, hroute, hnext, htaken⟩
  obtain ⟨hcircling, route, hroute, hnext, htaken⟩ := hsome.choose_spec
  refine ⟨.completed Instant.epoch task.identity.header inputs hsome.choose.1
    none none, hsome.choose.2, route, ?_, hroute, hnext, htaken, hcircling⟩
  unfold leadRound
  rw [dif_pos hsome]

/-- A run at a place that is not `Barred`, with attempts left, is `Ready`. -/
theorem ready_of_not_barred {run : Run} {t : Trace (Nat × String)}
    (hcontext : run.context = (Context.fresh false).enter w.key)
    (hcurrent : run.current = some t.world.2)
    (hbudget : run.attempts < w.maxAttempts)
    (hbarred : ¬ w.Barred t.world.2) :
    ∃ task t', w.Ready .echoing run t t.world.2 task t'
      ∧ t'.world = t.world := by
  have hgoing : run.context.isCancelled .echoing t.world = false := by
    rw [hcontext]
    rfl
  cases hown : w.own? t.world.2 with
  | some task =>
    refine ⟨task, t, ⟨hcurrent, hgoing, hbudget, find_of_own hown t,
      refusal?_eq_none_iff.2 ?_⟩, rfl⟩
    rintro nested rfl
    rw [hcontext]
    refine ⟨fun hactive => ?_, (by decide : 1 < 32)⟩
    have hkey : nested.key = w.key := List.mem_singleton.1 hactive
    exact eq_true_of_ne_false fun hflat => hbarred ⟨nested, hown, hkey, hflat⟩
  | none =>
    have hfound : w.find .echoing t.world.2 t
        = (.ok (some (.prompt (.asking t.world.2))),
          t.call (.lookup t.world.2)) := by
      unfold find
      rw [hown]
      rfl
    refine ⟨_, _, ⟨hcurrent, hgoing, hbudget, hfound,
      refusal?_eq_none_iff.2 ?_⟩, rfl⟩
    intro nested hnested
    cases hnested

/-- A run that is `Circling` goes round for ever among tasks that lead it
there. By induction on the bound: each step is routed (`step_of_routed`), to a
place that is circling again. -/
theorem drive_leadRound :
    ∀ {bound : Nat} {run : Run} {t : Trace (Nat × String)},
      run.context = (Context.fresh false).enter w.key →
      run.current = some t.world.2 →
      run.attempts.toNat = t.world.1 → w.Circling t.world →
      ¬ (w.drive .echoing (leadRound w) bound run).Settles t := by
  intro bound
  induction bound with
  | zero => intro run t _ _ _ _ hsettles; exact hsettles rfl
  | succ bound ih =>
    intro run t hcontext hcurrent hattempts hcircling hsettles
    obtain ⟨-, ⟨hlt, hbarred, -⟩, -⟩ := hcircling.hop
    have hbudget : run.attempts < w.maxAttempts := by
      rw [← hattempts] at hlt
      exact UInt32.lt_iff_toNat_lt.2 hlt
    -- Looking the name up leaves the world as it is, so the task finds in it
    -- where the run is.
    obtain ⟨task, t', ready, hworld⟩ :=
      ready_of_not_barred hcontext hcurrent hbudget hbarred
    rw [← hworld] at hcircling
    obtain ⟨response, s', route, hran, hroute, hnext, htaken, hcircling⟩ :
        ∃ response s' route,
          leadRound w run.context task (run.inputsFor task) t'
            = (.ok response, { t' with world := s' })
          ∧ w.route? t'.world.2 response.code = some route
          ∧ route.next = some s'.2
          ∧ s'.1 = t'.world.1 + (if route.isRetry then 1 else 0)
          ∧ w.Circling s' :=
      leadRound_of_circling hcircling
    rw [hworld] at hroute htaken
    unfold Settles at hsettles
    rw [drive_of_goesOn (step_of_routed ready hran hroute)] at hsettles
    refine ih ?_ ?_ ?_ ?_ hsettles
    · exact hcontext
    · exact hnext
    · show (if route.isRetry then run.attempts + 1 else run.attempts).toNat
          = s'.1
      rw [toNat_taken hbudget, hattempts]
      exact htaken.symm
    · exact hcircling

/-- A workflow comes to an end whatever results its tasks have, as long as
each of them ends, exactly if its runs cannot get to a circle of plain routes
while attempts are left. One direction is `settles_of_not_circles`, the other
one `drive_leadRound`, for the tasks `leadRound`. -/
theorem always_ends_iff_not_circles :
    (∀ (σ : Type) (c : Collaborators σ) (execute : Executor σ)
      (context : Context) (inputs : Inputs) (t : Trace σ),
        (∀ context task inputs t, (execute context task inputs).Settles t) →
        ∃ bound,
          (w.drive c execute bound (w.newRun context inputs)).Settles t)
      ↔ ¬ w.Circles := by
  constructor
  · intro hends hcircles
    obtain ⟨bound, hsettles⟩ :=
      hends _ .echoing (leadRound w) (.fresh false) [] (.start (0, w.start))
        fun _ _ _ _ => leadRound_settles
    exact drive_leadRound rfl rfl rfl hcircles.circling hsettles
  · intro hcircles σ c execute context inputs t htasks
    exact ⟨_, settles_of_not_circles hcircles fun run _ _ task t₂ _ _ =>
      htasks _ _ _ t₂⟩

/-- A workflow that goes back to its one task whenever that has succeeded. -/
def loop : Workflow Task where
  identity := .named "loop" "loop"
  tasks := [("again", .prompt (.asking "again"))]
  start := "again"
  routing := [("again", [(0, .plain "again")])]
  maxAttempts := 1
  recursive := false

/-- The task of `loop` always succeeds. -/
theorem execute_again (bound : Nat) (context : Context) (inputs : Inputs)
    (t : Trace Unit) :
    ∃ response t', Task.execute .echoing (bound + 1) context
      (.prompt (.asking "again")) inputs t
      = (.ok response, t') ∧ response.code = successCode :=
  ⟨_, _, Task.perform_asking rfl, rfl⟩

/-- A run of `loop` that has not gone wrong so far goes on, under every bound.
By induction on it; a plain route takes the run back to where it was. -/
theorem drive_loop (bound : Nat) :
    ∀ {steps : Nat} {run : Run} {t : Trace Unit}, run.current = some "again" →
      run.attempts = 0 →
      run.context.cancellable = false →
      ¬ (loop.drive .echoing (Task.execute .echoing bound) steps run).Settles
        t := by
  intro steps
  induction steps with
  | zero => intro run t _ _ _ hsettles; exact hsettles rfl
  | succ steps ih =>
    intro run t hcurrent hattempts hcontext hsettles
    have hgoing : run.context.isCancelled .echoing t.world = false := by
      rw [Context.isCancelled, hcontext]
      rfl
    have hbudget : run.attempts < loop.maxAttempts := by
      rw [hattempts]
      decide
    have ready : loop.Ready .echoing run t "again"
        (.prompt (.asking "again")) t :=
      ⟨hcurrent, hgoing, hbudget, rfl, rfl⟩
    cases bound with
    | zero =>
      apply hsettles
      rw [drive]
      dsimp only
      rw [step_of_ready ready]
      rfl
    | succ bound =>
      obtain ⟨response, t', hran, hcode⟩ :=
        execute_again bound run.context
          (run.inputsFor (.prompt (.asking "again"))) t
      have hroute : loop.route? "again" response.code
          = some (.plain "again") := by
        rw [hcode]
        rfl
      unfold Settles at hsettles
      rw [drive_of_goesOn (step_of_routed ready hran hroute)] at hsettles
      refine ih ?_ ?_ ?_ hsettles
      · rfl
      · exact hattempts
      · exact hcontext

/-- A workflow that the builder accepts and whose only task always succeeds
goes on for ever, with a single attempt allowed. -/
theorem loop_never_ends :
    (Draft.new (.named "loop" "loop")
          |>.task "again" (.prompt (.asking "again"))
          |>.startAt "again"
          |>.route "again" 0 (.plain "again")
          |>.attempts 1
          |>.build) = .ok loop
      ∧ (∀ context inputs (t : Trace Unit),
          (Task.execute .echoing 1 context (.prompt (.asking "again"))
            inputs).Settles t)
      ∧ ∀ bound, ¬ (Task.execute .echoing bound (.fresh false)
          (.workflow loop) []).Settles (.start ()) := by
  refine ⟨rfl, fun context inputs t => ?_, fun bound hsettles => ?_⟩
  · obtain ⟨response, t', hran, -⟩ := execute_again 0 context inputs t
    exact settles_of_ok hran
  · cases bound with
    | zero => exact hsettles rfl
    | succ bound =>
      have haccepts : loop.identity.inputSchema.prepare [] = .ok [] := rfl
      unfold Task.execute at hsettles
      rw [Task.perform_workflow haccepts, Workflow.execute] at hsettles
      exact drive_loop bound rfl rfl rfl hsettles.of_bind

end TaskRouting.Workflow

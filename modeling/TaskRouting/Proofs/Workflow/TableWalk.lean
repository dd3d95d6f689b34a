import TaskRouting.Proofs.Setting
/-!
Executing a workflow is walking along its routing table.

# Walks

A walk is spelt out without runs and steps: it is a list of legs, each with a
name and the response that its task gave. The table alone says which name
comes after which response (`Follows`, `ahead?`), and how many retry routes
have been taken (`retries`). What happens on the way is `Walks`: before each
leg the walk may go on (`Going`), the name stands for a task (`Finds`) that
may run (`Admits`), and the task is given what it selects from the
environment. A walk that has not arrived ends where it `Halts`: the table has
no route for the last response, or something is in the way of the next name
(`Meets`). The obstacles are listed in the order in which a step looks for
them, each with what must be so for it to count.

# Runs are walks

`Retraces` relates a run to the legs that it has walked: the name that is next
is the one ahead, the attempts are the retries, the past is the responses. A
new run has walked none, a step that goes on walks one more leg
(`Retraces.step`), so every run that is passed through has walked some
(`Passes.retraces`). The step that ends the drive is looked up in `StepsTo`:
it completes where the walk has arrived, and otherwise has met just what the
walk meets (`walks_of_drive`).

# Whole executions

`execute_walks_routing_table` says this of executions. The legs are unique,
since the responses of a walk determine its names (`FollowsFrom.unique`), and
the number of attempts is exact, as it is counted below a bound of its own
type.
-/

namespace TaskRouting.Workflow

open Execution

/-- One leg of a walk along a routing table. -/
structure Leg where
  name : String
  response : Response

variable {σ : Type} (w : Workflow Task)

-- =============================================== walks along the table

/-- The route taken after a leg, which is that of its name and code in the
table. -/
def leaving? (leg : Leg) : Option Route := w.route? leg.name leg.response.code

/-- The name to which a leg leads. -/
def onward? (leg : Leg) : Option String := (w.leaving? leg).bind Route.next

/-- Each leg is at the name to which the leg before leads; the first one is at
the given name. -/
def FollowsFrom : Option String → List Leg → Prop
  | _, [] => True
  | name, leg :: rest =>
    name = some leg.name ∧ FollowsFrom (w.onward? leg) rest

/-- The name that comes after some legs, of which the first is at the given
name. -/
def aheadFrom : Option String → List Leg → Option String
  | name, [] => name
  | _, leg :: rest => aheadFrom (w.onward? leg) rest

/-- The legs go from the start of the workflow along its routing table. -/
def Follows (legs : List Leg) : Prop := w.FollowsFrom (some w.start) legs

/-- The name that comes after some legs. -/
def ahead? (legs : List Leg) : Option String :=
  w.aheadFrom (some w.start) legs

/-- How many retry routes are taken after the legs of a walk. -/
def retries (legs : List Leg) : Nat :=
  legs.countP fun leg => (w.leaving? leg).any Route.isRetry

/-- The route taken after the last leg is an end route: it has no `next`. -/
def Arrives (legs : List Leg) : Prop :=
  ∃ leg route, legs.getLast? = some leg ∧ w.leaving? leg = some route
    ∧ route.next = none

variable {w}

/-- One more leg follows if it is at the name ahead. Legs are added at the
end, while `FollowsFrom` goes from the front. -/
theorem followsFrom_concat {leg : Leg} :
    ∀ {name : Option String} {legs : List Leg},
      w.FollowsFrom name (legs ++ [leg])
        ↔ w.FollowsFrom name legs
          ∧ w.aheadFrom name legs = some leg.name := by
  intro name legs
  induction legs generalizing name with
  | nil =>
    show name = some leg.name ∧ True ↔ True ∧ name = some leg.name
    rw [and_true, true_and]
  | cons first rest ih =>
    show name = some first.name
        ∧ w.FollowsFrom (w.onward? first) (rest ++ [leg])
      ↔ (name = some first.name ∧ w.FollowsFrom (w.onward? first) rest)
        ∧ w.aheadFrom (w.onward? first) rest = some leg.name
    rw [ih, and_assoc]

/-- What is ahead after some legs is decided by the last of them. By induction
on the legs before it. -/
theorem aheadFrom_concat {leg : Leg} :
    ∀ {name : Option String} {legs : List Leg},
      w.aheadFrom name (legs ++ [leg]) = w.onward? leg := by
  intro name legs
  induction legs generalizing name with
  | nil => rfl
  | cons first rest ih => exact ih

/-- The responses of a walk determine its names. By induction on the legs,
which begin at the same name; the first response decides by `onward?` where
the others begin. -/
theorem FollowsFrom.unique :
    ∀ {name : Option String} {legs others : List Leg},
      w.FollowsFrom name legs → w.FollowsFrom name others →
      others.map Leg.response = legs.map Leg.response →
      others = legs := by
  intro name legs
  induction legs generalizing name with
  | nil =>
    intro others _ _ hresponses
    exact List.map_eq_nil_iff.1 hresponses
  | cons leg rest ih =>
    intro others hlegs hothers hresponses
    cases others with
    | nil => cases hresponses
    | cons other others =>
      obtain ⟨hname, hrest⟩ := hlegs
      obtain ⟨hname', hothers⟩ := hothers
      obtain ⟨hresponse, hresponses⟩ := List.cons.inj hresponses
      -- Both legs are at the same name, and so the routes after them lead to
      -- the same one.
      have hsame : other = leg := by
        obtain ⟨name', response'⟩ := other
        obtain ⟨name'', response''⟩ := leg
        rw [hname] at hname'
        cases hname'
        cases hresponse
        rfl
      rw [hsame] at hothers ⊢
      rw [ih hrest hothers hresponses]

/-- No name comes after a walk that has arrived: an end route leads `onward?`
to none. -/
theorem Arrives.ahead? {legs : List Leg} (h : w.Arrives legs) :
    w.ahead? legs = none := by
  obtain ⟨leg, route, hlast, hleaving, hnext⟩ := h
  obtain ⟨before, rfl⟩ := List.getLast?_eq_some_iff.1 hlast
  unfold Workflow.ahead?
  rw [aheadFrom_concat, onward?, hleaving]
  exact hnext

/-- One more leg takes one more retry route or none. -/
theorem retries_concat {legs : List Leg} {leg : Leg} :
    w.retries (legs ++ [leg])
      = w.retries legs + if (w.leaving? leg).any Route.isRetry
        then 1 else 0 := by
  unfold retries
  rw [List.countP_append, List.countP_singleton]

-- ============================================== what happens on a walk

variable (c : Collaborators σ) (execute : Executor σ) (context : Context) (w)

/-- A name stands for a task: for the workflow's own, or for one that is
looked up where the workflow has none. -/
inductive Finds (name : String) (t : Trace σ) : Task → Trace σ → Prop where
  | own {task : Task} (own : w.own? name = some task) : Finds name t task t
  | looked {task : Task} {t' : Trace σ} (foreign : w.own? name = none)
      (answered : c.lookUp name t = (.ok (.ok (some task)), t')) :
      Finds name t task t'

/-- The walk may go on, if only the task at the next name may run: nobody has
asked it to stop, and some attempt is left. -/
structure Going (legs : List Leg) (t : Trace σ) : Prop where
  going : context.isCancelled c t.world = false
  budget : w.retries legs < w.maxAttempts.toNat

/-- The legs are walked one after the other. Each task draws its inputs from
the environment, which keeps the latest output of each name. -/
inductive Walks (inputs : Inputs) (t₀ : Trace σ) :
    List Leg → Inputs → Trace σ → Prop where
  | start : Walks inputs t₀ [] inputs t₀
  | leg {legs : List Leg} {environment : Inputs} {t t' t'' : Trace σ}
      {name : String} {task : Task} {response : Response}
      (walked : Walks inputs t₀ legs environment t)
      (ahead : w.ahead? legs = some name) (going : w.Going c context legs t)
      (found : w.Finds c name t task t') (admitted : Admits context task)
      (ran : execute context task
        (task.identity.inputSchema.select environment) t'
        = (.ok response, t'')) :
      Walks inputs t₀ (legs ++ [⟨name, response⟩])
        (environment.insert (outputKey name)
          (Json.optional .string response.outputText)) t''

/-- What is in the way of the next name, if it is not the table. Each obstacle
counts only where none of those before it is met. -/
inductive Meets (legs : List Leg) (name : String) (t : Trace σ) :
    Obstacle → Trace σ → Prop where
  | cancelled (cancelled : context.isCancelled c t.world = true) :
      Meets legs name t .cancelled t
  | attempts (going : context.isCancelled c t.world = false)
      (spent : w.retries legs = w.maxAttempts.toNat) :
      Meets legs name t (.attempts w.maxAttempts w.maxAttempts) t
  | unresolvable {t' : Trace σ} (going : w.Going c context legs t)
      (foreign : w.own? name = none)
      (unknown : c.lookUp name t = (.ok (.ok none), t')) :
      Meets legs name t (.unresolvable name) t'
  | recursion {nested : Workflow Task} {t' : Trace σ}
      (going : w.Going c context legs t)
      (found : w.Finds c name t (.workflow nested) t')
      (active : nested.key ∈ context.active)
      (flat : nested.recursive = false) :
      Meets legs name t (.recursion nested.key) t'
  | depth {nested : Workflow Task} {t' : Trace σ}
      (going : w.Going c context legs t)
      (found : w.Finds c name t (.workflow nested) t')
      (recursive : nested.key ∈ context.active → nested.recursive = true)
      (deep : maxCallDepth ≤ context.depth) :
      Meets legs name t (.depth nested.key) t'

/-- Why a walk does not arrive: the table has no route after the last leg, or
the next name `Meets` something in its way. -/
inductive Halts (legs : List Leg) (t : Trace σ) :
    Obstacle → Trace σ → Prop where
  | noRoute {leg : Leg} (last : legs.getLast? = some leg)
      (unrouted : w.leaving? leg = none) :
      Halts legs t (.noRoute leg.response.code leg.name) t
  | ahead {name : String} {obstacle : Obstacle} {t' : Trace σ}
      (ahead : w.ahead? legs = some name)
      (meets : w.Meets c context legs name t obstacle t') :
      Halts legs t obstacle t'

variable {c execute context w}

/-- A walk follows the routing table, since each leg is at the name ahead. -/
theorem Walks.follows {inputs environment : Inputs} {t₀ t : Trace σ}
    {legs : List Leg}
    (h : w.Walks c execute context inputs t₀ legs environment t) :
    w.Follows legs := by
  induction h with
  | start => exact True.intro
  | leg _ ahead _ _ _ _ ih => exact followsFrom_concat.2 ⟨ih, ahead⟩

/-- Each leg of a walk begins while some attempt is left: the last one by
`Going`, and those before it by induction. -/
theorem Walks.retries_take_lt {inputs environment : Inputs} {t₀ t : Trace σ}
    {legs : List Leg}
    (h : w.Walks c execute context inputs t₀ legs environment t) {i : Nat}
    (hi : i < legs.length) :
    w.retries (legs.take i) < w.maxAttempts.toNat := by
  induction h with
  | start => exact absurd hi (Nat.not_lt_zero i)
  | @leg legs environment t t' t'' name task response _ _ going _ _ _ ih =>
    rw [List.length_append, List.length_singleton] at hi
    rw [List.take_append_of_le_length (Nat.le_of_lt_succ hi)]
    rcases Nat.lt_or_eq_of_le (Nat.le_of_lt_succ hi) with hlt | rfl
    · exact ih hlt
    · rw [List.take_length]
      exact going.budget

-- ====================================================== runs are walks

/-- A lookup that finds a task `Finds` what the name stands for. -/
theorem finds_of_find {name : String} {t t' : Trace σ} {task : Task}
    (h : w.find c name t = (.ok (some task), t')) :
    w.Finds c name t task t' := by
  unfold find at h
  cases hown : w.own? name with
  | some own =>
    rw [hown] at h
    cases h
    exact .own hown
  | none =>
    rw [hown] at h
    dsimp only at h
    rw [bind_apply] at h
    rcases hanswer : c.lookUp name t with ⟨stop | (error | found), tₙ⟩
    · rw [hanswer] at h
      cases h
    · rw [hanswer] at h
      cases h
    · rw [hanswer] at h
      cases h
      exact .looked hown hanswer

/-- A lookup that finds nothing has asked for a name that the workflow does
not own. -/
theorem unknown_of_find {name : String} {t t' : Trace σ}
    (h : w.find c name t = (.ok none, t')) :
    w.own? name = none ∧ c.lookUp name t = (.ok (.ok none), t') := by
  unfold find at h
  cases hown : w.own? name with
  | some own =>
    rw [hown] at h
    cases h
  | none =>
    rw [hown] at h
    dsimp only at h
    rw [bind_apply] at h
    rcases hanswer : c.lookUp name t with ⟨stop | (error | found), tₙ⟩
    · rw [hanswer] at h
      cases h
    · rw [hanswer] at h
      cases h
    · rw [hanswer] at h
      cases h
      exact ⟨rfl, rfl⟩

/-- A run that has gone on so far `Walks` some legs, and is about to walk the
next one. -/
structure Retraces (c : Collaborators σ) (execute : Executor σ)
    (context : Context) (w : Workflow Task) (inputs : Inputs) (t₀ : Trace σ)
    (run : Run) (t : Trace σ) (legs : List Leg) : Prop where
  walks : w.Walks c execute context inputs t₀ legs run.environment t
  context : run.context = context
  current : run.current = w.ahead? legs
  arrived : run.current = none → w.Arrives legs
  attempts : run.attempts.toNat = w.retries legs
  budget : run.attempts ≤ w.maxAttempts
  past : run.past = (legs.map Leg.response).reverse

/-- A new run has walked no leg. -/
theorem Retraces.start {inputs : Inputs} {t₀ : Trace σ} :
    Retraces c execute (context.enter w.key) w inputs t₀
      (w.newRun context inputs) t₀ [] where
  walks := .start
  context := rfl
  current := rfl
  arrived h := nomatch h
  attempts := rfl
  budget := UInt32.le_iff_toNat_le.2 (Nat.zero_le _)
  past := rfl

/-- A run that is `Ready` walks one more leg once its task has responded: the
conditions for being ready are those of `Going` and `Finds`, and of a task
that is admitted. -/
theorem Retraces.walks_record {inputs : Inputs} {t₀ t t' t'' : Trace σ}
    {run : Run} {legs : List Leg} {name : String} {task : Task}
    {response : Response}
    (h : Retraces c execute context w inputs t₀ run t legs)
    (ready : w.Ready c run t name task t')
    (ran : execute run.context task (run.inputsFor task) t'
      = (.ok response, t'')) :
    w.Walks c execute context inputs t₀ (legs ++ [⟨name, response⟩])
      (run.record name response).environment t'' := by
  have hgoing : w.Going c context legs t := by
    constructor
    · rw [← h.context]
      exact ready.going
    · rw [← h.attempts]
      exact UInt32.lt_iff_toNat_lt.1 ready.budget
  have hadmits : Admits context task := by
    rw [← h.context]
    exact refusal?_eq_none_iff.1 ready.admitted
  rw [h.context] at ran
  exact h.walks.leg (h.current.symm.trans ready.current) hgoing
    (finds_of_find ready.found) hadmits ran

/-- A step that goes on walks one more leg. Such a step has run a task and
taken a route (`of_step_goesOn`), which is the route after the leg. -/
theorem Retraces.step {inputs : Inputs} {t₀ t t'' : Trace σ} {run run' : Run}
    {legs : List Leg} (h : Retraces c execute context w inputs t₀ run t legs)
    (hstep : w.step c execute run t = ⟨.ok .goesOn, run', t''⟩) :
    ∃ leg, Retraces c execute context w inputs t₀ run' t''
      (legs ++ [leg]) := by
  obtain ⟨name, task, response, route, t', ready, ran, routed, rfl⟩ :=
    of_step_goesOn hstep
  have hlt : run.attempts.toNat < w.maxAttempts.toNat :=
    UInt32.lt_iff_toNat_lt.1 ready.budget
  have htaken :
      (if route.isRetry then run.attempts + 1 else run.attempts).toNat
        = run.attempts.toNat + if route.isRetry then 1 else 0 :=
    toNat_taken ready.budget
  have hleaving : w.leaving? ⟨name, response⟩ = some route := routed
  refine ⟨⟨name, response⟩, ?_⟩
  constructor
  case walks => exact h.walks_record ready ran
  case context => exact h.context
  case current =>
    show route.next = w.aheadFrom (some w.start) (legs ++ [⟨name, response⟩])
    rw [aheadFrom_concat, onward?, hleaving]
    rfl
  case arrived =>
    intro hnone
    exact ⟨_, route, List.getLast?_concat, hleaving, hnone⟩
  case attempts =>
    rw [retries_concat, hleaving, ← h.attempts]
    exact htaken
  case budget =>
    refine UInt32.le_iff_toNat_le.2 ?_
    show (if route.isRetry then run.attempts + 1 else run.attempts).toNat
        ≤ w.maxAttempts.toNat
    rw [htaken]
    split
    · exact hlt
    · exact Nat.le_of_lt hlt
  case past =>
    show response :: run.past
        = (List.map Leg.response (legs ++ [⟨name, response⟩])).reverse
    rw [h.past, List.map_append, List.reverse_append]
    rfl

/-- All runs that a new run passes through have walked some legs: none at
first (`Retraces.start`), and one more with each step (`Retraces.step`). -/
theorem Passes.retraces {inputs : Inputs} {t₀ t : Trace σ} {run : Run}
    (h : w.Passes c execute (w.newRun context inputs) t₀ run t) :
    ∃ legs, Retraces c execute (context.enter w.key) w inputs
      t₀ run t legs := by
  induction h with
  | start => exact ⟨[], .start⟩
  | step _ goesOn ih =>
    obtain ⟨legs, hlegs⟩ := ih
    obtain ⟨leg, hleg⟩ := hlegs.step goesOn
    exact ⟨legs ++ [leg], hleg⟩

-- ==================================================== whole executions

/-- A driven run that ends was a walk. It has completed if the walk arrives;
otherwise it has met the obstacle at which the walk halts. The cases are those
of the last step (`StepsTo`); one that finds no route has walked one leg more
than the run before it. -/
theorem walks_of_drive {bound : Nat} {inputs : Inputs} {t t' : Trace σ}
    {outcome : Outcome} {run : Run}
    (h : w.drive c execute bound (w.newRun context inputs) t
      = (.ok (outcome, run), t')) :
    ∃ legs environment tₗ,
      w.Walks c execute (context.enter w.key) inputs t legs environment tₗ
      ∧ run.history = legs.map Leg.response
      ∧ ((outcome = .completed ∧ w.Arrives legs ∧ t' = tₗ)
        ∨ ∃ obstacle, outcome = .failed obstacle ∧ ¬ w.Arrives legs
          ∧ w.Halts c (context.enter w.key) legs tₗ obstacle t') := by
  obtain ⟨last, tₗ, hpasses, hlast, hends⟩ := of_drive_ok h
  obtain ⟨legs, hlegs⟩ := hpasses.retraces
  have hhistory : last.history = legs.map Leg.response := by
    rw [Run.history, hlegs.past, List.reverse_reverse]
  -- A step that leaves the run as it is halts the walk at the name that comes
  -- next.
  have hhalts : ∀ {name obstacle}, last.current = some name →
      w.Meets c (context.enter w.key) legs name tₗ obstacle t' →
      ¬ w.Arrives legs
        ∧ w.Halts c (context.enter w.key) legs tₗ obstacle t' := by
    intro name obstacle hcurrent hmeets
    have hahead : w.ahead? legs = some name :=
      hlegs.current.symm.trans hcurrent
    refine ⟨fun harrives => ?_, .ahead hahead hmeets⟩
    rw [harrives.ahead?] at hahead
    cases hahead
  have hgoing : last.context.isCancelled c tₗ.world = false →
      last.attempts < w.maxAttempts →
      w.Going c (context.enter w.key) legs tₗ := by
    intro hgoing hbudget
    rw [← hlegs.context]
    refine ⟨hgoing, ?_⟩
    rw [← hlegs.attempts]
    exact UInt32.lt_iff_toNat_lt.1 hbudget
  have hcases : w.StepsTo c execute last tₗ (w.step c execute last tₗ) :=
    step_stepsTo last tₗ
  rw [hlast] at hcases
  cases hcases with
  | completed current =>
    exact ⟨legs, _, _, hlegs.walks, hhistory,
      Or.inl ⟨rfl, hlegs.arrived current, rfl⟩⟩
  | cancelled current cancelled =>
    rw [hlegs.context] at cancelled
    exact ⟨legs, _, _, hlegs.walks, hhistory,
      Or.inr ⟨_, rfl, hhalts current (.cancelled cancelled)⟩⟩
  | attempts current going spent =>
    rw [hlegs.context] at going
    have hequal := UInt32.le_antisymm hlegs.budget spent
    have hspent : w.retries legs = w.maxAttempts.toNat := by
      rw [← hlegs.attempts, hequal]
    rw [hequal]
    exact ⟨legs, _, _, hlegs.walks, hhistory,
      Or.inr ⟨_, rfl, hhalts current (.attempts going hspent)⟩⟩
  | unresolvable current going budget unknown =>
    obtain ⟨hforeign, hunknown⟩ := unknown_of_find unknown
    exact ⟨legs, _, _, hlegs.walks, hhistory,
      Or.inr ⟨_, rfl, hhalts current
        (.unresolvable (hgoing going budget) hforeign hunknown)⟩⟩
  | refused current going budget found refused =>
    have hfinds := finds_of_find found
    rw [hlegs.context] at refused
    obtain ⟨nested, rfl, ⟨hactive, hflat, rfl⟩ | ⟨hrecursive, hdeep, rfl⟩⟩ :=
      of_refusal? refused
    · exact ⟨legs, _, _, hlegs.walks, hhistory, Or.inr
        ⟨_, rfl, hhalts current
          (.recursion (hgoing going budget) hfinds hactive hflat)⟩⟩
    · exact ⟨legs, _, _, hlegs.walks, hhistory, Or.inr
        ⟨_, rfl, hhalts current
          (.depth (hgoing going budget) hfinds hrecursive hdeep)⟩⟩
  | @unrouted name task response t' _ ready ran unrouted =>
    let final : Leg := ⟨name, response⟩
    have hlast : (legs ++ [final]).getLast? = some final :=
      List.getLast?_concat
    have hunrouted : w.leaving? final = none := unrouted
    refine ⟨legs ++ [final], _, _, hlegs.walks_record ready ran, ?_,
      Or.inr ⟨_, rfl, ?_, .noRoute hlast hunrouted⟩⟩
    · rw [Run.history_record, hhistory, List.map_append]
      rfl
    · rintro ⟨leg, route, hleg, hleaving, -⟩
      rw [hlast] at hleg
      cases hleg
      rw [hunrouted] at hleaving
      cases hleaving
  | routed => exact absurd rfl hends

/-- What a workflow responds is told by a walk along its routing table: the
history is the responses of the names walked, which the table determines; the
workflow has succeeded exactly if the walk arrives; and otherwise the
diagnostic names what has halted the walk.

The walk is that of the driven run (`walks_of_drive`), and it is the only one
with these responses (`FollowsFrom.unique`). -/
theorem execute_walks_routing_table {bound : Nat} {inputs prepared : Inputs}
    {t t' : Trace σ} {r : Response}
    (haccepts : w.identity.inputSchema.prepare inputs = .ok prepared)
    (hrun : Task.execute c (bound + 1) context (.workflow w) inputs t
      = (.ok r, t')) :
    ∃ legs environment tₗ,
      w.Walks c (Task.execute c bound) (context.enter w.key) prepared t legs
        environment tₗ
      ∧ r.history = some (legs.map Leg.response)
      ∧ w.Follows legs
      ∧ (∀ others, w.Follows others →
        others.map Leg.response = legs.map Leg.response →
          others = legs)
      ∧ (∀ i, i < legs.length → w.retries (legs.take i) < w.maxAttempts.toNat)
      ∧ (r.isSuccess = true ↔ w.Arrives legs)
      ∧ (w.Arrives legs → t' = tₗ)
      ∧ (¬ w.Arrives legs → r.code = failureCode
          ∧ ∃ obstacle, w.Halts c (context.enter w.key) legs tₗ obstacle t'
            ∧ r.diagnostic = some obstacle.message) := by
  have hlayer : w.execute c (Task.execute c bound) bound context prepared
      inputs t = (.ok r, t') := by
    rw [← hrun, Task.execute, Task.perform_workflow haccepts]
  obtain ⟨outcome, run, hdrive, rfl⟩ := of_execute_ok hlayer
  obtain ⟨legs, environment, tₗ, hwalks, hhistory, houtcome⟩ :=
    walks_of_drive hdrive
  have hunique : ∀ others, w.Follows others →
      others.map Leg.response = legs.map Leg.response → others = legs :=
    fun others hothers hresponses => hwalks.follows.unique hothers hresponses
  refine ⟨legs, environment, tₗ, hwalks, ?_, hwalks.follows, hunique,
    fun i hi => hwalks.retries_take_lt hi, ?_⟩
  · rw [← hhistory]
    exact history_finish
  · rcases houtcome with
      ⟨rfl, harrives, hends⟩ | ⟨obstacle, rfl, hnot, hhalts⟩
    · exact ⟨⟨fun _ => harrives, fun _ => rfl⟩, fun _ => hends, fun hnot =>
        absurd harrives hnot⟩
    · exact ⟨⟨fun hsuccess => absurd hsuccess Bool.false_ne_true,
        fun harrives => absurd harrives hnot⟩,
        fun harrives => absurd harrives hnot,
        fun _ => ⟨rfl, obstacle, hhalts, rfl⟩⟩

/-- Among agents that say their names, a workflow of two tasks walks to both
of them and arrives. -/
theorem relay_walks_routing_table :
    ∃ r t' legs,
      Task.execute .echoing 4 (.fresh false) (.workflow relay) [] (.start ())
        = (.ok r, t')
      ∧ r.history = some (legs.map Leg.response) ∧ relay.Follows legs
      ∧ relay.Arrives legs ∧ legs.length = 2 := by
  have hends : (Task.execute .echoing 4 (.fresh false) (.workflow relay) []
      (.start ())).1.toOption.map (fun r => (r.isSuccess, r.historyLength))
        = some (true, 2) := rfl
  rcases hrun : Task.execute .echoing 4 (.fresh false) (.workflow relay)
    [] (.start ())
    with ⟨stop | r, t'⟩
  · rw [hrun] at hends
    cases hends
  · rw [hrun] at hends
    obtain ⟨hsuccess, hlength⟩ := Prod.mk.inj (Option.some.inj hends)
    have haccepts : relay.identity.inputSchema.prepare [] = .ok [] := rfl
    obtain ⟨legs, -, -, -, hhistory, hfollows, -, -, harrives, -⟩ :=
      execute_walks_routing_table haccepts hrun
    refine ⟨r, t', legs, rfl, hhistory, hfollows, harrives.1 hsuccess, ?_⟩
    rw [Response.historyLength, hhistory] at hlength
    rw [← hlength]
    exact (List.length_map _).symm

end TaskRouting.Workflow

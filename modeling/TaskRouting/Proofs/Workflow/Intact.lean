import TaskRouting.Proofs.Abreast
import TaskRouting.Proofs.Setting
import TaskRouting.Proofs.Upholding
/-!
Steps that fail leave the run as it is.

# What a failed step changes

A run changes only when a sub-task has responded: the response is recorded,
and where there is a route for it the run goes along. Whatever ends a step
before that (a fault, the crash of a collaborator, an obstacle) leaves the run
to be stepped again. If there is no route, the response has been recorded, and
nothing else has changed. The case split over what a step can come to is made
once (`step_keeps_or_records`), and `run_of_stopped`, `run_of_failed` and
`run_of_unrouted` read it for one kind of failure each.

# What has been asked until a fault

A prompt or a check is stopped by a fault only while its APIs are looked up,
before its agent is asked: a conversation hands its tools' faults to the agent
and is never stopped by one (`Conversation.finish_ne_fault`,
`Task.unresolved_of_fault`). So where the lookup of a name or of an API fails,
nobody has been asked but for these lookups. `LooksUpOnly` is the invariant of
the calls made until then; the lookup and the registry keep it
(`serve_looksUpOnly`), and no other collaborator is reached
(`looksUpOnly_of_fault`).

# Going on after a failure

If the failure passes, the run goes on as one that has never met it. The two
runs are the same from the failed step on, and only their traces differ;
`laterStep` takes both along, and each of its steps keeps them abreast
(`laterStep_abreast`, by induction on their number from `step_abreast`). The
whole is `failed_step_leaves_run_intact`.
-/

namespace TaskRouting

open Execution

variable {σ σ' : Type} {c : Collaborators σ}

-- ========================================== what a failed step changes

namespace Workflow

variable {x : Executor σ} {w : Workflow Task} {run : Run} {t : Trace σ}

/-- A step leaves the run as it is, unless a task has responded. Then the
response is recorded, and the step goes on unless there is no route. One case
for each way in which `StepsTo` lets a step end. -/
theorem step_keeps_or_records (w : Workflow Task) (c : Collaborators σ)
    (x : Executor σ) (run : Run) (t : Trace σ) :
    ((w.step c x run t).run = run
        ∧ ∀ code name, (w.step c x run t).result
          ≠ .ok (.failed (.noRoute code name)))
      ∨ (∃ name response, (w.step c x run t).run = run.record name response
          ∧ (w.step c x run t).result
            = .ok (.failed (.noRoute response.code name)))
      ∨ (w.step c x run t).result = .ok .goesOn := by
  have hcases : w.StepsTo c x run t (w.step c x run t) := step_stepsTo run t
  generalize w.step c x run t = stepped at hcases
  cases hcases with
  | completed => exact .inl ⟨rfl, fun _ _ h => nomatch h⟩
  | cancelled => exact .inl ⟨rfl, fun _ _ h => nomatch h⟩
  | attempts => exact .inl ⟨rfl, fun _ _ h => nomatch h⟩
  | lookupStopped => exact .inl ⟨rfl, fun _ _ h => nomatch h⟩
  | unresolvable => exact .inl ⟨rfl, fun _ _ h => nomatch h⟩
  | refused current going budget found refused =>
    refine .inl ⟨rfl, fun code name h => ?_⟩
    cases h
    exact refusal?_ne_noRoute refused
  | taskStopped => exact .inl ⟨rfl, fun _ _ h => nomatch h⟩
  | unrouted => exact .inr (.inl ⟨_, _, rfl, rfl⟩)
  | routed => exact .inr (.inr rfl)

/-- A step that is stopped leaves the run as it was: of the cases of
`step_keeps_or_records`, those that record come to an answer. -/
theorem run_of_stopped {stop : Stop}
    (h : (w.step c x run t).result = .error stop) :
    (w.step c x run t).run = run := by
  obtain ⟨hrun, -⟩ | ⟨name, response, -, hresult⟩ | hresult :=
    w.step_keeps_or_records c x run t
  · exact hrun
  · rw [hresult] at h
    cases h
  · rw [hresult] at h
    cases h

/-- An obstacle other than a missing route leaves the run as it was, since
`step_keeps_or_records` records nothing at any other. -/
theorem run_of_failed {obstacle : Obstacle}
    (h : (w.step c x run t).result = .ok (.failed obstacle))
    (hrouted : ∀ code name, obstacle ≠ .noRoute code name) :
    (w.step c x run t).run = run := by
  obtain ⟨hrun, -⟩ | ⟨name, response, -, hresult⟩ | hresult :=
    w.step_keeps_or_records c x run t
  · exact hrun
  · rw [hresult] at h
    cases h
    exact absurd rfl (hrouted _ _)
  · rw [hresult] at h
    cases h

/-- A missing route leaves the run with the response recorded that it is
missing for, by the one case of `step_keeps_or_records` that records and
fails. -/
theorem run_of_unrouted {code : UInt32} {name : String}
    (h : (w.step c x run t).result = .ok (.failed (.noRoute code name))) :
    ∃ response, response.code = code
      ∧ (w.step c x run t).run = run.record name response := by
  obtain ⟨-, hrouted⟩ | ⟨name', response, hrun, hresult⟩ | hresult :=
    w.step_keeps_or_records c x run t
  · exact absurd h (hrouted code name)
  · rw [hresult] at h
    cases h
    exact ⟨response, rfl, hrun⟩
  · rw [hresult] at h
    cases h

end Workflow

-- =================================== what has been asked until a fault

/-- Since some calls were made, nobody has been asked but the lookup and the
registry. -/
def LooksUpOnly (before : List Call) (_ : Option Stop) (t : Trace σ) : Prop :=
  ∃ asked, t.calls = before ++ asked
    ∧ ∀ call ∈ asked, (∃ name, call = .lookup name)
      ∨ ∃ api, call = .config api

/-- One more lookup, or one more question to the registry, keeps
`LooksUpOnly`, whatever world it leaves. -/
theorem LooksUpOnly.call {before : List Call} {stop stop' : Option Stop}
    {t : Trace σ} (h : LooksUpOnly before stop t) {last : Call}
    (hlast : (∃ name, last = .lookup name) ∨ ∃ api, last = .config api)
    (world : σ) : LooksUpOnly before stop' { t.call last with world } := by
  obtain ⟨asked, hcalls, hasked⟩ := h
  refine ⟨asked ++ [last], ?_, ?_⟩
  · show (t.call last).calls = _
    rw [Trace.calls_call, hcalls, List.append_assoc]
  · intro call hcall
    rcases List.mem_append.1 hcall with hcall | hcall
    · exact hasked call hcall
    · rw [List.mem_singleton.1 hcall]
      exact hlast

/-- The lookup and the registry keep `LooksUpOnly`, and running out of
executions makes no call. -/
theorem serve_looksUpOnly (before : List Call) :
    c.Serve (LooksUpOnly before) where
  exhausted _ h := h
  lookup name _ h := h.call (.inl ⟨name, rfl⟩) _
  config api _ h := h.call (.inr ⟨api, rfl⟩) _

/-- No conversation is stopped by a fault: the agent is told of those that
stop its tools. By induction on the conversation, where a fault of the tool
would have had to come out of `hear`. -/
theorem Conversation.finish_ne_fault
    {runTool : Task → Inputs → Execution σ Response}
    {tools : List (String × Task)} {talk : Conversation σ} {fault : Fault}
    {t : Trace σ} :
    (talk.finish runTool tools t).1 ≠ .error (.fault fault) := by
  induction talk generalizing t with
  | answer result world => exact fun h => nomatch h
  | crash why world => exact fun h => nomatch h
  | callTool name inputs world resume ih =>
    rw [finish_callTool, bind_apply]
    have hheard : ∀ t', (hear runTool tools name inputs t').1
        ≠ .error (.fault fault) := by
      intro t'
      unfold hear
      cases Table.get? tools name with
      | none => exact fun h => nomatch h
      | some tool =>
        dsimp only
        unfold heard
        rcases runTool tool inputs t' with ⟨(fault | why | _) | response, t''⟩
        all_goals exact fun h => nomatch h
    rcases hears : hear runTool tools name inputs { t with world }
      with ⟨stop | told, t'⟩
    · intro h
      cases h
      exact hheard _ (congrArg Prod.fst hears)
    · exact ih told t'.world

namespace Task

/-- A task that asks an agent is stopped by a fault only while its APIs are
looked up. Followed through `perform`: missing inputs are a response, the
conversation is not stopped by a fault (`Conversation.finish_ne_fault`), and
what comes after it always responds. -/
theorem unresolved_of_fault {x : Workflow.Executor σ} {bound : Nat}
    {context : Context} {task : Task} {p : Prompt Task} {inputs : Inputs}
    {fault : Fault} {t t' : Trace σ} (hasks : task.prompt? = some p)
    (h : perform c x bound context task inputs t
      = (.error (.fault fault), t')) :
    Prompt.resolveApis c p.identity.requiredApis t
      = (.error (.fault fault), t') := by
  cases hprepare : task.identity.inputSchema.prepare inputs with
  | error missing =>
    rw [perform_missing hprepare] at h
    cases h
  | ok prepared =>
    rw [identity_of_prompt? hasks] at hprepare
    obtain ⟨conclude, hconcludes, hperform⟩ :=
      perform_of_prompt? (c := c) hasks hprepare
    rw [hperform, bind_apply] at h
    rcases hapis : Prompt.resolveApis c p.identity.requiredApis t
      with ⟨stop | apis, t₁⟩
    · rw [Prompt.generate_of_unresolved hapis] at h
      cases h
      rfl
    · -- The APIs have been found, so the fault would have to come from what
      -- follows.
      exfalso
      rw [Prompt.generate_of_resolved hapis, bind_apply] at h
      rcases htalk :
        (c.agent p.agent ⟨prepared, apis, p.toolbox⟩ t₁.world).finish
          (x context) (p.toolbox.getD [])
          (t₁.call (.agent p.agent.name prepared apis
            (p.toolbox.map Table.keys)))
        with ⟨stop | answered, t₂⟩
      · rw [htalk] at h
        cases h
        exact Conversation.finish_ne_fault (congrArg Prod.fst htalk)
      · rw [htalk] at h
        rcases answered with error | (_ | ⟨message, messages⟩)
        all_goals
          dsimp only [pure_apply] at h
          obtain ⟨response, hends⟩ := hconcludes _ t₂
          rw [hends] at h
          cases h

end Task

namespace Workflow

variable {w : Workflow Task} {run : Run} {t : Trace σ}

/-- Until a step is stopped by a fault nobody is asked but the lookup and the
registry, unless it runs a workflow. The step is stopped either by the lookup
itself, or by a task that has been found (`Task.unresolved_of_fault`); in the
second case the calls of the search are followed by those for the APIs. -/
theorem looksUpOnly_of_fault {fault : Fault}
    (h : (w.step c (Task.unbounded c) run t).result = .error (.fault fault))
    (hleaf : ∀ name nested t', ¬ w.Ready c run t name (.workflow nested) t') :
    LooksUpOnly t.calls none (w.step c (Task.unbounded c) run t).trace := by
  have hserve : c.Serve (LooksUpOnly t.calls) := serve_looksUpOnly t.calls
  have hstart : LooksUpOnly t.calls none t :=
    ⟨[], (List.append_nil _).symm, fun _ h => nomatch h⟩
  have hcases : w.StepsTo c (Task.unbounded c) run t
      (w.step c (Task.unbounded c) run t) :=
    step_stepsTo run t
  generalize w.step c (Task.unbounded c) run t = stepped at h hcases
  cases hcases with
  | lookupStopped current going budget stopped =>
    exact (find_upholds hserve).of_error hstart stopped
  | @taskStopped name task stop t₁ t₂ ready stopped =>
    obtain rfl : stop = .fault fault := Except.error.inj h
    have hfound := (find_upholds hserve).of_ok hstart ready.found
    cases hasks : task.prompt? with
    | none =>
      cases task with
      | prompt p => cases hasks
      | check k => cases hasks
      | workflow nested => exact absurd ready (hleaf name nested t₁)
    | some p =>
      -- A fault is not exhaustion, so some bounded execution is stopped by it
      -- as well.
      have hsettles :
          (Task.unbounded c run.context task
            (run.inputsFor task)).Settles t₁ := by
        unfold Settles
        rw [stopped]
        exact fun hexhausted => nomatch hexhausted
      obtain ⟨bound, hperform⟩ := Task.exists_perform_of_unbounded hsettles
      rw [stopped] at hperform
      have hapis := Task.unresolved_of_fault hasks hperform
      exact (Prompt.resolveApis_upholds hserve _).of_error hfound hapis
  | completed => cases h
  | cancelled => cases h
  | attempts => cases h
  | unresolvable => cases h
  | refused => cases h
  | unrouted => cases h
  | routed => cases h

-- ============================================ going on after a failure

/-- What the last of some more steps of a run leaves behind, whatever those
before it have come to. Unlike in `drive`, a step is taken after a failure as
well. -/
def laterStep (c : Collaborators σ) (x : Executor σ) (w : Workflow Task) :
    Nat → Run → Trace σ → Stepped σ
  | 0, run, t => w.step c x run t
  | n + 1, run, t =>
    laterStep c x w n (w.step c x run t).run (w.step c x run t).trace

/-- Runs that are the same, in traces that are abreast, stay so over any
number of steps. By induction on the number, for all runs at once; one step is
`step_abreast`. -/
theorem laterStep_abreast {R : σ → σ' → Prop} {made made' : List Call}
    {c' : Collaborators σ'} {x : Executor σ} {x' : Executor σ'}
    (halike : c.Alike R c') (hx : x.Abreast R made made' x') (n : Nat) :
    ∀ (run : Run) {t : Trace σ} {t' : Trace σ'},
      Trace.Abreast R made made' t t' →
        (w.laterStep c x n run t).Abreast R made made'
          (w.laterStep c' x' n run t') := by
  induction n with
  | zero => exact fun run _ _ h => step_abreast halike hx run h
  | succ n ih =>
    intro run t t' h
    obtain ⟨-, hrun, htrace⟩ := step_abreast (w := w) halike hx run h
    unfold laterStep
    rw [← hrun]
    exact ih _ htrace

/-- A step that is stopped, or that meets an obstacle other than a missing
route, leaves the run as it was. Where a route is missing, the run has one
response more and keeps its output, and that is all. These are
`run_of_stopped`, `run_of_failed` and `run_of_unrouted`.

So after a fault in the lookup of a name, or of an API of a prompt or check,
the run is as it was, and nobody has been asked but for those lookups
(`looksUpOnly_of_fault`). If from there on everybody says what those say to
whom the failure has never happened, then each later step comes to the same,
leaves the same run and makes the same calls as there, by
`laterStep_abreast`. -/
theorem failed_step_leaves_run_intact (c : Collaborators σ)
    (w : Workflow Task) (run : Run) (t : Trace σ) :
    let failed := w.step c (Task.unbounded c) run t
    (∀ stop, failed.result = .error stop → failed.run = run)
    ∧ (∀ obstacle, failed.result = .ok (.failed obstacle) →
        (∀ code name, obstacle ≠ .noRoute code name) → failed.run = run)
    ∧ (∀ code name, failed.result = .ok (.failed (.noRoute code name)) →
        ∃ response, response.code = code
          ∧ failed.run.context = run.context
          ∧ failed.run.current = run.current
          ∧ failed.run.attempts = run.attempts
          ∧ failed.run.history = run.history ++ [response]
          ∧ ∀ key, Table.get? failed.run.environment key
              = if key = outputKey name then
                  some (Json.optional .string response.outputText)
                else Table.get? run.environment key)
    ∧ ∀ fault, failed.result = .error (.fault fault) →
        (∀ name nested t', ¬ w.Ready c run t name (.workflow nested) t') →
        ∃ asked, failed.trace.calls = t.calls ++ asked
          ∧ (∀ call ∈ asked, (∃ name, call = .lookup name)
            ∨ ∃ api, call = .config api)
          ∧ ∀ {σ' : Type} (R : σ → σ' → Prop) (c' : Collaborators σ')
              (u : Trace σ'),
              c.Alike R c' → R failed.trace.world u.world →
              ∀ n,
                let again := w.laterStep c (Task.unbounded c) n failed.run
                  failed.trace
                let spared := w.laterStep c' (Task.unbounded c') n run u
                again.result = spared.result
                  ∧ again.run = spared.run
                  ∧ R again.trace.world spared.trace.world
                  ∧ ∃ more, again.trace.calls = t.calls ++ asked ++ more
                    ∧ spared.trace.calls = u.calls ++ more := by
  intro failed
  refine ⟨fun stop => run_of_stopped, fun obstacle => run_of_failed, ?_, ?_⟩
  · intro code name h
    obtain ⟨response, hcode, hrun⟩ := run_of_unrouted h
    refine ⟨response, hcode, ?_⟩
    rw [show failed.run = run.record name response from hrun]
    exact ⟨rfl, rfl, rfl, Run.history_record run name response,
      fun key => Table.get?_insert run.environment (outputKey name) key _⟩
  · intro fault h hleaf
    obtain ⟨asked, hcalls, hasked⟩ := looksUpOnly_of_fault h hleaf
    refine ⟨asked, hcalls, hasked, ?_⟩
    -- From here on both sides step the same run, and only the traces differ.
    rw [show failed.run = run from run_of_stopped h, ← hcalls]
    intro σ' R c' u halike hrelated n
    obtain ⟨hresult, hrun, htrace⟩ := laterStep_abreast (w := w) halike
      (Task.unbounded_abreast halike) n run (Trace.Abreast.start hrelated)
    exact ⟨hresult, hrun, htrace.world, htrace.calls⟩

end Workflow

/-- Collaborators whose agents say their names, and who know a plain prompt
under every name, but not at the first time that they are asked for one. -/
def Collaborators.flaky : Collaborators Bool :=
  { Collaborators.echoing with
    lookup := fun name mended =>
      (if mended then .ok (.ok (some (.prompt (.asking name))))
        else .ok (.error (.failed name "unreachable")), true) }

/-- Once they have been asked, nobody can tell the `flaky` collaborators from
the `echoing` ones, who have known the prompt at once. -/
theorem Collaborators.flaky_alike :
    Collaborators.flaky.Alike (fun mended (_ : Unit) => mended = true)
      .echoing where
  agent agent request mended _ related := .answer _ related
  config api mended _ related := ⟨rfl, related⟩
  lookup name mended _ related := by
    rw [related]
    exact ⟨rfl, rfl⟩
  cancelled _ _ _ := rfl
  clock _ _ _ := rfl

/-- A `relay` whose second task cannot be looked up at first goes on as if
that had never happened, but for having asked twice. -/
theorem Workflow.relay_goes_on_after_failure :
    let run : Run := { Workflow.relay.newRun (.fresh false) []
      with current := some "second" }
    let failed := Workflow.relay.step .flaky (Task.unbounded .flaky) run
      (.start false)
    let again := Workflow.relay.laterStep .flaky (Task.unbounded .flaky) 0
      failed.run failed.trace
    let spared := Workflow.relay.laterStep .echoing (Task.unbounded .echoing)
      0 run (.start ())
    failed.result = .error (.fault (.lookup (.failed "second" "unreachable")))
      ∧ failed.run = run ∧ failed.trace.calls = [.lookup "second"]
      ∧ again.result = .ok .goesOn ∧ again.run = spared.run
      ∧ spared.trace.calls = [.lookup "second", .agent "second" [] [] none]
      ∧ again.trace.calls = [.lookup "second", .lookup "second",
        .agent "second" [] [] none] := by
  intro run failed again spared
  -- What the unbounded executor does is not evaluated: the step that fails
  -- does not reach it, and the later one reaches it with a prompt.
  have hfailed :
      failed = ⟨.error (.fault (.lookup (.failed "second" "unreachable"))),
        run,
        { (Trace.start false).call (.lookup "second") with world := true }⟩ :=
    StepsTo.step_eq (.lookupStopped rfl rfl (by decide) rfl)
  have hleaf : ∀ name nested t',
      ¬ Workflow.relay.Ready .flaky run (.start false) name
        (.workflow nested) t' := by
    rintro name nested t' ⟨current, -, -, found, -⟩
    cases current
    cases found
  have htold : Task.unbounded .echoing run.context
        (.prompt (.asking "second")) []
        ((Trace.start ()).call (.lookup "second"))
      = Task.execute .echoing 1 run.context (.prompt (.asking "second")) []
        ((Trace.start ()).call (.lookup "second")) :=
    Task.unbounded_eq (settles_of_ok rfl)
  have hready : Workflow.relay.Ready .echoing run (.start ()) "second"
      (.prompt (.asking "second"))
      ((Trace.start ()).call (.lookup "second")) :=
    ⟨rfl, rfl, by decide, rfl, rfl⟩
  have hspared : spared = _ := step_of_routed hready (htold.trans rfl) rfl
  obtain ⟨hstopped, -, -, hfault⟩ :=
    failed_step_leaves_run_intact .flaky .relay run (.start false)
  have hresult : failed.result
      = .error (.fault (.lookup (.failed "second" "unreachable"))) := by
    rw [hfailed]
  obtain ⟨asked, hcalls, -, hlater⟩ := hfault _ hresult hleaf
  have hasked : failed.trace.calls = [.lookup "second"] := by
    rw [hfailed]
    rfl
  have hrelated : failed.trace.world = true := by rw [hfailed]
  obtain ⟨hsame, hrun, -, more, hagain, hmore⟩ :=
    hlater _ _ (.start ()) Collaborators.flaky_alike hrelated 0
  have hspent : spared.trace.calls
      = [.lookup "second", .agent "second" [] [] none] := by
    rw [hspared]
    rfl
  have hlast : again.result = .ok .goesOn := by
    rw [hsame]
    exact congrArg Stepped.result hspared
  refine ⟨hresult, hstopped _ hresult, hasked, hlast, hrun, hspent, ?_⟩
  obtain rfl : more = [.lookup "second", .agent "second" [] [] none] :=
    hmore.symm.trans hspent
  rw [hagain, ← hcalls, hasked]
  rfl

end TaskRouting

import TaskRouting.Proofs.CallTree
import TaskRouting.Proofs.Workflow.Circles
/-!
Terms to which executions keep.

# Terms

`Terms` say which calls may be made, what may stop an execution, and in which
worlds the collaborators may be left. `Terms.Allow` says of two traces and a
result that they are as the terms have it, and `Keeps` says it of an execution
that begins with some trace. Three things are said at once, because they
depend on each other: what is asked next depends on the answers, and those on
the world.

# Sequences

`Keeps` passes from the parts of an execution to the whole.
`Terms.Allow.trans` glues two traces, and `Keeps.bind` is the same for
executions: the second part is looked at only from traces that the first can
leave, in worlds of the right kind. `foldlM_keeps` and `mapM_keeps` are the
inductions on lists that follow, and `consult_keeps` is a single call.

# Tasks

So it is enough to look at a kind of tasks that covers, with each of its
tasks, those that the task can run (`Terms.Cover`). There is one lemma for
each function of an execution, each for executors that keep to the terms on
such tasks: `Prompt.generate_keeps`, with `Conversation.finish_keeps` by
induction on the conversation; `Workflow.step_keeps`, one case for each way in
which a step can end, and `Workflow.drive_keeps` by induction on the bound;
and `Task.perform_keeps` for a layer. By induction on the layers, tasks that
are covered keep to the terms however deep they go and however soon they are
cut short (`Task.execute_keeps`).
-/

namespace TaskRouting

open Execution

variable {σ α β : Type}

/-- What executions may do: the calls that they may make, what may stop them,
and the worlds that they may leave behind. -/
structure Terms (σ : Type) where
  call : Call → Prop
  stop : Stop → Prop
  world : σ → Prop

/-- An execution that has led from one trace to another, with a certain
result, has kept to the terms: its calls, its stop and the world that it
leaves are of the kinds that they name. -/
structure Terms.Allow (terms : Terms σ) (t : Trace σ) (result : Except Stop α)
    (t' : Trace σ) : Prop where
  calls : ∃ more, t'.calls = t.calls ++ more ∧ ∀ call ∈ more, terms.call call
  stops : ∀ stop, result = .error stop → terms.stop stop
  world : terms.world t'.world

/-- Wherever a conversation comes to, it leaves a world of a certain kind
behind, if the tools that are called in it do. -/
def Conversation.Stays (kind : σ → Prop) : Conversation σ → Prop
  | answer _ world => kind world
  | crash _ world => kind world
  | callTool _ _ world resume =>
    kind world ∧ ∀ told world', kind world' → (resume told world').Stays kind

/-- Of worlds of any kind at all there is nothing to say. By induction on the
conversation. -/
theorem Conversation.stays_true (talk : Conversation σ) :
    talk.Stays fun _ => True := by
  induction talk with
  | answer result world => trivial
  | crash why world => trivial
  | callTool name inputs world resume ih =>
    exact ⟨trivial, fun told world' _ => ih told world'⟩

-- =========================================================== sequences

section Allow

variable {terms : Terms σ} {t t' : Trace σ} {result : Except Stop α}

/-- Where no call is made, only the result and the world are left to look
at. -/
theorem Terms.allow_of_calls_eq (hcalls : t'.calls = t.calls)
    (hstops : ∀ stop, result = .error stop → terms.stop stop)
    (hworld : terms.world t'.world) : terms.Allow t result t' := by
  refine ⟨⟨[], ?_, fun call hcall => ?_⟩, hstops, hworld⟩
  · rw [hcalls, List.append_nil]
  · cases hcall

/-- Where one call is made, that call has to be allowed. -/
theorem Terms.allow_of_call {call : Call}
    (hcalls : t'.calls = t.calls ++ [call]) (hcall : terms.call call)
    (hstops : ∀ stop, result = .error stop → terms.stop stop)
    (hworld : terms.world t'.world) : terms.Allow t result t' := by
  refine ⟨⟨[call], hcalls, fun call' hmem => ?_⟩, hstops, hworld⟩
  rw [List.mem_singleton.1 hmem]
  exact hcall

/-- Of a result, only how it stops an execution matters. -/
theorem Terms.Allow.answered {b : β} (h : terms.Allow t result t') :
    terms.Allow t (.ok b : Except Stop β) t' := by
  refine ⟨h.calls, fun stop hstop => ?_, h.world⟩
  cases hstop

/-- What stops an execution stops whatever it is a part of. -/
theorem Terms.Allow.stopped {stop : Stop}
    (h : terms.Allow t (.error stop : Except Stop α) t') :
    terms.Allow t (.error stop : Except Stop β) t' := by
  refine ⟨h.calls, fun stop' hstop => ?_, h.world⟩
  cases hstop
  exact h.stops stop rfl

/-- Standing still is allowed. -/
theorem Terms.allow_refl {a : α} (hworld : terms.world t.world) :
    terms.Allow t (.ok a : Except Stop α) t := by
  refine Terms.allow_of_calls_eq rfl (fun stop h => ?_) hworld
  cases h

/-- What goes on as the terms `Allow` from where they allow it to begin is
allowed as a whole: the calls are those of both parts. -/
theorem Terms.Allow.trans {a : α} {result' : Except Stop β} {t'' : Trace σ}
    (h : terms.Allow t (.ok a : Except Stop α) t')
    (h' : terms.Allow t' result' t'') : terms.Allow t result' t'' := by
  obtain ⟨more, hmore, hcalls⟩ := h.calls
  obtain ⟨more', hmore', hcalls'⟩ := h'.calls
  refine ⟨⟨more ++ more', ?_, fun call hcall => ?_⟩, h'.stops, h'.world⟩
  · rw [hmore', hmore, List.append_assoc]
  · rcases List.mem_append.1 hcall with hbefore | hafter
    · exact hcalls call hbefore
    · exact hcalls' call hafter

end Allow

namespace Execution

/-- The execution keeps to the terms when it begins with a certain trace. -/
def Keeps (terms : Terms σ) (e : Execution σ α) (t : Trace σ) : Prop :=
  terms.Allow t (e t).1 (e t).2

variable {terms : Terms σ} {e : Execution σ α} {t : Trace σ}

theorem Keeps.allow {result : Except Stop α} {t' : Trace σ}
    (h : e.Keeps terms t) (heq : e t = (result, t')) :
    terms.Allow t result t' := by
  unfold Keeps at h
  rw [heq] at h
  exact h

/-- An execution keeps to the terms if they `Allow` what it leads to. -/
theorem keeps_of_allow {result : Except Stop α} {t' : Trace σ}
    (heq : e t = (result, t')) (h : terms.Allow t result t') :
    e.Keeps terms t := by
  unfold Keeps
  rw [heq]
  exact h

theorem keeps_pure {a : α} (hworld : terms.world t.world) :
    (pure a : Execution σ α).Keeps terms t := by
  exact keeps_of_allow rfl (Terms.allow_refl hworld)

/-- An execution that is stopped at once keeps to terms that allow the stop.
It makes no call (`allow_of_calls_eq`). -/
theorem keeps_stop {stop : Stop} (hstop : terms.stop stop)
    (hworld : terms.world t.world) :
    (Execution.stop stop : Execution σ α).Keeps terms t := by
  refine keeps_of_allow rfl (Terms.allow_of_calls_eq rfl ?_ hworld)
  intro stop' h
  cases h
  exact hstop

/-- An execution keeps to the terms if its first part does and, from wherever
that has come to, its second (`Allow.trans`). Where the first part is stopped
the whole is. -/
theorem Keeps.bind {f : α → Execution σ β} (he : e.Keeps terms t)
    (hf : ∀ a t', e t = (.ok a, t') → terms.world t'.world →
      (f a).Keeps terms t') :
    (e >>= f).Keeps terms t := by
  rcases heq : e t with ⟨stop | a, t'⟩
  · have hstopped := he.allow heq
    have hbind : (e >>= f) t = (.error stop, t') := by
      rw [bind_apply, heq]
    exact keeps_of_allow hbind hstopped.stopped
  · have hbefore := he.allow heq
    have hbind : (e >>= f) t = f a t' := by
      rw [bind_apply, heq]
    exact keeps_of_allow hbind (hbefore.trans (hf a t' heq hbefore.world))

/-- Going on at one thing after the other keeps to terms to which going on at
each of them keeps. By induction on the things, from whatever has been
gathered so far. -/
theorem foldlM_keeps {ι : Type} {go : β → ι → Execution σ β} {things : List ι}
    (hgo : ∀ i ∈ things, ∀ b t, terms.world t.world →
      (go b i).Keeps terms t) :
    ∀ {b : β} {t : Trace σ}, terms.world t.world →
      (things.foldlM go b).Keeps terms t := by
  induction things with
  | nil =>
    intro b t hworld
    exact keeps_pure hworld
  | cons first rest ih =>
    intro b t hworld
    rw [List.foldlM_cons]
    refine Keeps.bind (hgo first List.mem_cons_self b t hworld)
      fun b' t' _ hworld' => ?_
    exact ih (fun i hi => hgo i (List.mem_cons_of_mem _ hi)) hworld'

/-- Doing one thing after the other keeps to terms to which doing each of them
keeps. By induction on the things, with `Keeps.bind` for the first of them and
again for its result. -/
theorem mapM_keeps {ι : Type} {go : ι → Execution σ β} {things : List ι}
    (hgo : ∀ i ∈ things, ∀ t, terms.world t.world → (go i).Keeps terms t) :
    ∀ {t : Trace σ}, terms.world t.world →
      (things.mapM go).Keeps terms t := by
  induction things with
  | nil =>
    intro t hworld
    exact keeps_pure hworld
  | cons first rest ih =>
    intro t hworld
    rw [List.mapM_cons]
    refine Keeps.bind (hgo first List.mem_cons_self t hworld)
      fun b t₁ _ hworld₁ => ?_
    refine Keeps.bind
      (ih (fun i hi => hgo i (List.mem_cons_of_mem _ hi)) hworld₁) ?_
    exact fun bs t₂ _ hworld₂ => keeps_pure hworld₂

/-- A call to a collaborator keeps to terms that allow the call, any crash,
and the world after it: the two cases of `consult_apply`. -/
theorem consult_keeps {call : Call} {answer : σ → Except Crash α × σ}
    (hcall : terms.call call) (hcrash : ∀ crash, terms.stop (.crash crash))
    (hworld : terms.world (answer t.world).2) :
    (consult call answer).Keeps terms t := by
  have happly := consult_apply call answer t
  rcases hanswer : answer t.world with ⟨crash | a, world⟩
  all_goals
    rw [hanswer] at happly hworld
    refine keeps_of_allow happly
      (Terms.allow_of_call (Trace.calls_call t call) hcall ?_ hworld)
    intro stop h
    cases h
  exact hcrash crash

/-- What an agent hears of an execution keeps to the terms of it: by `heard`,
faults become answers, and every other stop is the execution's own. -/
theorem Keeps.heard {e : Execution σ Response} (h : e.Keeps terms t) :
    e.heard.Keeps terms t := by
  unfold Keeps Execution.heard
  rcases heq : e t with ⟨(fault | crash | _) | response, t'⟩
  all_goals
    have hallow := h.allow heq
    refine ⟨hallow.calls, fun stop hstop => ?_, hallow.world⟩
    cases hstop
  · exact hallow.stops _ rfl
  · exact hallow.stops _ rfl

end Execution

-- =============================================================== tasks

/-- A kind of tasks that covers with each of its tasks those that the task can
run. What such tasks do by themselves is allowed: to ask agents and to look up
names, to be stopped by anything but an API that cannot be used, and to look
up the APIs that they require. -/
structure Terms.Cover (terms : Terms σ) (c : Collaborators σ)
    (kind : Task → Prop) : Prop where
  stop : ∀ stop, (∀ error, stop ≠ .fault (.api error)) → terms.stop stop
  agent : ∀ agent request world, terms.world world →
    (c.agent agent request world).Stays terms.world
      ∧ ∀ inputs apis tools, terms.call (.agent agent.name inputs apis tools)
  lookup : ∀ name world, terms.world world →
    terms.call (.lookup name) ∧ terms.world (c.lookup name world).2
  config : ∀ task p api world, kind task → task.prompt? = some p →
    api ∈ p.identity.requiredApis → terms.world world →
    terms.call (.config api) ∧ terms.world (c.config api world).2
      ∧ ∀ error, (c.config api world).1 = .ok (.error error) →
        terms.stop (.fault (.api error))
  tool : ∀ task p name tool, kind task → task.prompt? = some p →
    Table.get? (p.toolbox.getD []) name = some tool → kind tool
  subtask : ∀ w name task t t', kind (.workflow w) → name ∈ w.names →
    terms.world t.world → w.find c name t = (.ok (some task), t') → kind task

section Cover

variable {terms : Terms σ} {c : Collaborators σ} {kind : Task → Prop}

/-- Looking up some APIs that a task requires keeps to the terms. A fault is
the registry's own error, of which `Terms.Cover.config` knows. -/
theorem Prompt.resolveApis_keeps (hcover : terms.Cover c kind) {task : Task}
    {p : Prompt Task} (hkind : kind task) (hasks : task.prompt? = some p)
    {apis : List String} {t : Trace σ}
    (hapis : ∀ api ∈ apis, api ∈ p.identity.requiredApis)
    (hworld : terms.world t.world) : (resolveApis c apis).Keeps terms t := by
  refine foldlM_keeps (fun api hapi known t hworld => ?_) hworld
  obtain ⟨hcall, hafter, hfault⟩ :=
    hcover.config task p api t.world hkind hasks (hapis api hapi) hworld
  refine Keeps.bind (consult_keeps hcall (fun crash => ?_) hafter)
    fun answer t' hasked hworld' => ?_
  · exact hcover.stop _ fun error h => by cases h
  · cases answer with
    | ok config => exact keeps_pure hworld'
    | error error =>
      refine keeps_stop (hfault error ?_) hworld'
      obtain ⟨hanswer, -⟩ := answer_of_consult hasked
      exact congrArg Prod.fst hanswer

/-- A conversation keeps to the terms if all tools do that are called in it.
By induction on the conversation, where the tools of the rest are called by
the whole of it (`Calls.later`). -/
theorem Conversation.finish_keeps (hcover : terms.Cover c kind)
    {runTool : Task → Inputs → Execution σ Response}
    {tools : List (String × Task)} {talk : Conversation σ} {t : Trace σ}
    (hstays : talk.Stays terms.world)
    (htools : ∀ tool given begun,
      talk.Calls runTool tools tool given begun t →
      terms.world begun.world → (runTool tool given).Keeps terms begun) :
    (talk.finish runTool tools).Keeps terms t := by
  induction talk generalizing t with
  | answer result world =>
    refine keeps_of_allow rfl (Terms.allow_of_calls_eq rfl ?_ hstays)
    intro stop h
    cases h
  | crash why world =>
    refine keeps_of_allow rfl (Terms.allow_of_calls_eq rfl ?_ hstays)
    intro stop h
    cases h
    exact hcover.stop _ fun error h => by cases h
  | callTool name inputs world resume ih =>
    obtain ⟨hworld, hresume⟩ := hstays
    have hcalled : (hear runTool tools name inputs).Keeps terms
        { t with world } := by
      unfold hear
      cases hknown : Table.get? tools name with
      | none => exact keeps_pure hworld
      | some tool =>
        exact (htools tool inputs _ (.here hknown rfl) hworld).heard
    have hwhole := Keeps.bind
      (f := fun told t => (resume told t.world).finish runTool tools t)
      hcalled fun told t' hheard hworld' =>
        ih told t'.world (hresume told t'.world hworld')
          fun tool given begun hcalls =>
            htools tool given begun (.later hheard hcalls)
    -- The world after the call is where the conversation goes on from, not
    -- where it has begun.
    unfold Keeps
    rw [finish_callTool]
    exact ⟨hwhole.calls, hwhole.stops, hwhole.world⟩

/-- What a prompt generates keeps to the terms: the APIs are looked up
(`resolveApis_keeps`), the agent is asked, and the tools that it calls are
covered with the task (`Conversation.finish_keeps`). -/
theorem Prompt.generate_keeps (hcover : terms.Cover c kind) {task : Task}
    {p : Prompt Task} {runTool : Task → Inputs → Execution σ Response}
    {prepared : Inputs} {t : Trace σ} (hkind : kind task)
    (hasks : task.prompt? = some p) (hworld : terms.world t.world)
    (hrun : ∀ tool given begun, kind tool → terms.world begun.world →
      (runTool tool given).Keeps terms begun) :
    (p.generate c runTool prepared).Keeps terms t := by
  have hresolve := resolveApis_keeps hcover hkind hasks (fun _ h => h) hworld
  rcases hapis : resolveApis c p.identity.requiredApis t
    with ⟨stop | apis, t'⟩
  · exact keeps_of_allow (generate_of_unresolved hapis)
      (hresolve.allow hapis).stopped
  · have hresolved := hresolve.allow hapis
    obtain ⟨hstays, hagent⟩ :=
      hcover.agent p.agent ⟨prepared, apis, p.toolbox⟩ t'.world
        hresolved.world
    have hasked : terms.Allow t' (.ok () : Except Stop Unit)
        (t'.call (.agent p.agent.name prepared apis
          (p.toolbox.map Table.keys))) := by
      refine Terms.allow_of_call (Trace.calls_call t' _)
        (hagent prepared apis _) ?_ hresolved.world
      intro stop h
      cases h
    refine keeps_of_allow (generate_of_resolved hapis)
      ((hresolved.trans hasked).trans ?_)
    refine Keeps.bind (Conversation.finish_keeps hcover hstays ?_)
      fun answer t'' _ hworld' => ?_
    · intro tool given begun hcalls hbegun
      obtain ⟨name, hknown⟩ := hcalls.known
      exact hrun tool given begun
        (hcover.tool task p name tool hkind hasks hknown) hbegun
    · rcases answer with error | (_ | ⟨message, messages⟩)
      all_goals exact keeps_pure hworld'

namespace Workflow

variable {w : Workflow Task}

/-- Finding the task of a name keeps to the terms: at most it is one call of
the lookup (`consult_keeps`). -/
theorem find_keeps (hcover : terms.Cover c kind) {name : String} {t : Trace σ}
    (hworld : terms.world t.world) : (w.find c name).Keeps terms t := by
  unfold find
  cases w.own? name with
  | some task => exact keeps_pure hworld
  | none =>
    obtain ⟨hcall, hafter⟩ := hcover.lookup name t.world hworld
    refine Keeps.bind (consult_keeps hcall (fun crash => ?_) hafter)
      fun answer t' _ hworld' => ?_
    · exact hcover.stop _ fun error h => by cases h
    · cases answer with
      | ok found => exact keeps_pure hworld'
      | error error =>
        exact keeps_stop (hcover.stop _ fun error h => by cases h) hworld'

/-- What a step leads to is allowed, and it leads on to `names` to which the
workflow can get. The second part is what the next step needs to know that its
task is covered. -/
theorem step_keeps (hcover : terms.Cover c kind) {x : Executor σ} {run : Run}
    {t : Trace σ} (hkind : kind (.workflow w))
    (hnamed : ∀ name, run.current = some name → name ∈ w.names)
    (hworld : terms.world t.world)
    (hrun : ∀ context task inputs begun, kind task → terms.world begun.world →
      (x context task inputs).Keeps terms begun) :
    terms.Allow t (w.step c x run t).result (w.step c x run t).trace
      ∧ ∀ name, (w.step c x run t).run.current = some name →
        name ∈ w.names := by
  have hfind : ∀ name result t', w.find c name t = (result, t') →
      terms.Allow t result t' :=
    fun name result t' h => (find_keeps hcover hworld).allow h
  -- A task that a step is ready to run is one that its workflow covers.
  have hready : ∀ name task t', w.Ready c run t name task t' →
      terms.Allow t (.ok (some task) : Except Stop (Option Task)) t'
        ∧ (x run.context task (run.inputsFor task)).Keeps terms t' := by
    intro name task t' ready
    have hfound := hfind name _ t' ready.found
    refine ⟨hfound, hrun _ task _ t' ?_ hfound.world⟩
    exact hcover.subtask w name task t t' hkind (hnamed name ready.current)
      hworld ready.found
  have hcases : w.StepsTo c x run t (w.step c x run t) := step_stepsTo run t
  generalize w.step c x run t = stepped at hcases
  cases hcases with
  | completed current => exact ⟨Terms.allow_refl hworld, hnamed⟩
  | cancelled current cancelled => exact ⟨Terms.allow_refl hworld, hnamed⟩
  | attempts current going spent => exact ⟨Terms.allow_refl hworld, hnamed⟩
  | lookupStopped current going budget stopped =>
    exact ⟨(hfind _ _ _ stopped).stopped, hnamed⟩
  | unresolvable current going budget unknown =>
    exact ⟨(hfind _ _ _ unknown).answered, hnamed⟩
  | refused current going budget found refused =>
    exact ⟨(hfind _ _ _ found).answered, hnamed⟩
  | taskStopped ready stopped =>
    obtain ⟨hfound, hran⟩ := hready _ _ _ ready
    exact ⟨hfound.trans (hran.allow stopped).stopped, hnamed⟩
  | unrouted ready ran unrouted =>
    obtain ⟨hfound, hran⟩ := hready _ _ _ ready
    refine ⟨hfound.trans (hran.allow ran).answered, ?_⟩
    exact hnamed
  | routed ready ran routed =>
    obtain ⟨hfound, hran⟩ := hready _ _ _ ready
    refine ⟨hfound.trans (hran.allow ran).answered, ?_⟩
    exact fun name hnext => mem_names_of_route? routed hnext

/-- A driven run keeps to the terms. By induction on the bound, with the names
of the workflow as the invariant that `step_keeps` preserves. -/
theorem drive_keeps (hcover : terms.Cover c kind) {x : Executor σ}
    (hkind : kind (.workflow w))
    (hrun : ∀ context task inputs begun, kind task → terms.world begun.world →
      (x context task inputs).Keeps terms begun) :
    ∀ {bound : Nat} {run : Run} {t : Trace σ},
      (∀ name, run.current = some name → name ∈ w.names) →
      terms.world t.world →
        (w.drive c x bound run).Keeps terms t := by
  intro bound
  induction bound with
  | zero =>
    intro run t _ hworld
    exact keeps_stop (hcover.stop _ fun error h => by cases h) hworld
  | succ bound ih =>
    intro run t hnamed hworld
    have hstep := step_keeps hcover hkind hnamed hworld hrun
    unfold Keeps drive
    rcases heq : w.step c x run t with ⟨stop | (_ | _ | obstacle), run', t'⟩
    all_goals
      rw [heq] at hstep
      obtain ⟨hallow, hnamed'⟩ := hstep
    · exact hallow.stopped
    · exact hallow.trans (ih hnamed' hallow.world)
    · exact hallow.answered
    · exact hallow.answered

end Workflow

/-- One layer of an execution keeps to the terms if the executions inside it
do. Prompts and checks are one case (`perform_of_prompt?`), and workflows are
driven (`Workflow.drive_keeps`). -/
theorem Task.perform_keeps (hcover : terms.Cover c kind)
    {x : Workflow.Executor σ} {bound : Nat} {context : Context} {task : Task}
    {inputs : Inputs} {t : Trace σ} (hkind : kind task)
    (hworld : terms.world t.world)
    (hrun : ∀ context task inputs begun, kind task → terms.world begun.world →
      (x context task inputs).Keeps terms begun) :
    (perform c x bound context task inputs).Keeps terms t := by
  cases hprepare : task.identity.inputSchema.prepare inputs with
  | error missing =>
    rw [perform_missing hprepare]
    exact keeps_of_allow rfl (Terms.allow_refl hworld)
  | ok prepared =>
    cases hasks : task.prompt? with
    | some p =>
      have haccepts : p.identity.inputSchema.prepare inputs
          = .ok prepared := by
        rw [← hprepare, identity_of_prompt? hasks]
      obtain ⟨conclude, hconclude, hperform⟩ :=
        perform_of_prompt? (c := c) hasks haccepts
      rw [hperform]
      refine Keeps.bind (Prompt.generate_keeps hcover hkind hasks hworld
        fun tool given begun => hrun context tool given begun)
        fun answer t' _ hworld' => ?_
      obtain ⟨response, hresponse⟩ := hconclude answer t'
      exact keeps_of_allow hresponse (Terms.allow_refl hworld')
    | none =>
      cases task with
      | prompt p => cases hasks
      | check k => cases hasks
      | workflow w =>
        rw [perform_workflow hprepare]
        refine Keeps.bind (Workflow.drive_keeps hcover hkind hrun ?_ hworld)
          fun ended t' _ hworld' => ?_
        · intro name hname
          cases hname
          exact Workflow.mem_names_start
        · exact keeps_of_allow rfl (Terms.allow_refl hworld')

/-- Tasks of a kind that covers all that they can run keep to the terms, under
whatever bound they are executed. By induction on the bound, each layer of
which is `Task.perform_keeps`. -/
theorem Task.execute_keeps (hcover : terms.Cover c kind) :
    ∀ {bound : Nat} {context : Context} {task : Task} {inputs : Inputs}
      {t : Trace σ},
      kind task → terms.world t.world →
        (execute c bound context task inputs).Keeps terms t := by
  intro bound
  induction bound with
  | zero =>
    intro context task inputs t _ hworld
    exact keeps_stop (hcover.stop _ fun error h => by cases h) hworld
  | succ bound ih =>
    intro context task inputs t hkind hworld
    exact perform_keeps hcover hkind hworld
      fun context task inputs begun => ih

end Cover

end TaskRouting

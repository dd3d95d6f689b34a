import TaskRouting.Proofs.CallTree
/-!
Executions side by side.

Two companies of collaborators, each with a world of its own, are alike
through a relation between their worlds if they say the same wherever their
worlds are related, and leave them related (`Collaborators.Alike`). An
execution among the one and the same execution among the other then go
abreast: from related worlds they come to the same result and to related
worlds again, and between the two moments they make the same calls
(`Task.execute_abreast`). What had been called before plays no part, for
nobody reads the list of calls.

# The invariant

`Trace.Abreast R made made'` is what is kept: the worlds are related, and the
calls since `made` on the one side are those since `made'` on the other.
`Execution.Abreast` says that an execution keeps it and comes to the same
result. That is closed under everything that executions are built from: values
and stops, sequences (`Abreast.bind`), folds (`foldlM_abreast`) and calls to
collaborators (`consult_abreast`).

# The layers

From there the proof follows the program. A conversation is an induction on
what the agents say (`finish_abreast`), a prompt is its APIs and then a
conversation, a check is a prompt and a verdict, a run is an induction on the
bound over steps (`step_abreast`, `drive_abreast`), and a task is one of these
(`perform_abreast`). `execute_abreast` is the induction on the depth, and
`unbounded_abreast` takes it to executions without a bound.

Refinement through a view is this for a relation that is a function; a run
that is stepped on after a failure is compared with one that has not failed
for another relation.
-/

namespace TaskRouting

open Execution

variable {σ σ' α β : Type}

-- ============================================ companies that are alike

/-- The answers are the same wherever the worlds are related, and leave them
related. -/
def AnswerAlike (R : σ → σ' → Prop) (answer : σ → α × σ)
    (answer' : σ' → α × σ') : Prop :=
  ∀ w w', R w w' → (answer w).1 = (answer' w').1
    ∧ R (answer w).2 (answer' w').2

/-- In both conversations the same is said, in worlds that are related. -/
inductive Conversation.Alike (R : σ → σ' → Prop) :
    Conversation σ → Conversation σ' → Prop where
  | answer (result : Except AgentError (List Message)) {w : σ} {w' : σ'}
      (related : R w w') : Alike R (.answer result w) (.answer result w')
  | crash (why : Crash) {w : σ} {w' : σ'} (related : R w w') :
      Alike R (.crash why w) (.crash why w')
  | callTool {name : String} {inputs : Inputs} {w : σ} {w' : σ'}
      {resume : Except Fault (Option Response) → σ → Conversation σ}
      {resume' : Except Fault (Option Response) → σ' → Conversation σ'}
      (related : R w w')
      (resumes : ∀ told v v', R v v' → Alike R (resume told v)
        (resume' told v')) :
      Alike R (.callTool name inputs w resume)
        (.callTool name inputs w' resume')

/-- Whoever executes tasks hears the same from both companies, wherever their
worlds are related. -/
structure Collaborators.Alike (R : σ → σ' → Prop) (c : Collaborators σ)
    (c' : Collaborators σ') : Prop where
  agent : ∀ agent request w w', R w w' →
    (c.agent agent request w).Alike R (c'.agent agent request w')
  config : ∀ api, AnswerAlike R (c.config api) (c'.config api)
  lookup : ∀ name, AnswerAlike R (c.lookup name) (c'.lookup name)
  cancelled : ∀ w w', R w w' → c.cancelled w = c'.cancelled w'
  clock : ∀ w w', R w w' → c.clock w = c'.clock w'

-- ======================================================= going abreast

/-- The worlds are related, and since two moments at which certain calls had
been made the same calls have been made on both sides. -/
structure Trace.Abreast (R : σ → σ' → Prop) (made made' : List Call)
    (t : Trace σ) (t' : Trace σ') : Prop where
  world : R t.world t'.world
  since : ∃ more, t.made = more ++ made ∧ t'.made = more ++ made'

/-- From traces that are `Trace.Abreast` the executions come to the same
result and to such traces again. -/
def Execution.Abreast (R : σ → σ' → Prop) (made made' : List Call)
    (e : Execution σ α) (e' : Execution σ' α) : Prop :=
  ∀ t t', Trace.Abreast R made made' t t' →
    ∃ result t₁ t₁', e t = (result, t₁) ∧ e' t' = (result, t₁')
      ∧ Trace.Abreast R made made' t₁ t₁'

/-- All tasks are executed abreast. -/
def Workflow.Executor.Abreast (R : σ → σ' → Prop) (made made' : List Call)
    (x : Workflow.Executor σ) (x' : Workflow.Executor σ') : Prop :=
  ∀ context task inputs,
    Execution.Abreast R made made' (x context task inputs)
      (x' context task inputs)

section Sequences

variable {R : σ → σ' → Prop} {made made' : List Call}

/-- From where they are, two traces in related worlds have made the same
calls, which is none. -/
theorem Trace.Abreast.start {t : Trace σ} {t' : Trace σ'}
    (h : R t.world t'.world) : Trace.Abreast R t.made t'.made t t' :=
  ⟨h, [], rfl, rfl⟩

/-- The calls since the two moments come after those before, in the order in
which they were made; `made` lists the latest call first, so they are turned
round. -/
theorem Trace.Abreast.calls {t₀ t : Trace σ} {t₀' t' : Trace σ'}
    (h : Trace.Abreast R t₀.made t₀'.made t t') :
    ∃ more, t.calls = t₀.calls ++ more ∧ t'.calls = t₀'.calls ++ more := by
  obtain ⟨more, hmore, hmore'⟩ := h.since
  refine ⟨more.reverse, ?_, ?_⟩
  · unfold Trace.calls
    rw [hmore, List.reverse_append]
  · unfold Trace.calls
    rw [hmore', List.reverse_append]

/-- The same `Trace.call` on both sides keeps traces abreast. -/
theorem Trace.Abreast.call {t : Trace σ} {t' : Trace σ'}
    (h : Trace.Abreast R made made' t t') (call : Call) :
    Trace.Abreast R made made' (t.call call) (t'.call call) := by
  obtain ⟨more, hmore, hmore'⟩ := h.since
  refine ⟨h.world, call :: more, ?_, ?_⟩
  · simp [Trace.call, hmore]
  · simp [Trace.call, hmore']

/-- A change of both worlds to related ones keeps traces abreast. -/
theorem Trace.Abreast.turn {t : Trace σ} {t' : Trace σ'}
    (h : Trace.Abreast R made made' t t') {w : σ} {w' : σ'}
    (related : R w w') :
    Trace.Abreast R made made' { t with world := w }
      { t' with world := w' } :=
  ⟨related, h.since⟩

namespace Execution

variable {e : Execution σ α} {e' : Execution σ' α}

theorem abreast_pure (a : α) :
    Abreast R made made' (pure a : Execution σ α) (pure a : Execution σ' α) :=
  fun t t' h => ⟨.ok a, t, t', rfl, rfl, h⟩

theorem abreast_stop (stop : Stop) :
    Abreast R made made' (Execution.stop stop : Execution σ α)
      (Execution.stop stop : Execution σ' α) :=
  fun t t' h => ⟨.error stop, t, t', rfl, rfl, h⟩

/-- Sequences go abreast if their parts do: where the first parts have a
value, it is the same one, so the second parts begin with it on both sides
(`bind_apply`). -/
theorem Abreast.bind {f : α → Execution σ β} {f' : α → Execution σ' β}
    (he : e.Abreast R made made' e')
    (hf : ∀ a, (f a).Abreast R made made' (f' a)) :
    (e >>= f).Abreast R made made' (e' >>= f') := by
  intro t t' h
  obtain ⟨stop | a, t₁, t₁', hfirst, hfirst', h₁⟩ := he t t' h
  · refine ⟨.error stop, t₁, t₁', ?_, ?_, h₁⟩
    · rw [bind_apply, hfirst]
    · rw [bind_apply, hfirst']
  · rw [bind_apply, bind_apply, hfirst, hfirst']
    exact hf a t₁ t₁' h₁

/-- A fold goes abreast if each turn of it does, by induction on the things
that are folded, with `Abreast.bind` for each. -/
theorem foldlM_abreast {ι : Type} {go : β → ι → Execution σ β}
    {go' : β → ι → Execution σ' β}
    (hgo : ∀ b i, (go b i).Abreast R made made' (go' b i)) (things : List ι) :
    ∀ b, (things.foldlM go b).Abreast R made made' (things.foldlM go' b) := by
  induction things with
  | nil => exact abreast_pure
  | cons first rest ih =>
    intro b
    rw [List.foldlM_cons, List.foldlM_cons]
    exact (hgo b first).bind ih

/-- A call to collaborators that answer alike goes abreast. It is noted before
the answer is known, so it counts on both sides even if the answer is a
crash. -/
theorem consult_abreast {call : Call} {answer : σ → Except Crash α × σ}
    {answer' : σ' → Except Crash α × σ'}
    (halike : AnswerAlike R answer answer') :
    (consult call answer).Abreast R made made' (consult call answer') := by
  intro t t' h
  obtain ⟨hsame, hrelated⟩ := halike t.world t'.world h.world
  rw [consult_apply, consult_apply]
  rcases hanswer : answer t.world with ⟨result, w⟩
  rcases hanswer' : answer' t'.world with ⟨result', w'⟩
  rw [hanswer, hanswer'] at hsame hrelated
  obtain rfl : result = result' := hsame
  cases result with
  | error why => exact ⟨_, _, _, rfl, rfl, (h.call call).turn hrelated⟩
  | ok a => exact ⟨_, _, _, rfl, rfl, (h.call call).turn hrelated⟩

/-- What is heard of a tool is the same, in particular which of the ways it
can end are told to the agent at all. -/
theorem Abreast.heard {e : Execution σ Response} {e' : Execution σ' Response}
    (he : e.Abreast R made made' e') :
    e.heard.Abreast R made made' e'.heard := by
  intro t t' h
  obtain ⟨result, t₁, t₁', hends, hends', h₁⟩ := he t t' h
  unfold Execution.heard
  rw [hends, hends']
  obtain (fault | why | _) | response := result
  all_goals exact ⟨_, t₁, t₁', rfl, rfl, h₁⟩

end Execution

end Sequences

-- ========================================================== executions

section Executions

variable {R : σ → σ' → Prop} {made made' : List Call} {c : Collaborators σ}
  {c' : Collaborators σ'}

/-- Conversations that are alike come to the same, if the tools are run
abreast. By induction on their likeness, with `finish_callTool` to make a tool
call a sequence of two executions. -/
theorem Conversation.finish_abreast
    {runTool : Task → Inputs → Execution σ Response}
    {runTool' : Task → Inputs → Execution σ' Response}
    (hrun : ∀ tool inputs, (runTool tool inputs).Abreast R made made'
      (runTool' tool inputs))
    (tools : List (String × Task)) {talk : Conversation σ}
    {talk' : Conversation σ'} (h : talk.Alike R talk') :
    (talk.finish runTool tools).Abreast R made made'
      (talk'.finish runTool' tools) := by
  induction h with
  | answer result related =>
    exact fun t t' h => ⟨_, _, _, rfl, rfl, h.turn related⟩
  | crash why related =>
    exact fun t t' h => ⟨_, _, _, rfl, rfl, h.turn related⟩
  | @callTool name inputs w w' resume resume' related _ ih =>
    have hhear : Execution.Abreast R made made'
        (hear runTool tools name inputs)
        (hear runTool' tools name inputs) := by
      unfold hear
      cases Table.get? tools name with
      | none => exact abreast_pure _
      | some tool => exact (hrun tool inputs).heard
    -- How the agent goes on may depend on the worlds that the tool leaves
    -- behind.
    have hgoes : Execution.Abreast R made made'
        (hear runTool tools name inputs >>= fun told t =>
          (resume told t.world).finish runTool tools t)
        (hear runTool' tools name inputs >>= fun told t =>
          (resume' told t.world).finish runTool' tools t) :=
      hhear.bind fun told t t' h => ih told t.world t'.world h.world t t' h
    intro t t' h
    rw [finish_callTool, finish_callTool]
    exact hgoes _ _ (h.turn related)

/-- A response that is made at related moments is the same. -/
theorem now_abreast (halike : c.Alike R c') (respond : Instant → Response) :
    Execution.Abreast R made made' (do return respond (← c.now))
      (do return respond (← c'.now)) := by
  intro t t' h
  refine ⟨.ok (respond (c.clock t.world)), t, t', rfl, ?_, h⟩
  show (Except.ok (respond (c'.clock t'.world)), t') = _
  rw [halike.clock _ _ h.world]

namespace Prompt

/-- The configuration of APIs is a fold of calls, one for each API
(`consult_abreast`). -/
theorem resolveApis_abreast (halike : c.Alike R c') (apis : List String) :
    (resolveApis c apis).Abreast R made made' (resolveApis c' apis) := by
  apply foldlM_abreast
  intro known api
  apply (consult_abreast (halike.config api)).bind
  intro answer
  cases answer with
  | ok config => exact abreast_pure _
  | error error => exact abreast_stop _

/-- A prompt asks an agent that says the same on both sides: its APIs are the
same (`resolveApis_abreast`), and so is the request that opens the
conversation (`Conversation.finish_abreast`). -/
theorem generate_abreast (halike : c.Alike R c')
    {runTool : Task → Inputs → Execution σ Response}
    {runTool' : Task → Inputs → Execution σ' Response}
    (hrun : ∀ tool inputs, (runTool tool inputs).Abreast R made made'
      (runTool' tool inputs))
    (p : Prompt Task) (prepared : Inputs) :
    (p.generate c runTool prepared).Abreast R made made'
      (p.generate c' runTool' prepared) := by
  intro t t' h
  obtain ⟨stop | apis, t₁, t₁', hapis, hapis', h₁⟩ :=
    resolveApis_abreast halike p.identity.requiredApis t t' h
  · rw [generate_of_unresolved hapis, generate_of_unresolved hapis']
    exact ⟨_, t₁, t₁', rfl, rfl, h₁⟩
  · have htalk := Conversation.finish_abreast hrun (p.toolbox.getD [])
      (halike.agent p.agent ⟨prepared, apis, p.toolbox⟩ _ _ h₁.world)
    rw [generate_of_resolved hapis, generate_of_resolved hapis']
    refine htalk.bind (fun answer => ?_) _ _
      (h₁.call (.agent p.agent.name prepared apis (p.toolbox.map Table.keys)))
    rcases answer with error | (_ | ⟨message, messages⟩)
    all_goals exact abreast_pure _

/-- A prompt responds the same, since its response is made of the answer and
of a clock that shows the same on both sides (`now_abreast`). -/
theorem execute_abreast (halike : c.Alike R c')
    {runTool : Task → Inputs → Execution σ Response}
    {runTool' : Task → Inputs → Execution σ' Response}
    (hrun : ∀ tool inputs, (runTool tool inputs).Abreast R made made'
      (runTool' tool inputs))
    (p : Prompt Task) (prepared given : Inputs) :
    (p.execute c runTool prepared given).Abreast R made made'
      (p.execute c' runTool' prepared given) := by
  apply (generate_abreast halike hrun p prepared).bind
  intro answer
  cases answer with
  | ok messages =>
    exact now_abreast halike fun now =>
      .success now p.identity.header given messages
  | error why =>
    exact now_abreast halike fun now =>
      .failure now p.identity.header given failureCode why.message

end Prompt

/-- A check responds the same; its verdict depends on nothing but the
answer. -/
theorem Check.execute_abreast (halike : c.Alike R c')
    {runTool : Task → Inputs → Execution σ Response}
    {runTool' : Task → Inputs → Execution σ' Response}
    (hrun : ∀ tool inputs, (runTool tool inputs).Abreast R made made'
      (runTool' tool inputs))
    (k : Check Task) (prepared given : Inputs) :
    (k.execute c runTool prepared given).Abreast R made made'
      (k.execute c' runTool' prepared given) := by
  apply (Prompt.generate_abreast halike hrun k.prompt prepared).bind
  intro answer
  cases answer with
  | ok messages => exact now_abreast halike _
  | error why => exact now_abreast halike _

namespace Workflow

variable {w : Workflow Task} {x : Executor σ} {x' : Executor σ'}

/-- A name is found on both sides to be the same task, or on neither: the
workflow is the same, and the lookup answers alike. -/
theorem find_abreast (halike : c.Alike R c') (name : String) :
    (w.find c name).Abreast R made made' (w.find c' name) := by
  unfold find
  cases w.own? name with
  | some task => exact abreast_pure _
  | none =>
    apply (consult_abreast (halike.lookup name)).bind
    intro answer
    cases answer with
    | ok found => exact abreast_pure _
    | error error => exact abreast_stop _

/-- The steps come to the same, and leave the same run on traces that are
`Trace.Abreast`. -/
def Stepped.Abreast (R : σ → σ' → Prop) (made made' : List Call)
    (s : Stepped σ) (s' : Stepped σ') : Prop :=
  s.result = s'.result ∧ s.run = s'.run
    ∧ Trace.Abreast R made made' s.trace s'.trace

/-- A step comes to the same on both sides. Here `step` itself is opened,
check by check, as there is no list of cases for two steps at once; each check
sees the same run, and worlds that agree about the wish to stop. -/
theorem step_abreast (halike : c.Alike R c') (hx : x.Abreast R made made' x')
    (run : Run) {t : Trace σ} {t' : Trace σ'}
    (h : Trace.Abreast R made made' t t') :
    (w.step c x run t).Abreast R made made' (w.step c' x' run t') := by
  have hcancelled : run.context.isCancelled c t.world
      = run.context.isCancelled c' t'.world := by
    unfold Context.isCancelled
    rw [halike.cancelled _ _ h.world]
  unfold step
  cases run.current with
  | none => exact ⟨rfl, rfl, h⟩
  | some name =>
    dsimp only
    rw [hcancelled]
    split
    · exact ⟨rfl, rfl, h⟩
    split
    · exact ⟨rfl, rfl, h⟩
    obtain ⟨stop | (_ | task), t₁, t₁', hfound, hfound', h₁⟩ :=
      find_abreast (w := w) halike name t t' h
    all_goals rw [hfound, hfound']
    · exact ⟨rfl, rfl, h₁⟩
    · exact ⟨rfl, rfl, h₁⟩
    dsimp only
    -- Whether a task is refused depends on the context of the run alone,
    -- which is the same on both sides.
    cases refusal? run.context task with
    | some obstacle => exact ⟨rfl, rfl, h₁⟩
    | none =>
      dsimp only
      obtain ⟨stop | response, t₂, t₂', hran, hran', h₂⟩ :=
        hx run.context task (task.identity.inputSchema.select run.environment)
          t₁ t₁' h₁
      all_goals
        rw [hran, hran']
        exact ⟨rfl, rfl, h₂⟩

/-- A run is driven to the same end: by induction on the bound, step by step
(`step_abreast`). -/
theorem drive_abreast (halike : c.Alike R c') (hx : x.Abreast R made made' x')
    (bound : Nat) (run : Run) :
    (w.drive c x bound run).Abreast R made made'
      (w.drive c' x' bound run) := by
  induction bound generalizing run with
  | zero => exact abreast_stop _
  | succ bound ih =>
    intro t t' h
    have hstep := step_abreast (w := w) halike hx run h
    unfold drive
    rcases hends : w.step c x run t with ⟨result, run₁, t₁⟩
    rcases hends' : w.step c' x' run t' with ⟨result', run₁', t₁'⟩
    rw [hends, hends'] at hstep
    obtain ⟨rfl, rfl, h₁⟩ := hstep
    rcases result with stop | (_ | _ | obstacle)
    · exact ⟨_, t₁, t₁', rfl, rfl, h₁⟩
    · exact ih run₁ t₁ t₁' h₁
    · exact ⟨_, t₁, t₁', rfl, rfl, h₁⟩
    · exact ⟨_, t₁, t₁', rfl, rfl, h₁⟩

end Workflow

namespace Task

/-- One layer of an execution goes abreast, if the executions inside it do.
One case for each kind of task, and one for inputs that are missing
(`now_abreast`). -/
theorem perform_abreast (halike : c.Alike R c') {x : Workflow.Executor σ}
    {x' : Workflow.Executor σ'} (hx : x.Abreast R made made' x')
    (bound : Nat) :
    Workflow.Executor.Abreast R made made' (perform c x bound)
      (perform c' x' bound) := by
  intro context task inputs
  cases hprepare : task.identity.inputSchema.prepare inputs with
  | error missing =>
    rw [perform_missing hprepare, perform_missing hprepare]
    exact now_abreast halike _
  | ok prepared =>
    cases task with
    | prompt p =>
      rw [perform_prompt hprepare, perform_prompt hprepare]
      exact p.execute_abreast halike (hx context) prepared inputs
    | check k =>
      rw [perform_check hprepare, perform_check hprepare]
      exact k.execute_abreast halike (hx context) prepared inputs
    | workflow w =>
      rw [perform_workflow hprepare, perform_workflow hprepare]
      apply (Workflow.drive_abreast halike hx bound _).bind
      intro ended
      exact now_abreast halike _

/-- Among collaborators that are alike, tasks are executed abreast, by
induction on how deep tasks may nest (`perform_abreast`). -/
theorem execute_abreast (halike : c.Alike R c') :
    ∀ n, Workflow.Executor.Abreast R made made' (execute c n) (execute c' n)
  | 0 => fun _ _ _ => abreast_stop _
  | n + 1 => perform_abreast halike (execute_abreast halike n) n

/-- They are so without a bound, too: either both executions end, or neither
of them does. For each bound, one settles exactly if the other one does
(`hboth`), so the bound that decides about the one decides about the other. -/
theorem unbounded_abreast (halike : c.Alike R c') :
    Workflow.Executor.Abreast R made made' (unbounded c) (unbounded c') := by
  intro context task inputs t t' h
  have hboth : ∀ n, (execute c n context task inputs).Settles t
      ↔ (execute c' n context task inputs).Settles t' := by
    intro n
    obtain ⟨result, t₁, t₁', hends, hends', -⟩ :=
      execute_abreast halike n context task inputs t t' h
    unfold Settles
    rw [hends, hends']
  by_cases hsettles : (unbounded c context task inputs).Settles t
  · obtain ⟨n, hn⟩ := unbounded_settles_iff.1 hsettles
    rw [unbounded_eq hn, unbounded_eq ((hboth n).1 hn)]
    exact execute_abreast halike n context task inputs t t' h
  · have hsettles' : ¬ (unbounded c' context task inputs).Settles t' := by
      rw [unbounded_settles_iff] at hsettles ⊢
      simpa only [hboth] using hsettles
    rw [unbounded_of_endless hsettles, unbounded_of_endless hsettles']
    exact ⟨_, t, t', rfl, rfl, h⟩

end Task

end Executions

end TaskRouting

import TaskRouting.Proofs.ResponseTree
import TaskRouting.Proofs.Terms
import TaskRouting.Proofs.WellFormedDeed
/-!
What is written down of an execution, and what its response keeps.

# Two trees that are the same

The response of an execution is a tree, and so is the execution: a workflow
runs sub-tasks, and those run more. Whoever watches an execution
(`Task.watched`) writes down the nodes of its response, one after the other,
each with the task that has given it. Where agents call no tools, none of them
is asked but for one of these nodes.

`Chronicles` says what has been written down between two traces and who has
been asked meanwhile; `Recounts` says that the deeds written down are the
nodes of certain responses, each of which some layer has performed. Both are
glued along the traces (`Chronicles.trans`, `Recounts.trans`), and
`recounts_of_leaf` and `Recounts.concat` are the two ways in which a task is
written down: alone, or after its history.

# From a layer to an execution

One layer of an execution adds at most one note (`Task.of_watched`), so what
is shown for a whole execution is shown for a layer first.

- A prompt or a check asks its agent and nobody else: the lookup of APIs is
  silent (`Prompt.resolveApis_silent`), and a conversation without tools only
  leaves its world behind (`Conversation.finish_of_plain`).
- A workflow recounts its legs, by induction on the walk
  (`Workflow.Walks.recounts`), and then itself (`Task.watched_of_workflow`).

By induction on the layers, whoever watches recounts the response
(`Task.watched_recounts`). Watching changes nothing (`watched_mirrors`), so
the same holds of the execution that nobody watches: `Task.execute_recounts`,
which is what the theorems on histories, well-formed nodes and usage begin
with.
-/

namespace TaskRouting

open Execution

variable {σ α : Type}

-- ======================================================== who is asked

/-- The agent that is asked by a call, and the inputs that it is given. -/
def Call.asked? : Call → Option (String × Inputs)
  | agent name inputs _ _ => some (name, inputs)
  | _ => none

/-- The agents that have been asked, in time order, each with the inputs that
it was given: what `Call.asked?` makes of the calls. -/
def Trace.asked (t : Trace σ) : List (String × Inputs) :=
  t.calls.filterMap Call.asked?

/-- The agent that a task should have asked, and the inputs that it should
have given it: those that are shown in the response, with their defaults
filled in. A task whose inputs are refused should have asked nobody, and nor
should a workflow. -/
def Deed.asked? (d : Deed) : Option (String × Inputs) :=
  match d.task.prompt? with
  | none => none
  | some p =>
    match p.identity.inputSchema.prepare d.response.inputs with
    | .error _ => none
    | .ok prepared => some (p.agent.name, prepared)

/-- The agent answers, or breaks off, without calling a tool. -/
def Conversation.Plain : Conversation σ → Prop
  | answer _ _ => True
  | crash _ _ => True
  | callTool .. => False

/-- No agent calls tools: every conversation is `Plain`. -/
def Collaborators.ToolFree (c : Collaborators σ) : Prop :=
  ∀ agent request world, (c.agent agent request world).Plain

/-- What has been asked by a longer trace is what had been asked before, and
what the calls in between have asked. -/
theorem Trace.asked_of_calls {t t' : Trace σ} {more : List Call}
    (h : t'.calls = t.calls ++ more) :
    t'.asked = t.asked ++ more.filterMap Call.asked? := by
  unfold asked
  rw [h, List.filterMap_append]

/-- A conversation without tools does nothing but leave its world behind. It
is over at once, one case for each way. -/
theorem Conversation.finish_of_plain
    {runTool : Task → Inputs → Execution (σ × List Deed) Response}
    {tools : List (String × Task)} {talk : Conversation σ}
    (hplain : talk.Plain) {deeds : List Deed} {t t' : Trace (σ × List Deed)}
    {result : Except Stop _}
    (h : (talk.beside deeds).finish runTool tools t = (result, t')) :
    t'.asked = t.asked ∧ t'.world.2 = deeds := by
  cases talk with
  | answer answered world =>
    cases h
    exact ⟨rfl, rfl⟩
  | crash why world =>
    cases h
    exact ⟨rfl, rfl⟩
  | callTool name inputs world resume => cases hplain

/-- Terms on which nobody is asked and nothing is written down. -/
def Terms.silent (deeds : List Deed) : Terms (σ × List Deed) where
  call call := call.asked? = none
  stop _ := True
  world w := w.2 = deeds

/-- An execution on `silent` terms asks no agent and leaves the notes as they
are. -/
theorem Execution.Keeps.silent {e : Execution (σ × List Deed) α}
    {t t' : Trace (σ × List Deed)} {result : Except Stop α}
    (h : e.Keeps (.silent t.world.2) t) (heq : e t = (result, t')) :
    t'.asked = t.asked ∧ t'.world.2 = t.world.2 := by
  obtain ⟨⟨more, hmore, hsilent⟩, -, hworld⟩ := h.allow heq
  refine ⟨?_, hworld⟩
  rw [Trace.asked_of_calls hmore, List.filterMap_eq_nil_iff.2 hsilent,
    List.append_nil]

/-- Looking up APIs asks no agent. By `foldlM_keeps`, with one consultation of
the registry for each of them. -/
theorem Prompt.resolveApis_silent {c : Collaborators σ} {apis : List String}
    {t : Trace (σ × List Deed)} :
    (resolveApis c.watched apis).Keeps (.silent t.world.2) t := by
  refine foldlM_keeps (fun api _ known t' hworld => ?_) rfl
  have hconfig : (c.watched.config api t'.world).2.2 = t.world.2 :=
    (noting_nil _ _).trans hworld
  refine Keeps.bind (consult_keeps rfl (fun _ => trivial) hconfig)
    fun answer t'' _ hworld => ?_
  cases answer with
  | ok config => exact keeps_pure hworld
  | error error => exact keeps_stop trivial hworld

-- ========================================================== chronicles

/-- A layer of an execution, by `Task.perform`, has responded so. -/
def Deed.Performed (c : Collaborators σ) (d : Deed) : Prop :=
  ∃ (x : Workflow.Executor σ) (bound : Nat) (context : Context)
    (t t' : Trace σ), Task.perform c x bound context d.task d.inputs t
    = (.ok d.response, t')

/-- What a layer has responded is well formed for its task
(`Task.perform_wellFormed`). -/
theorem Deed.Performed.wellFormed {c : Collaborators σ} {d : Deed}
    (h : d.Performed c) : d.WellFormed := by
  obtain ⟨x, bound, context, t, t', hperform⟩ := h
  exact Task.perform_wellFormed hperform

variable (c : Collaborators σ)

/-- What has been written down between two traces. Where agents call no tools,
nobody has been asked but for these tasks, as `Deed.asked?` tells. -/
structure Chronicles (t t' : Trace (σ × List Deed))
    (deeds : List Deed) : Prop where
  noted : t'.world.2 = t.world.2 ++ deeds
  asked : c.ToolFree → t'.asked = t.asked ++ deeds.filterMap Deed.asked?

/-- What has been written down between two traces are the `nodes` of some
responses. -/
def Recounts (t t' : Trace (σ × List Deed)) (responses : List Response) :
    Prop :=
  ∃ deeds, Chronicles c t t' deeds
    ∧ deeds.map Deed.response = responses.flatMap Response.nodes
    ∧ ∀ d ∈ deeds, d.Performed c.watched

/-- Whenever a task responds, the nodes of its response have been written
down. -/
def Workflow.Executor.Recounts (x : Workflow.Executor (σ × List Deed)) :
    Prop :=
  ∀ context task inputs t r t', x context task inputs t = (.ok r, t') →
    TaskRouting.Recounts c t t' [r]

variable {c} {t t' t'' : Trace (σ × List Deed)}

/-- Where nobody is asked and nothing noted, nothing is written down. -/
theorem chronicles_of_silent (hasked : t'.asked = t.asked)
    (hnoted : t'.world.2 = t.world.2) : Chronicles c t t' [] := by
  constructor
  · rw [hnoted, List.append_nil]
  · intro _
    rw [hasked, List.filterMap_nil, List.append_nil]

/-- What is written down from one trace to a second and on to a third follows
each other. -/
theorem Chronicles.trans {deeds deeds' : List Deed}
    (h : Chronicles c t t' deeds) (h' : Chronicles c t' t'' deeds') :
    Chronicles c t t'' (deeds ++ deeds') := by
  constructor
  · rw [h'.noted, h.noted, List.append_assoc]
  · intro hfree
    rw [h'.asked hfree, h.asked hfree, List.filterMap_append,
      List.append_assoc]

theorem recounts_of_silent (h : Chronicles c t t' []) : Recounts c t t' [] :=
  ⟨[], h, rfl, fun _ hd => nomatch hd⟩

/-- Responses that are recounted one after the other are recounted
together. -/
theorem Recounts.trans {responses responses' : List Response}
    (h : Recounts c t t' responses) (h' : Recounts c t' t'' responses') :
    Recounts c t t'' (responses ++ responses') := by
  obtain ⟨deeds, hdeeds, hnodes, hperformed⟩ := h
  obtain ⟨deeds', hdeeds', hnodes', hperformed'⟩ := h'
  refine ⟨deeds ++ deeds', hdeeds.trans hdeeds', ?_, fun d hd => ?_⟩
  · rw [List.map_append, hnodes, hnodes', List.flatMap_append]
  · rcases List.mem_append.1 hd with hd | hd
    · exact hperformed d hd
    · exact hperformed' d hd

/-- A task without a history is written down alone, being its only node
(`nodes_of_leaf`). -/
theorem recounts_of_leaf {d : Deed} (hlast : Chronicles c t t' [d])
    (hperformed : d.Performed c.watched) (hleaf : d.response.history = none) :
    Recounts c t t' [d.response] := by
  refine ⟨[d], hlast, ?_, fun d' hd' => ?_⟩
  · rw [List.flatMap_singleton, Response.nodes_of_leaf hleaf]
    rfl
  · rw [List.mem_singleton.1 hd']
    exact hperformed

/-- A task with a history is written down after all of that, where its nodes
end (`nodes_of_history`). -/
theorem Recounts.concat {d : Deed} {history : List Response}
    (h : Recounts c t t' history) (hlast : Chronicles c t' t'' [d])
    (hperformed : d.Performed c.watched)
    (hhistory : d.response.history = some history) :
    Recounts c t t'' [d.response] := by
  obtain ⟨deeds, hdeeds, hnodes, hinside⟩ := h
  refine ⟨deeds ++ [d], hdeeds.trans hlast, ?_, fun d' hd' => ?_⟩
  · rw [List.map_append, hnodes, List.flatMap_singleton,
      Response.nodes_of_history hhistory]
    rfl
  · rcases List.mem_append.1 hd' with hd' | hd'
    · exact hinside d' hd'
    · rw [List.mem_singleton.1 hd']
      exact hperformed

-- =========================================================== workflows

section Walks

open Workflow

variable {w : Workflow Task} {x : Workflow.Executor (σ × List Deed)}
  {context : Context}

/-- A lookup asks nobody, and nothing is written down: it is one call
(`answer_of_consult`), and not one of an agent. -/
theorem Collaborators.lookUp_chronicles {name : String}
    {found : Except LookupError (Option Task)}
    (h : c.watched.lookUp name t = (.ok found, t')) :
    Chronicles c t t' [] := by
  obtain ⟨hanswer, hcalls⟩ := answer_of_consult h
  have hworld : (c.watched.lookup name t.world).2 = t'.world :=
    congrArg Prod.snd hanswer
  refine chronicles_of_silent ?_ (hworld ▸ noting_nil _ _)
  rw [Trace.asked_of_calls hcalls]
  exact List.append_nil _

/-- To find the task of a name nothing is written down. -/
theorem Workflow.Finds.chronicles {name : String} {task : Task}
    (h : w.Finds c.watched name t task t') : Chronicles c t t' [] := by
  cases h with
  | own _ => exact chronicles_of_silent rfl rfl
  | looked _ answered => exact Collaborators.lookUp_chronicles answered

/-- What stops a walk writes nothing down: it is found out at once, or by a
lookup (`lookUp_chronicles`). -/
theorem Workflow.Halts.chronicles {legs : List Leg} {obstacle : Obstacle}
    (h : w.Halts c.watched context legs t obstacle t') :
    Chronicles c t t' [] := by
  cases h with
  | noRoute _ _ => exact chronicles_of_silent rfl rfl
  | ahead _ meets =>
    cases meets with
    | cancelled _ => exact chronicles_of_silent rfl rfl
    | attempts _ _ => exact chronicles_of_silent rfl rfl
    | unresolvable _ _ unknown =>
      exact Collaborators.lookUp_chronicles unknown
    | recursion _ found _ _ => exact found.chronicles
    | depth _ found _ _ => exact found.chronicles

/-- On a walk, the nodes of all responses to it are written down, leg by leg.
By induction on the walk; a leg is a search, which is silent
(`Finds.chronicles`), and then a task, which the executor recounts. -/
theorem Workflow.Walks.recounts (hx : x.Recounts c)
    {inputs environment : Inputs} {legs : List Leg}
    (h : w.Walks c.watched x context inputs t legs environment t') :
    Recounts c t t' (legs.map Leg.response) := by
  induction h with
  | start => exact recounts_of_silent (chronicles_of_silent rfl rfl)
  | leg _ _ _ found _ ran ih =>
    rw [List.map_append]
    have hfound := recounts_of_silent found.chronicles
    exact ih.trans (hfound.trans (hx _ _ _ _ _ _ ran))

/-- The history of a workflow is what is written down while it is executed.
The walk that `walks_of_drive` reads off the run has the history for its legs,
and what stops it is silent. -/
theorem Workflow.execute_recounts (hx : x.Recounts c) {bound : Nat}
    {prepared given : Inputs} {r : Response}
    (h : w.execute c.watched x bound context prepared given t = (.ok r, t')) :
    ∃ history, r.history = some history ∧ Recounts c t t' history := by
  obtain ⟨outcome, run, hdrive, rfl⟩ := of_execute_ok h
  obtain ⟨legs, environment, tₗ, hwalks, hhistory, hends⟩ :=
    walks_of_drive hdrive
  refine ⟨run.history, history_finish, ?_⟩
  rw [hhistory]
  have hwalked := hwalks.recounts hx
  -- The walk arrives, or something stops it that is found out without a note.
  rcases hends with ⟨-, -, rfl⟩ | ⟨obstacle, -, -, hhalts⟩
  · exact hwalked
  · have hboth := hwalked.trans (recounts_of_silent hhalts.chronicles)
    rw [List.append_nil] at hboth
    exact hboth

end Walks

-- ================================================== prompts and checks

/-- Where agents call no tools, a prompt asks its agent and nobody else: its
APIs are resolved in silence (`resolveApis_silent`), and the conversation is
over at once (`Conversation.finish_of_plain`). -/
theorem Prompt.generate_asks (hfree : c.ToolFree)
    {runTool : Task → Inputs → Execution (σ × List Deed) Response}
    {p : Prompt Task} {prepared : Inputs}
    {answer : Except Silence (List Message)}
    (h : p.generate c.watched runTool prepared t = (.ok answer, t')) :
    t'.asked = t.asked ++ [(p.agent.name, prepared)]
      ∧ t'.world.2 = t.world.2 := by
  obtain ⟨⟨apis, t₁, answered, hapis, htalk⟩, -⟩ := of_generate_ok h
  obtain ⟨hasked, hnoted⟩ := resolveApis_silent.silent hapis
  obtain ⟨hasked', hnoted'⟩ :=
    Conversation.finish_of_plain (hfree _ _ _) htalk
  refine ⟨?_, hnoted'.trans hnoted⟩
  rw [hasked', Trace.asked_of_calls (Trace.calls_call _ _), hasked]
  rfl

/-- A task whose inputs are refused should have asked nobody. -/
theorem Deed.asked?_of_refused {d : Deed} {p : Prompt Task}
    {missing : List String} (hasks : d.task.prompt? = some p)
    (hprepare : p.identity.inputSchema.prepare d.response.inputs
      = .error missing) :
    d.asked? = none := by
  unfold asked?
  rw [hasks]
  dsimp only
  rw [hprepare]

theorem Deed.asked?_of_accepted {d : Deed} {p : Prompt Task}
    {prepared : Inputs} (hasks : d.task.prompt? = some p)
    (hprepare : p.identity.inputSchema.prepare d.response.inputs
      = .ok prepared) :
    d.asked? = some (p.agent.name, prepared) := by
  unfold asked?
  rw [hasks]
  dsimp only
  rw [hprepare]

theorem Deed.asked?_of_workflow {d : Deed} (h : d.task.prompt? = none) :
    d.asked? = none := by
  unfold asked?
  rw [h]

/-- Where agents call no tools, a task that asks an agent asks the one that
its response tells of. The response shows the inputs as they were given
(`perform_wellFormed`), so preparing them again tells what the agent was
given. -/
theorem Task.perform_asks (hfree : c.ToolFree)
    {x : Workflow.Executor (σ × List Deed)} {bound : Nat} {context : Context}
    {task : Task} {inputs : Inputs} {r : Response} {p : Prompt Task}
    (hasks : task.prompt? = some p)
    (h : perform c.watched x bound context task inputs t = (.ok r, t')) :
    t'.asked = t.asked ++ (Deed.asked? ⟨task, inputs, r⟩).toList
      ∧ t'.world.2 = t.world.2 := by
  have hshown : r.inputs = inputs := (perform_wellFormed h).signed.inputs
  cases hprepare : task.identity.inputSchema.prepare inputs with
  | error missing =>
    have hrefuses : p.identity.inputSchema.prepare r.inputs
        = .error missing := by
      rw [hshown, ← hprepare, identity_of_prompt? hasks]
    have hrefused : Deed.asked? ⟨task, inputs, r⟩ = none :=
      Deed.asked?_of_refused hasks hrefuses
    rw [perform_missing hprepare] at h
    cases h
    rw [hrefused]
    exact ⟨(List.append_nil _).symm, rfl⟩
  | ok prepared =>
    have haccepts : p.identity.inputSchema.prepare inputs = .ok prepared := by
      rw [← hprepare, identity_of_prompt? hasks]
    have hasked : Deed.asked? ⟨task, inputs, r⟩
        = some (p.agent.name, prepared) :=
      Deed.asked?_of_accepted hasks (hshown ▸ haccepts)
    obtain ⟨conclude, hconclude, hperform⟩ :=
      perform_of_prompt? (c := c.watched) hasks haccepts
    rw [hperform] at h
    obtain ⟨answer, t₁, hanswer, hends⟩ := ok_of_bind h
    obtain ⟨response, hsame⟩ := hconclude answer t₁
    cases hsame.symm.trans hends
    rw [hasked]
    exact p.generate_asks hfree hanswer

-- ================================================ what is written down

/-- A response that is `noted` is one of the execution itself, and the note
comes last. -/
theorem Execution.of_noted {e : Execution (σ × List Deed) Response}
    {task : Task} {inputs : Inputs} {r : Response}
    (h : e.noted task inputs t = (.ok r, t')) :
    ∃ t₁, e t = (.ok r, t₁) ∧ t'.asked = t₁.asked
      ∧ t'.world.2 = t₁.world.2 ++ [⟨task, inputs, r⟩] := by
  unfold Execution.noted at h
  rcases hends : e t with ⟨stop | response, t₁⟩
  · rw [hends] at h
    cases h
  · rw [hends] at h
    cases h
    exact ⟨t₁, rfl, rfl, rfl⟩

/-- An execution that is put `aside` asks whom it asks otherwise. -/
theorem Execution.of_aside {e : Execution (σ × List Deed) α}
    {result : Except Stop α} (h : e.aside t = (result, t')) :
    ∃ t₁, e t = (result, t₁) ∧ t'.asked = t₁.asked
      ∧ t'.world.2 = t.world.2 := by
  unfold Execution.aside at h
  rcases hends : e t with ⟨result', t₁⟩
  rw [hends] at h
  cases h
  exact ⟨t₁, rfl, rfl, rfl⟩

/-- What is watched of an execution: one layer of it by `perform`, and then
the response, of which a note is made. The notes on what an agent does may
have been put aside. -/
theorem Task.of_watched {closely : Bool} {n : Nat} {context : Context}
    {task : Task} {inputs : Inputs} {r : Response}
    (h : watched c closely (n + 1) context task inputs t = (.ok r, t')) :
    ∃ t₁, perform c.watched (watched c closely n) n context task inputs t
      = (.ok r, t₁)
      ∧ t'.asked = t₁.asked
      ∧ t'.world.2 = (if task.prompt?.isSome && !closely then t.world.2
        else t₁.world.2)
          ++ [⟨task, inputs, r⟩] := by
  obtain ⟨t₂, hends, hasked, hnoted⟩ := of_noted h
  split at hends
  next haside =>
    obtain ⟨t₁, hperform, hasked', hnoted'⟩ := of_aside hends
    refine ⟨t₁, hperform, hasked.trans hasked', ?_⟩
    rw [if_pos haside, hnoted, hnoted']
  next haside =>
    refine ⟨t₂, hends, hasked, ?_⟩
    rw [if_neg haside, hnoted]

/-- The note on a task that asks an agent is the only one: either the notes of
its layer have been put aside, or there are none because no tools are called
(`perform_asks`). -/
theorem Task.watched_of_asks {closely : Bool}
    (hclosely : closely = true → c.ToolFree) {n : Nat} {context : Context}
    {task : Task} {inputs : Inputs} {r : Response} {p : Prompt Task}
    (hasks : task.prompt? = some p)
    (h : watched c closely (n + 1) context task inputs t = (.ok r, t')) :
    Recounts c t t' [r] := by
  obtain ⟨t₁, hperform, hasked, hnoted⟩ := of_watched h
  -- Only workflows have a history.
  have halone : r.history = none :=
    (perform_wellFormed hperform).history_eq_none hasks
  have hlast : Chronicles c t t' [⟨task, inputs, r⟩] := by
    constructor
    · rw [hnoted, hasks]
      cases closely with
      | true =>
        show t₁.world.2 ++ [_] = t.world.2 ++ [_]
        rw [(perform_asks (hclosely rfl) hasks hperform).2]
      | false => rfl
    · intro hfree
      rw [hasked, (perform_asks hfree hasks hperform).1,
        List.filterMap_eq_flatMap_toList, List.flatMap_singleton]
  exact recounts_of_leaf hlast ⟨_, n, context, t, t₁, hperform⟩ halone

/-- A workflow is written down after what it has run
(`Workflow.execute_recounts`). One that refuses its inputs has run nothing,
and is a leaf like a prompt (`recounts_of_leaf`). -/
theorem Task.watched_of_workflow {closely : Bool} {n : Nat}
    {context : Context} {w : Workflow Task} {inputs : Inputs} {r : Response}
    (hinner : (watched c closely n).Recounts c)
    (h : watched c closely (n + 1) context (.workflow w) inputs t
      = (.ok r, t')) :
    Recounts c t t' [r] := by
  obtain ⟨t₁, hperform, hasked, hnoted⟩ := of_watched h
  have hlast : Chronicles c t₁ t' [⟨.workflow w, inputs, r⟩] := by
    refine ⟨hnoted, fun _ => ?_⟩
    rw [hasked, List.filterMap_cons_none (Deed.asked?_of_workflow rfl),
      List.filterMap_nil, List.append_nil]
  have hperformed : Deed.Performed c.watched ⟨.workflow w, inputs, r⟩ :=
    ⟨_, n, context, t, t₁, hperform⟩
  cases hprepare : w.identity.inputSchema.prepare inputs with
  | error missing =>
    have hrefused : (workflow w).identity.inputSchema.prepare inputs
        = .error missing := hprepare
    rw [perform_missing hrefused] at hperform
    cases hperform
    exact recounts_of_leaf hlast hperformed rfl
  | ok prepared =>
    rw [perform_workflow hprepare] at hperform
    obtain ⟨history, hhistory, hinside⟩ :=
      Workflow.execute_recounts hinner hperform
    exact hinside.concat hlast hperformed hhistory

/-- Whoever watches an execution writes down the nodes of its response. It may
be watched `closely` where agents call no tools, since then there is nothing
more to be seen. By induction on the layers, for all tasks at once. -/
theorem Task.watched_recounts {closely : Bool}
    (hclosely : closely = true → c.ToolFree) :
    ∀ n, (watched c closely n).Recounts c := by
  intro n
  induction n with
  | zero =>
    intro context task inputs t r t' h
    cases h
  | succ n ih =>
    intro context task inputs t r t' h
    cases task with
    | prompt p => exact watched_of_asks hclosely rfl h
    | check k => exact watched_of_asks hclosely rfl h
    | workflow w => exact watched_of_workflow ih h

/-- The response of an execution keeps what is written down by somebody who
watches it. The watched execution mirrors the given one (`watched_mirrors`),
so `watched_recounts` speaks of the same response; the last deed is the root
because the note on it comes after all others. -/
theorem Task.execute_recounts {closely : Bool}
    (hclosely : closely = true → c.ToolFree) {n : Nat} {context : Context}
    {task : Task} {inputs : Inputs} {t t' : Trace σ} {r : Response}
    (h : execute c n context task inputs t = (.ok r, t')) :
    ∃ deeds,
      watched c closely n context task inputs (t.beside [])
        = (.ok r, t'.beside deeds)
      ∧ deeds.map Deed.response = r.nodes
      ∧ deeds.getLast? = some ⟨task, inputs, r⟩
      ∧ (∀ d ∈ deeds, d.Performed c.watched)
      ∧ (c.ToolFree → t'.asked = t.asked ++ deeds.filterMap Deed.asked?) := by
  have hmirrors : (watched c closely n).Mirrors (execute c n) :=
    watched_mirrors n
  obtain ⟨deeds, hwatched⟩ := hmirrors context task inputs t []
  rw [h] at hwatched
  obtain ⟨deeds', hdeeds, hnodes, hperformed⟩ :=
    watched_recounts hclosely n _ _ _ _ _ _ hwatched
  have hsame : deeds = deeds' := hdeeds.noted
  subst hsame
  refine ⟨deeds, hwatched, ?_, ?_, hperformed, hdeeds.asked⟩
  · rw [hnodes, List.flatMap_singleton]
  · -- Without a layer left there is no response, so the last note is that of
    -- a layer.
    cases n with
    | zero => cases h
    | succ n =>
      obtain ⟨t₁, -, -, hnoted⟩ := of_watched hwatched
      have hlast : deeds = _ ++ [⟨task, inputs, r⟩] := hnoted
      rw [hlast]
      exact List.getLast?_concat

end TaskRouting

import TaskRouting.Catalog.Build
import TaskRouting.Proofs.Bound
/-!
A small setting for executions.

# Collaborators

The general theorems are each followed by one execution to which they apply.
These executions share a setting. Agents talk and tasks are looked up; nobody
else has anything to say (`Collaborators.among`). Some agents say their names
(`echoing`), others how much they have been given (`counting`) or what they
have used (`metered`); `serving` adds a catalog and a registry.

# Tasks

A prompt of the plainest kind asks one agent and needs nothing
(`Prompt.asking`), so whatever stands around it, it responds with what the
agent says: `Task.perform_asking` for one layer, `Task.unbounded_asking`
without a bound. A `relay` runs two of them one after the other, of which it
owns the first; an `errand` is refused a question and has the relay run
instead; two workflows of a `rally` hand over to each other, and the document
of it describes them.
-/

namespace TaskRouting

variable {σ : Type}

/-- Collaborators among whom agents talk and some tasks are known by name. No
API is configured, nothing is stored, nobody asks executions to stop, and the
clock stands still. -/
def Collaborators.among (talk : Agent → Request → σ → Conversation σ)
    (known : String → Option Task) : Collaborators σ where
  agent := talk
  health _ world := (.error ⟨none⟩, world)
  config api world := (.ok (.error (.notConfigured api)), world)
  lookup name world := (.ok (.ok (known name)), world)
  store _ world := (.ok (.error .write), world)
  cancelled _ := false
  clock _ := Instant.epoch
  freshId world := (.ofSerial 0, world)

/-- A message with a text and nothing else. -/
def Message.plain (text : String) : Message :=
  { role := .assistant
    content := text
    producer := none
    usage := none
    metadata := none }

/-- A conversation in which the agent says one thing and calls no tool. -/
def Conversation.saying (text : String) (world : σ) : Conversation σ :=
  .answer (.ok [Message.plain text]) world

/-- A prompt for an agent of its own name. It needs nothing and has no
tools. -/
def Prompt.asking (name : String) : Prompt Task :=
  { identity := .named name name
    agent := ⟨name, name, false⟩
    capabilities := .none
    tools := [] }

/-- Collaborators whose agents say their names, and who know a plain prompt
under every name. -/
def Collaborators.echoing : Collaborators σ :=
  .among (fun agent _ world => .saying agent.name world) fun name =>
    some (.prompt (.asking name))

/-- Collaborators whose agents say how many inputs they have been given, and
who know no task. -/
def Collaborators.counting : Collaborators σ :=
  .among (fun _ request world =>
    .saying (toString request.inputs.length) world) fun _ => none

/-- Collaborators whose agents say their names twice, the second time at the
expense of five tokens, and who know a plain prompt under every name. With
`Workflow.relay` there is usage to be counted. -/
def Collaborators.metered : Collaborators σ :=
  .among
    (fun agent _ world =>
      .answer (.ok [
        Message.plain agent.name,
        { Message.plain agent.name with
          usage := some ⟨2, 3, 5, Binary64.zero⟩ }]) world)
    fun name => some (.prompt (.asking name))

/-- A workflow that runs two prompts one after the other and then ends. It
owns the first of them; the second one is to be looked up. -/
def Workflow.relay : Workflow Task where
  identity := .named "relay" "relay"
  tasks := [("first", .prompt (.asking "first"))]
  start := "first"
  routing := [("first", [(0, .plain "second")]), ("second", [(0, .finish)])]
  maxAttempts := 1
  recursive := false

/-- An input without which a task does not run. -/
def InputSchema.requiring (key : String) : InputSchema :=
  .require .empty key ⟨Parameter.usualType, "", none⟩

/-- An input that a task fills in if it is left out. -/
def InputSchema.supplying (key : String) (value : Json) : InputSchema :=
  .declare .empty key ⟨Parameter.usualType, "", some value⟩

/-- A workflow that asks a question, and has `Workflow.relay` run where that
is refused. The question is refused if nobody has put it. -/
def Workflow.errand : Workflow Task where
  identity := { Identity.named "errand" "errand" with
    inputSchema := .supplying "place" (.string "here") }
  tasks := [
    ("ask", .prompt { Prompt.asking "ask" with
      identity := { Identity.named "ask" "ask" with
        inputSchema := .requiring "question" } }),
    ("relay", .workflow .relay)]
  start := "ask"
  routing := [("ask", [(1, .retry "relay")]), ("relay", [(0, .finish)])]
  maxAttempts := 2
  recursive := false

/-- Collaborators whose agents say their names, among whom tasks are looked up
in a catalog and APIs in a registry. -/
def Collaborators.serving (catalog : Catalog) (registry : Registry) :
    Collaborators σ :=
  { Collaborators.among
      (fun agent _ world => .saying agent.name world) catalog.task? with
    health := fun api world => (.ok (registry.health api), world)
    config := fun api world => (.ok (registry.config api), world) }

/-- A prompt that needs an API and nothing else. -/
def Prompt.needing (name api : String) : Prompt Task :=
  { Prompt.asking name with
    identity := { Identity.named name name with requiredApis := [api] } }

/-- A workflow that asks one agent, which needs an API, and hands over to a
task that it does not own. -/
def Workflow.handing (key name api next : String) : Workflow Task where
  identity := .named key key
  tasks := [(name, .prompt (.needing name api))]
  start := name
  routing := [(name, [(0, .plain next)])]
  maxAttempts := 1
  recursive := false

/-- Two workflows that hand over to each other (`Workflow.handing`), and the
prompts that they run. -/
def Catalog.rally : Catalog := [
  ("ping", .workflow (.handing "ping" "serve" "mail" "pong")),
  ("pong", .workflow (.handing "pong" "return" "calendar" "ping")),
  ("return", .prompt (.needing "return" "calendar")),
  ("serve", .prompt (.needing "serve" "mail"))]

/-- The entry of a prompt that needs an API and nothing else. -/
def Catalog.Entry.needing (name api : String) : Catalog.Entry where
  key := name
  kind := .prompt
  name := name
  description := ""
  agent := some name
  requiredApis := [api]
  inputVariables := none
  exitCodes := []
  labels := []
  capabilities := .none
  tasks := []
  start := none
  routing := []
  maxAttempts := 1
  recursive := false

/-- The entry of a workflow that runs one task and hands over to another
one. -/
def Catalog.Entry.handing (key name next : String) : Catalog.Entry :=
  { Catalog.Entry.needing key "" with
    kind := .workflow
    agent := none
    requiredApis := []
    tasks := [(name, name)]
    start := some name
    routing := [(name, [(0, .plain next)])] }

/-- A document that describes `Catalog.rally`. -/
def Catalog.Document.rally : Catalog.Document where
  parameters := []
  entries := [
    .handing "ping" "serve" "pong",
    .handing "pong" "return" "ping",
    .needing "serve" "mail",
    .needing "return" "calendar"]

/-- A prompt of the plainest kind responds with what its agent says. Its
inputs are accepted, it has no APIs to resolve, and the conversation is over
at once. -/
theorem Task.perform_asking {talk : Agent → Request → σ → Conversation σ}
    {known : String → Option Task} {x : Workflow.Executor σ} {bound : Nat}
    {context : Context} {name text : String} {inputs : Inputs} {t : Trace σ}
    {world : σ}
    (h : talk ⟨name, name, false⟩ ⟨inputs, [], none⟩ t.world
      = .saying text world) :
    perform (.among talk known) x bound context
      (.prompt (.asking name)) inputs t
      = (.ok (.success Instant.epoch (Identity.named name name).header inputs
        [Message.plain text]),
          { t.call (.agent name inputs [] none) with world }) := by
  have hprepare : (Prompt.asking name).identity.inputSchema.prepare inputs
      = .ok inputs := rfl
  have hapis : Prompt.resolveApis (.among talk known)
      (Prompt.asking name).identity.requiredApis t = (.ok [], t) := rfl
  have htalk : (Collaborators.among talk known).agent
      (Prompt.asking name).agent ⟨inputs, [], (Prompt.asking name).toolbox⟩
      t.world = .saying text world := h
  rw [perform_prompt hprepare]
  unfold Prompt.execute
  rw [Execution.bind_apply, Prompt.generate_of_resolved hapis, htalk]
  rfl

/-- `perform_asking` without a bound. -/
theorem Task.unbounded_asking {talk : Agent → Request → σ → Conversation σ}
    {known : String → Option Task} {context : Context} {name text : String}
    {inputs : Inputs} {t : Trace σ} {world : σ}
    (h : talk ⟨name, name, false⟩ ⟨inputs, [], none⟩ t.world
      = .saying text world) :
    unbounded (.among talk known) context (.prompt (.asking name)) inputs t
      = (.ok (.success Instant.epoch (Identity.named name name).header inputs
        [Message.plain text]),
          { t.call (.agent name inputs [] none) with world }) := by
  have hperform : perform (.among talk known) (unbounded (.among talk known))
      0 context (.prompt (.asking name)) inputs t = _ := perform_asking h
  exact (unbounded_eq_perform (Execution.settles_of_ok hperform)).trans
    hperform

end TaskRouting

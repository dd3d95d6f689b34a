import TaskRouting.Catalog.Build
import TaskRouting.Proofs.Reach
import TaskRouting.Proofs.Sequence
/-!
What one entry of a document says.

# Described and well-formed

`Entry.Describes` says which task an entry is about: its kind, its identity,
its configuration, and under its local names the tasks of the keys that it
names. It does so by relations (`Declares`, `Identifies`, `Binds`, `Prompts`),
in which neither the order of the steps of building nor their errors occur.
`Entry.WellFormed` says which entries can be built, in the same way. The tasks
of other entries come in through a lookup `task?`, so what an entry describes
stays described when more tasks are known (`Describes.mono`).

# Step by step

Building is a sequence of steps in `Except`, and each step has one lemma, an
equivalence: it succeeds with a value exactly if that value stands in the
relation of the step (`parameter_eq_ok_iff`, `schema_eq_ok_iff`,
`identity_eq_ok_iff`, `contained_eq_ok_iff`, `bindAgent_eq_ok_iff`,
`buildPrompt_eq_ok_iff`, `buildWorkflow_eq_ok_iff`). Steps in sequence are
taken apart by `bind_eq_ok_iff`, and steps over a list by `mapM_eq_ok_iff`,
which turns them into a `List.Forall₂`. A workflow is built by way of a draft,
and `draft_eq_ok_iff` is what the checks of the draft amount to.

# Both directions

An entry that is built is well-formed, and into a task that it describes
(`Entry.of_build`). A well-formed entry is built, given the tasks that it
names (`Entry.exists_build`). Each kind of entry leaves out what belongs to
the others, so the cases are the three kinds.
-/

namespace TaskRouting.Catalog

variable {d : Document} {agents : String → Option Agent} {e : Entry}

-- ================================================== what an entry says

/-- What a document declares under the key of a shared parameter: of two
declarations the last one counts, as in `Document.shared`. -/
def Document.parameter? (d : Document) (key : String) : Option Parameter :=
  Table.last? (d.parameters.map fun p => (p.key, p.definition)) key

/-- A document has a parameter under exactly the keys that it declares,
however often (`Table.mem_keys_ofList`). -/
theorem Document.exists_parameter_iff {key : String} :
    (∃ parameter, d.parameter? key = some parameter)
      ↔ key ∈ d.parameters.map (·.key) := by
  have hkeys : (d.parameters.map fun p => (p.key, p.definition)).map Prod.fst
      = d.parameters.map (·.key) := List.map_map
  unfold Document.parameter?
  rw [← Table.get?_ofList, ← Table.mem_keys_iff, Table.mem_keys_ofList, hkeys]

/-- The declaration of an input stands for a parameter. -/
inductive Property.Means (d : Document) : Property → Parameter → Prop where
  | own (definition : Parameter) : Means d (.own definition) definition
  | shared {key : String} {parameter : Parameter}
      (declared : d.parameter? key = some parameter) :
      Means d (.shared key) parameter

namespace Entry

/-- The inputs that an entry declares. An entry that says nothing about inputs
declares none. -/
inductive Declares (e : Entry) (d : Document) : InputSchema → Prop where
  | silent (silent : e.inputVariables = none) : Declares e d .empty
  | declared {v : InputVariables} {properties : Table String Parameter}
      (declared : e.inputVariables = some v)
      (means : List.Forall₂ (fun declared property =>
        property.1 = declared.1 ∧ declared.2.Means d property.2) v.properties
          properties) :
      Declares e d ⟨properties, v.required⟩

/-- An identity is the one that an entry gives: its key, its name and what
else it says itself, the inputs that it declares, and the meaning of result
codes, where what the entry says goes before what is usual. -/
structure Identifies (e : Entry) (d : Document)
    (identity : Identity) : Prop where
  key : identity.key = e.key
  name : identity.name = e.name
  description : identity.description = e.description
  requiredApis : identity.requiredApis = e.requiredApis
  schema : e.Declares d identity.inputSchema
  exitCodes : ∀ code, identity.exitCodes.get? code
    = (Table.last? e.exitCodes code).or (Identity.usualExitCodes.get? code)

/-- Under the local names of an entry stand the tasks that have the keys it
names. -/
def Binds (e : Entry) (task? : String → Option Task)
    (bound : List (String × Task)) : Prop :=
  List.Forall₂ (fun named bound => bound.1 = named.1
    ∧ task? named.2 = some bound.2) e.tasks bound

/-- A prompt is the one that an entry gives to its agent: the agent of the
name that the entry has, what that agent may do, and the tools that the entry
names. -/
structure Prompts (e : Entry) (d : Document) (agents : String → Option Agent)
    (task? : String → Option Task) (p : Prompt Task) : Prop where
  identity : e.Identifies d p.identity
  agent : e.agent.bind agents = some p.agent
  capabilities : p.capabilities = e.capabilities
  tools : e.Binds task? p.tools

/-- A task is the one that an entry is about, if its sub-tasks and tools are
looked up by their keys. -/
inductive Describes (e : Entry) (d : Document)
    (agents : String → Option Agent)
    (task? : String → Option Task) : Task → Prop where
  | prompt {p : Prompt Task} (kind : e.kind = .prompt)
      (prompts : e.Prompts d agents task? p) :
      Describes e d agents task? (.prompt p)
  | check {k : Check Task} (kind : e.kind = .check)
      (prompts : e.Prompts d agents task? k.prompt)
      (labels : k.labels = e.labels) (defaultCode : k.defaultCode = 1) :
      Describes e d agents task? (.check k)
  | workflow {w : Workflow Task} (kind : e.kind = .workflow)
      (identity : e.Identifies d w.identity) (tasks : e.Binds task? w.tasks)
      (start : e.start = some w.start) (routing : w.routing = e.routing)
      (maxAttempts : w.maxAttempts = e.maxAttempts)
      (recursive : w.recursive = e.recursive) :
      Describes e d agents task? (.workflow w)

/-- What an entry has to say for a task to be built from it, besides naming
tasks that there are. The conditions are those of `Entry.build`, read in
advance. -/
structure WellFormed (e : Entry) (d : Document)
    (agents : String → Option Agent) : Prop where
  properties : ∀ v, e.inputVariables = some v →
    ∀ name key, (name, .shared key) ∈ v.properties →
    key ∈ d.parameters.map (·.key)
  agent : e.kind = .prompt ∨ e.kind = .check → ∃ key agent, e.agent = some key
    ∧ agents key = some agent
  labels : e.kind = .check → e.labels ≠ []
  start : e.kind = .workflow → ∃ start, e.start = some start
    ∧ start ∈ Table.keys e.tasks
  sources : e.kind = .workflow → ∀ source ∈ Table.keys e.routing,
    source ∈ Table.keys e.tasks ∨ source ∈ e.routing.targets
  attempts : e.kind = .workflow → 1 ≤ e.maxAttempts

/-- The task that an entry describes has its key. -/
theorem Describes.key_eq {task : Task} {task? : String → Option Task}
    (h : e.Describes d agents task? task) : task.key = e.key := by
  cases h with
  | prompt kind prompts => exact prompts.identity.key
  | check kind prompts labels defaultCode => exact prompts.identity.key
  | workflow kind identity tasks start routing maxAttempts recursive =>
    exact identity.key

/-- Names that are bound stay bound if more tasks can be looked up. -/
theorem Binds.mono {task? known? : String → Option Task}
    {bound : List (String × Task)} (h : e.Binds task? bound)
    (hmore : ∀ key task, task? key = some task → known? key = some task) :
    e.Binds known? bound :=
  h.imp fun named _ ⟨hname, hknown⟩ => ⟨hname, hmore named.2 _ hknown⟩

/-- An entry describes a task also if more tasks can be looked up. What it
`Binds` stays bound (`Binds.mono`), and nothing else depends on the lookup. -/
theorem Describes.mono {task? known? : String → Option Task} {task : Task}
    (h : e.Describes d agents task? task)
    (hmore : ∀ key task, task? key = some task → known? key = some task) :
    e.Describes d agents known? task := by
  cases h with
  | prompt kind prompts =>
    obtain ⟨identity, agent, capabilities, tools⟩ := prompts
    exact .prompt kind ⟨identity, agent, capabilities, tools.mono hmore⟩
  | check kind prompts labels defaultCode =>
    obtain ⟨identity, agent, capabilities, tools⟩ := prompts
    exact .check kind ⟨identity, agent, capabilities, tools.mono hmore⟩
      labels defaultCode
  | workflow kind identity tasks start routing maxAttempts recursive =>
    exact .workflow kind identity (tasks.mono hmore) start routing
      maxAttempts recursive

/-- What is bound under a local name is the task of a key that the entry
names. -/
theorem Binds.of_mem {task? : String → Option Task}
    {bound : List (String × Task)} (h : e.Binds task? bound) {name : String}
    {task : Task} (hmem : (name, task) ∈ bound) :
    ∃ key, (name, key) ∈ e.tasks ∧ task? key = some task := by
  obtain ⟨⟨name', key⟩, hnamed, hname, hknown⟩ :=
    exists_of_forall₂ h.flip hmem
  cases hname
  exact ⟨key, hnamed, hknown⟩

/-- What a task has directly inside is known by a key that its entry names: a
tool or a sub-task is one that the entry `Binds`. -/
theorem Describes.of_holds {task? : String → Option Task} {task inside : Task}
    (h : e.Describes d agents task? task) (hholds : task.Holds inside) :
    ∃ key, task? key = some inside := by
  cases h with
  | prompt kind prompts =>
    cases hholds with
    | tool asks mem =>
      cases asks
      obtain ⟨key, -, hknown⟩ := prompts.tools.of_mem mem
      exact ⟨key, hknown⟩
  | check kind prompts labels defaultCode =>
    cases hholds with
    | tool asks mem =>
      cases asks
      obtain ⟨key, -, hknown⟩ := prompts.tools.of_mem mem
      exact ⟨key, hknown⟩
  | workflow kind identity tasks start routing maxAttempts recursive =>
    cases hholds with
    | subtask mem =>
      obtain ⟨key, -, hknown⟩ := tasks.of_mem mem
      exact ⟨key, hknown⟩
    | tool asks mem => cases asks

-- ========================================================== identities

/-- The first step: a declared input is resolved to a parameter exactly if it
`Means` that parameter. A shared one is found where the document has declared
it last. -/
theorem parameter_eq_ok_iff {property : Property} {parameter : Parameter} :
    e.parameter d.shared property = .ok parameter
      ↔ property.Means d parameter := by
  cases property with
  | own definition =>
    constructor
    · intro h
      cases h
      exact .own parameter
    · intro h
      cases h
      rfl
  | shared key =>
    have hfound : d.shared.get? key = d.parameter? key :=
      Table.get?_ofList _ key
    unfold Entry.parameter
    dsimp only
    rw [hfound]
    constructor
    · intro h
      cases hdeclared : d.parameter? key with
      | none =>
        rw [hdeclared] at h
        cases h
      | some definition =>
        rw [hdeclared] at h
        cases h
        exact .shared hdeclared
    · intro h
      cases h with
      | shared declared => rw [declared]

/-- The inputs of an entry are resolved to a schema exactly if it declares
them. `hproperty` is this for one property, name and all; `mapM_eq_ok_iff`
makes a `List.Forall₂` of it. -/
theorem schema_eq_ok_iff {schema : InputSchema} :
    e.schema d.shared = .ok schema ↔ e.Declares d schema := by
  have hproperty :
      ∀ (declared : String × Property) (property : String × Parameter),
      (do return (declared.1, ← e.parameter d.shared declared.2))
        = Except.ok property
        ↔ property.1 = declared.1 ∧ declared.2.Means d property.2 := by
    intro declared property
    rw [bind_eq_ok_iff]
    constructor
    · rintro ⟨parameter, hmeans, h⟩
      cases h
      exact ⟨rfl, parameter_eq_ok_iff.1 hmeans⟩
    · rintro ⟨hname, hmeans⟩
      refine ⟨property.2, parameter_eq_ok_iff.2 hmeans, ?_⟩
      rw [← hname]
      rfl
  constructor
  · intro h
    unfold Entry.schema at h
    cases hdeclared : e.inputVariables with
    | none =>
      rw [hdeclared] at h
      cases h
      exact .silent hdeclared
    | some v =>
      rw [hdeclared] at h
      obtain ⟨properties, hproperties, h⟩ := bind_eq_ok_iff.1 h
      cases h
      exact .declared hdeclared
        ((mapM_eq_ok_iff.1 hproperties).imp fun a b => (hproperty a b).1)
  · intro h
    unfold Entry.schema
    cases h with
    | silent silent => rw [silent]
    | declared declared means =>
      rw [declared]
      refine bind_eq_ok_iff.2 ⟨_, mapM_eq_ok_iff.2 ?_, rfl⟩
      exact means.imp fun a b => (hproperty a b).2

/-- An entry declares inputs if the parameters are there to which it refers:
the properties are put together one by one (`exists_forall₂`). -/
theorem exists_declares (h : ∀ v, e.inputVariables = some v → ∀ name key,
    (name, .shared key) ∈ v.properties → key ∈ d.parameters.map (·.key)) :
    ∃ schema, e.Declares d schema := by
  cases hdeclared : e.inputVariables with
  | none => exact ⟨.empty, .silent hdeclared⟩
  | some v =>
    have hproperty : ∀ declared ∈ v.properties,
        ∃ property : String × Parameter,
        property.1 = declared.1 ∧ declared.2.Means d property.2 := by
      rintro ⟨name, property⟩ hmem
      cases property with
      | own definition => exact ⟨(name, definition), rfl, .own definition⟩
      | shared key =>
        have hkey := h v hdeclared name key hmem
        obtain ⟨parameter, hparameter⟩ := Document.exists_parameter_iff.2 hkey
        exact ⟨(name, parameter), rfl, .shared hparameter⟩
    obtain ⟨properties, hproperties⟩ := exists_forall₂ hproperty
    exact ⟨_, .declared hdeclared hproperties⟩

/-- The shared parameters to which a declared input refers are there. -/
theorem Declares.parameters {schema : InputSchema} (h : e.Declares d schema)
    {v : InputVariables} (hdeclared : e.inputVariables = some v)
    {name key : String} (hmem : (name, .shared key) ∈ v.properties) :
    key ∈ d.parameters.map (·.key) := by
  cases h with
  | silent silent =>
    rw [silent] at hdeclared
    cases hdeclared
  | declared declared means =>
    rw [declared] at hdeclared
    cases hdeclared
    obtain ⟨property, -, -, hmeans⟩ := exists_of_forall₂ means hmem
    cases hmeans with
    | shared declared => exact Document.exists_parameter_iff.1 ⟨_, declared⟩

/-- An identity is built exactly if the inputs of the entry are resolved
(`schema_eq_ok_iff`); all else in it is copied. -/
theorem identity_eq_ok_iff {identity : Identity} :
    e.identity d.shared = .ok identity
      ↔ e.Declares d identity.inputSchema ∧ identity = {
          key := e.key
          name := e.name
          description := e.description
          requiredApis := e.requiredApis
          inputSchema := identity.inputSchema
          exitCodes := Table.override Identity.usualExitCodes
            e.exitCodes } := by
  unfold Entry.identity
  rw [bind_eq_ok_iff]
  constructor
  · rintro ⟨schema, hschema, h⟩
    cases h
    exact ⟨schema_eq_ok_iff.1 hschema, rfl⟩
  · rintro ⟨hdeclares, h⟩
    refine ⟨identity.inputSchema, schema_eq_ok_iff.2 hdeclares, ?_⟩
    rw [h]
    rfl

/-- The identity that is built is the one that the entry gives. Result codes
are looked up in the entry first (`Table.get?_override`). -/
theorem identifies_of_identity {identity : Identity}
    (h : e.identity d.shared = .ok identity) : e.Identifies d identity := by
  obtain ⟨hdeclares, heq⟩ := identity_eq_ok_iff.1 h
  rw [heq]
  exact ⟨rfl, rfl, rfl, rfl, hdeclares, fun code =>
    Table.get?_override _ _ code⟩

-- ============================================================= prompts

/-- The tasks that an entry names are found exactly if the entry `Binds` them
under its local names: `mapM_eq_ok_iff`, name by name. -/
theorem contained_eq_ok_iff {built : Catalog} {bound : List (String × Task)} :
    e.contained built = .ok bound ↔ e.Binds built.task? bound := by
  unfold contained Binds
  rw [mapM_eq_ok_iff]
  constructor
  · refine fun h => h.imp ?_
    rintro ⟨name, key⟩ bound h
    dsimp only at h ⊢
    cases hfound : built.task? key with
    | none =>
      rw [hfound] at h
      cases h
    | some task =>
      rw [hfound] at h
      cases h
      exact ⟨rfl, rfl⟩
  · refine fun h => h.imp ?_
    rintro ⟨name, key⟩ ⟨name', task⟩ ⟨hname, hfound⟩
    dsimp only at hname hfound ⊢
    rw [hfound, hname]

/-- An agent is bound exactly if the entry names one and there is one of that
name. One case for each of the two ways to fail. -/
theorem bindAgent_eq_ok_iff {agent : Agent} :
    e.bindAgent agents = .ok agent ↔ e.agent.bind agents = some agent := by
  unfold bindAgent
  cases e.agent with
  | none => exact ⟨fun h => (nomatch h), fun h => (nomatch h)⟩
  | some key =>
    rw [Option.bind_some]
    dsimp only
    cases agents key with
    | none => exact ⟨fun h => (nomatch h), fun h => (nomatch h)⟩
    | some found =>
      refine ⟨fun h => ?_, fun h => ?_⟩
      · cases h
        rfl
      · cases h
        rfl

/-- A prompt is built exactly if it has the identity, the agent, the
capabilities and the tools of its entry (`bindAgent_eq_ok_iff`,
`contained_eq_ok_iff`). -/
theorem buildPrompt_eq_ok_iff {identity : Identity} {built : Catalog}
    {p : Prompt Task} :
    e.buildPrompt identity agents built = .ok p
      ↔ p.identity = identity ∧ e.agent.bind agents = some p.agent
        ∧ p.capabilities = e.capabilities ∧ e.Binds built.task? p.tools := by
  unfold buildPrompt
  rw [bind_eq_ok_iff]
  constructor
  · rintro ⟨agent, hagent, h⟩
    obtain ⟨tools, htools, h⟩ := bind_eq_ok_iff.1 h
    cases h
    exact ⟨rfl, bindAgent_eq_ok_iff.1 hagent, rfl,
      contained_eq_ok_iff.1 htools⟩
  · rintro ⟨rfl, hagent, hcapabilities, htools⟩
    refine ⟨p.agent, bindAgent_eq_ok_iff.2 hagent,
      bind_eq_ok_iff.2 ⟨p.tools, ?_, ?_⟩⟩
    · exact contained_eq_ok_iff.2 htools
    · rw [← hcapabilities]
      rfl

-- =========================================================== workflows

/-- Local names are bound as they are written, so `Table.keys` gives the same
names before and after. -/
theorem Binds.keys_eq {task? : String → Option Task}
    {bound : List (String × Task)} (h : e.Binds task? bound) :
    Table.keys bound = Table.keys e.tasks := by
  unfold Binds at h
  generalize e.tasks = named at h
  induction h with
  | nil => rfl
  | cons hfirst _ ih =>
    unfold Table.keys at ih ⊢
    rw [List.map_cons, List.map_cons, hfirst.1, ih]

/-- No source of a route is `strayed?` exactly if each one is a sub-task or a
target of some route. -/
theorem strayed?_eq_none_iff {draft : Workflow.Draft Task} :
    draft.strayed? = none ↔ ∀ source ∈ Table.keys draft.routing,
      source ∈ Table.keys draft.tasks ∨ source ∈ draft.routing.targets := by
  have hone : ∀ source,
      (!draft.owns source && !draft.routing.targets.contains source) = true
        ↔ ¬ (source ∈ Table.keys draft.tasks
          ∨ source ∈ draft.routing.targets) := by
    intro source
    rw [Workflow.Draft.owns, ← Table.contains_iff, ← List.contains_iff_mem]
    simp
  unfold Workflow.Draft.strayed?
  rw [List.find?_eq_none]
  exact forall₂_congr fun source _ => (not_congr (hone source)).trans not_not

/-- A draft holds together exactly if it starts at a sub-task, routes only
from sub-tasks and targets of routes (`strayed?_eq_none_iff`), and may make an
attempt. That it has a sub-task at all follows from the first of these,
although it is checked on its own. -/
theorem draft_eq_ok_iff {draft : Workflow.Draft Task} {start : String}
    {w : Workflow Task} (hstart : draft.start = some start) :
    draft.build = .ok w
      ↔ start ∈ Table.keys draft.tasks
        ∧ (∀ source ∈ Table.keys draft.routing,
            source ∈ Table.keys draft.tasks ∨ source ∈ draft.routing.targets)
        ∧ 1 ≤ draft.maxAttempts
        ∧ w =
          { identity := draft.identity
            tasks := draft.tasks
            start
            routing := draft.routing
            maxAttempts := draft.maxAttempts
            recursive := draft.recursive } := by
  have hattempts : 1 ≤ draft.maxAttempts ↔ draft.maxAttempts ≠ 0 := by
    rw [UInt32.le_iff_toNat_le, Ne, ← UInt32.toNat_inj]
    exact Nat.one_le_iff_ne_zero
  unfold Workflow.Draft.build
  rw [hstart, ← strayed?_eq_none_iff, hattempts]
  dsimp only [Option.getD_some]
  by_cases hempty : draft.tasks.isEmpty = true
  · rw [if_pos hempty]
    refine ⟨fun h => (nomatch h), fun h => ?_⟩
    rw [List.isEmpty_iff.1 hempty] at h
    exact absurd h.1 List.not_mem_nil
  · rw [if_neg hempty]
    by_cases howned : start ∈ Table.keys draft.tasks
    · have howns : draft.owns start = true := Table.contains_iff.2 howned
      rw [howns]
      cases hstrayed : draft.strayed? with
      | some name => exact ⟨fun h => (nomatch h), fun h => (nomatch h.2.1)⟩
      | none =>
        by_cases hnone : draft.maxAttempts = 0
        · exact ⟨fun h => by simp [hnone] at h, fun h => absurd hnone h.2.2.1⟩
        · constructor
          · intro h
            simp only [Bool.not_true, Bool.false_eq_true, if_false,
              if_neg hnone] at h
            exact ⟨howned, rfl, hnone, (Except.ok.inj h).symm⟩
          · rintro ⟨-, -, -, rfl⟩
            simp only [Bool.not_true, Bool.false_eq_true, if_false,
              if_neg hnone]
    · have howns : draft.owns start = false :=
        Bool.eq_false_iff.2 fun h => howned (Table.contains_iff.1 h)
      rw [howns]
      exact ⟨fun h => (nomatch h), fun h => absurd h.1 howned⟩

/-- A workflow is built exactly if its entry names a start and its draft holds
together, and then it has the sub-tasks, the routes and the settings of its
entry. The checks are about local names, which are those of the entry
(`Binds.keys_eq`). -/
theorem buildWorkflow_eq_ok_iff {identity : Identity} {built : Catalog}
    {w : Workflow Task} :
    e.buildWorkflow identity built = .ok w
      ↔ w.identity = identity ∧ e.Binds built.task? w.tasks
        ∧ e.start = some w.start ∧ w.routing = e.routing
        ∧ w.maxAttempts = e.maxAttempts ∧ w.recursive = e.recursive
        ∧ w.start ∈ Table.keys e.tasks
        ∧ (∀ source ∈ Table.keys e.routing,
            source ∈ Table.keys e.tasks ∨ source ∈ e.routing.targets)
        ∧ 1 ≤ e.maxAttempts := by
  unfold buildWorkflow
  cases hstart : e.start with
  | none => exact ⟨fun h => (nomatch h), fun h => (nomatch h.2.2.1)⟩
  | some start =>
    dsimp only
    rw [bind_eq_ok_iff]
    constructor
    · rintro ⟨tasks, htasks, h⟩
      have hbinds := contained_eq_ok_iff.1 htasks
      obtain ⟨howned, hsources, hmay, rfl⟩ :=
        (draft_eq_ok_iff rfl).1 (mapError_eq_ok_iff.1 h)
      rw [hbinds.keys_eq] at howned hsources
      exact ⟨rfl, hbinds, rfl, rfl, rfl, rfl, howned, hsources, hmay⟩
    · rintro ⟨rfl, hbinds, hsame, hrouting, hattempts, hrecursive, howned,
        hsources, hmay⟩
      obtain rfl := Option.some.inj hsame
      refine ⟨w.tasks, contained_eq_ok_iff.2 hbinds, mapError_eq_ok_iff.2 ?_⟩
      refine (draft_eq_ok_iff rfl).2 ⟨?_, ?_, hmay, ?_⟩
      · rw [hbinds.keys_eq]
        exact howned
      · rw [hbinds.keys_eq]
        exact hsources
      · rw [← hrouting, ← hattempts, ← hrecursive]

-- =============================================================== tasks

/-- What an entry is built into is what it describes, and then the entry is
well-formed. The cases are the kinds of entries; what `WellFormed` asks of
another kind is vacuous. -/
theorem of_build {built : Catalog} {task : Task}
    (h : e.build d.shared agents built = .ok task) :
    e.Describes d agents built.task? task ∧ e.WellFormed d agents := by
  unfold build at h
  obtain ⟨identity, hidentity, h⟩ := bind_eq_ok_iff.1 h
  have hidentifies := identifies_of_identity hidentity
  have hproperties : ∀ v, e.inputVariables = some v →
      ∀ name key, (name, .shared key) ∈ v.properties →
      key ∈ d.parameters.map (·.key) :=
    fun v hv name key hmem => hidentifies.schema.parameters hv hmem
  -- An agent that is bound has been asked for by its key.
  have hagent : ∀ {agent}, e.agent.bind agents = some agent →
      ∃ key agent, e.agent = some key ∧ agents key = some agent :=
    fun {agent} hbound =>
      let ⟨key, hkey, hfound⟩ := Option.bind_eq_some_iff.1 hbound
      ⟨key, agent, hkey, hfound⟩
  cases hkind : e.kind with
  | prompt =>
    rw [hkind] at h
    obtain ⟨p, hp, h⟩ := bind_eq_ok_iff.1 h
    cases h
    obtain ⟨rfl, hbound, hcapabilities, htools⟩ := buildPrompt_eq_ok_iff.1 hp
    refine ⟨.prompt hkind ⟨hidentifies, hbound, hcapabilities, htools⟩,
      hproperties, fun _ => hagent hbound, ?_, ?_, ?_, ?_⟩
    all_goals
      intro hother
      rw [hkind] at hother
      cases hother
  | check =>
    rw [hkind] at h
    by_cases hlabels : e.labels.isEmpty = true
    · simp only [if_pos hlabels] at h
      cases h
    · simp only [if_neg hlabels] at h
      obtain ⟨p, hp, h⟩ := bind_eq_ok_iff.1 h
      cases h
      obtain ⟨rfl, hbound, hcapabilities, htools⟩ :=
        buildPrompt_eq_ok_iff.1 hp
      refine
        ⟨.check hkind ⟨hidentifies, hbound, hcapabilities, htools⟩ rfl rfl,
          hproperties, fun _ => hagent hbound,
          fun _ hnil => hlabels (List.isEmpty_iff.2 hnil), ?_, ?_, ?_⟩
      all_goals
        intro hother
        rw [hkind] at hother
        cases hother
  | workflow =>
    rw [hkind] at h
    obtain ⟨w, hw, h⟩ := bind_eq_ok_iff.1 h
    cases h
    obtain ⟨rfl, hbinds, hstart, hrouting, hattempts, hrecursive, howned,
        hsources, hmay⟩ :=
      buildWorkflow_eq_ok_iff.1 hw
    refine ⟨.workflow hkind hidentifies hbinds hstart hrouting hattempts
      hrecursive, hproperties, ?_, ?_, fun _ => ⟨w.start, hstart, howned⟩,
      fun _ => hsources, fun _ => hmay⟩
    · rintro (hother | hother)
      all_goals
        rw [hkind] at hother
        cases hother
    · intro hother
      rw [hkind] at hother
      cases hother

/-- A `WellFormed` entry is built, if the tasks are there that it names: the
value of each step is given, and the equivalences say that the step has it. -/
theorem exists_build {built : Catalog} (h : e.WellFormed d agents)
    (hknown : ∀ key ∈ Table.values e.tasks, ∃ task, built.task? key
      = some task) :
    ∃ task, e.build d.shared agents built = .ok task := by
  obtain ⟨schema, hschema⟩ := exists_declares h.properties
  have hbound : ∃ bound, e.Binds built.task? bound := by
    refine exists_forall₂ fun named hnamed => ?_
    obtain ⟨task, htask⟩ :=
      hknown named.2 (List.mem_map_of_mem (f := Prod.snd) hnamed)
    exact ⟨(named.1, task), rfl, htask⟩
  obtain ⟨bound, hbinds⟩ := hbound
  let identity : Identity := {
    key := e.key
    name := e.name
    description := e.description
    requiredApis := e.requiredApis
    inputSchema := schema
    exitCodes := Table.override Identity.usualExitCodes e.exitCodes }
  have hidentity : e.identity d.shared = .ok identity :=
    identity_eq_ok_iff.2 ⟨hschema, rfl⟩
  have hprompt : e.kind = .prompt ∨ e.kind = .check →
      ∃ p, e.buildPrompt identity agents built = .ok p := by
    intro hkind
    obtain ⟨key, agent, hkey, hagent⟩ := h.agent hkind
    refine ⟨⟨identity, agent, e.capabilities, bound⟩,
      buildPrompt_eq_ok_iff.2 ⟨rfl, ?_, rfl, hbinds⟩⟩
    rw [hkey]
    exact hagent
  unfold build
  cases hkind : e.kind with
  | prompt =>
    obtain ⟨p, hp⟩ := hprompt (Or.inl hkind)
    exact ⟨.prompt p, bind_eq_ok_iff.2
      ⟨identity, hidentity, bind_eq_ok_iff.2 ⟨p, hp, rfl⟩⟩⟩
  | check =>
    obtain ⟨p, hp⟩ := hprompt (Or.inr hkind)
    have hlabels : ¬ e.labels.isEmpty = true := fun hnil =>
      h.labels hkind (List.isEmpty_iff.1 hnil)
    refine ⟨.check ⟨p, e.labels, failureCode⟩,
      bind_eq_ok_iff.2 ⟨identity, hidentity, ?_⟩⟩
    dsimp only
    rw [if_neg hlabels]
    exact bind_eq_ok_iff.2 ⟨p, hp, rfl⟩
  | workflow =>
    obtain ⟨start, hstart, howned⟩ := h.start hkind
    let w : Workflow Task :=
      ⟨identity, bound, start, e.routing, e.maxAttempts, e.recursive⟩
    have hw : e.buildWorkflow identity built = .ok w :=
      buildWorkflow_eq_ok_iff.2
        ⟨rfl, hbinds, hstart, rfl, rfl, rfl, howned, h.sources hkind,
          h.attempts hkind⟩
    exact ⟨.workflow w, bind_eq_ok_iff.2
      ⟨identity, hidentity, bind_eq_ok_iff.2 ⟨w, hw, rfl⟩⟩⟩

end Entry

end TaskRouting.Catalog

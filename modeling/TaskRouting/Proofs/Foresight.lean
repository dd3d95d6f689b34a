import TaskRouting.Proofs.Catalog.WellFormed
import TaskRouting.Proofs.Report
/-!
A check foresees which APIs an execution looks up.

# Surveys and executions

An execution goes where the routing table, the lookup and the agents take it,
a survey goes everywhere. What they have in common is where tasks can lead
(`Catalog.Leads`). A survey finds what is required by the tasks that are
reached along it (`Survey.exists_visit`), so it is enough that an execution
runs no others.

# Tasks of a catalog

In a catalog that was built from a document, what a task leads to is the
catalog's own task of its key (`Document.Holds.of_reaches`). From this follow
the two things that are needed of such a catalog: keys tell workflows apart
(`Document.Holds.keysTell`), without which a survey would take one for
another, and a workflow starts at a task of its own
(`Document.Holds.owns_start`). A workflow that does so finds any other name in
the catalog (`Workflow.leads_of_find`).

# What executions look up

`Terms.foreseen` are the terms of an execution that looks up only APIs that
its root requires, and that is stopped by an API only where the registry has
no configuration for it. `cover_reaches` shows that the tasks reached from the
root cover what it can run on these terms, one field for each collaborator and
one for each kind of branch, and `Task.execute_keeps` does the induction.

The registry gives the configuration of an API exactly if its health is no
error (`Registry.health_ne_error_iff`), so a report without errors promises
that no execution is stopped by an API. This is `check_foresees_apis`.
-/

namespace TaskRouting

open Execution Relation
open Catalog (Document)

variable {σ : Type} {c : Collaborators σ} {catalog : Catalog}
  {registry : Registry} {d : Document} {agents : String → Option Agent}
  {root : Task}

/-- Tasks are looked up in a catalog, and APIs in a registry, neither of which
changes. -/
structure Collaborators.Consults (c : Collaborators σ) (catalog : Catalog)
    (registry : Registry) : Prop where
  lookup : c.LooksUpIn catalog
  health : ∀ api world, (c.health api world).1 = .ok (registry.health api)
  config : ∀ api world, (c.config api world).1 = .ok (registry.config api)

theorem Collaborators.Consults.tellsHealth (h : c.Consults catalog registry) :
    c.TellsHealth :=
  fun api world => ⟨_, h.health api world⟩

/-- An API is configured and active exactly if its health is no error.
`health` and `config` both ask for the entry and for whether it is active; a
degraded one is no error either. -/
theorem Registry.health_ne_error_iff {api : String} :
    (registry.health api).status ≠ .error
      ↔ ∃ config, registry.config api = .ok config := by
  unfold health config
  cases registry.get? api with
  | none => simp
  | some entry =>
    cases hactive : entry.active with
    | false => simp [hactive]
    | true => cases hdegraded : entry.degraded <;> simp [hactive, hdegraded]

-- ======================================= where tasks of a catalog lead

namespace Catalog

/-- What a task of a catalog leads to is the catalog's own task of its key. By
induction on the path: what is inside a task of the catalog was built with it
(`Holds.of_inside`), and what is looked up is in the catalog already. -/
theorem Document.Holds.of_reaches (h : d.Holds agents d.entries catalog)
    {key : String} {task : Task} (hknown : catalog.task? key = some root)
    (hreach : catalog.Reaches root task) :
    catalog.task? task.key = some task := by
  induction hreach with
  | refl => rw [(h.of_task? hknown).1, hknown]
  | tail _ hleads ih =>
    cases hleads with
    | subtask mem => exact h.of_inside ih (.single (.subtask mem))
    | tool asks may mem => exact h.of_inside ih (.single (.tool asks mem))
    | target routed foreign known => rw [(h.of_task? known).1, known]

/-- Two workflows of one key that are reached are both the catalog's task of
that key (`Holds.of_reaches`), so keys tell workflows apart. -/
theorem Document.Holds.keysTell (h : d.Holds agents d.entries catalog)
    {key : String} (hknown : catalog.task? key = some root) :
    catalog.KeysTell root := by
  intro w w' hreach hreach' hkey
  have hw : catalog.task? w.key = some (.workflow w) :=
    h.of_reaches hknown hreach
  have hw' : catalog.task? w'.key = some (.workflow w') :=
    h.of_reaches hknown hreach'
  rw [hkey, hw'] at hw
  cases hw
  rfl

/-- A workflow to which a task of a catalog leads starts at a task of its own:
it is in the catalog, and a `WellFormed` document starts its workflows so. -/
theorem Document.Holds.owns_start (h : d.Holds agents d.entries catalog)
    (hwell : d.WellFormed agents) {key : String}
    (hknown : catalog.task? key = some root) {w : Workflow Task}
    (hreach : catalog.Reaches root (.workflow w)) :
    w.owns w.start = true := by
  obtain ⟨-, e, he, -, hdescribes⟩ := h.of_task? (h.of_reaches hknown hreach)
  cases hdescribes with
  | workflow kind identity tasks start routing maxAttempts recursive =>
    obtain ⟨name, hname, howned⟩ := (hwell.entries e he).start kind
    rw [start] at hname
    obtain rfl := Option.some.inj hname
    unfold Workflow.owns
    rw [Table.contains_iff, tasks.keys_eq]
    exact howned

end Catalog

/-- A workflow that starts at a task of its own `Leads` to whatever it finds.
A name that is not its own is then the target of a route, and what the lookup
knows it by is in the catalog. -/
theorem Workflow.leads_of_find (hlookup : c.LooksUpIn catalog)
    {w : Workflow Task} (hstart : w.owns w.start = true) {name : String}
    (hname : name ∈ w.names) {task : Task} {t t' : Trace σ}
    (h : w.find c name t = (.ok (some task), t')) :
    catalog.Leads (.workflow w) task := by
  unfold find at h
  cases hown : w.own? name with
  | some own =>
    rw [hown] at h
    cases h
    exact .subtask (Table.mem_of_get? hown)
  | none =>
    have hforeign : w.owns name = false := by
      unfold owns Table.contains
      rw [show Table.get? w.tasks name = none from hown]
      rfl
    have hrouted : name ∈ w.routing.targets := by
      rcases List.mem_cons.1 (List.mem_dedup.1 hname) with rfl | hrouted
      · rw [hstart] at hforeign
        cases hforeign
      · exact hrouted
    obtain ⟨t₁, hfound⟩ := hlookup.lookUp name t
    rw [hown] at h
    dsimp only at h
    rw [bind_apply, hfound] at h
    have hknown : catalog.task? name = some task :=
      Except.ok.inj (congrArg Prod.fst h)
    exact .target hrouted hforeign hknown

-- ============================================= what executions look up

/-- Executions that look up only APIs that a task requires, and are stopped by
an API only where the registry has no configuration for it. -/
def Terms.foreseen (σ : Type) (catalog : Catalog) (registry : Registry)
    (root : Task) : Terms σ where
  call call := ∀ api, call = .config api → catalog.Requires root api
  stop stop := ∀ error, stop = .fault (.api error) →
    ∃ api, catalog.Requires root api ∧ registry.config api = .error error
  world _ := True

/-- Where tasks are those of a catalog, what a task `Reaches` covers what it
can run. Only the registry has anything to prove beyond the path: the API that
it is asked for is required by the task that asks, and so by the root. -/
theorem cover_reaches (hconsults : c.Consults catalog registry)
    (hstarts : ∀ w, catalog.Reaches root (.workflow w) →
      w.owns w.start = true) :
    (Terms.foreseen σ catalog registry root).Cover c
      (catalog.Reaches root) := by
  constructor
  case stop => exact fun stop hstop error heq => absurd heq (hstop error)
  case agent =>
    refine fun agent request world _ =>
      ⟨Conversation.stays_true _, fun inputs apis tools api h => ?_⟩
    cases h
  case lookup =>
    refine fun name world _ => ⟨fun api h => ?_, trivial⟩
    cases h
  case config =>
    intro task p api world hreach hasks hapi _
    have hrequired : catalog.Requires root api := by
      rw [← Task.identity_of_prompt? hasks] at hapi
      exact ⟨task, hreach, hapi⟩
    refine ⟨fun api' h => ?_, trivial, fun error hanswer error' h => ?_⟩
    · cases h
      exact hrequired
    · cases h
      rw [hconsults.config] at hanswer
      exact ⟨api, hrequired, Except.ok.inj hanswer⟩
  case tool =>
    intro task p name tool hreach hasks hknown
    obtain ⟨may, hmem⟩ := Prompt.of_toolbox hknown
    exact hreach.tail (.tool hasks may hmem)
  case subtask =>
    intro w name task t t' hreach hname _ hfound
    exact hreach.tail (Workflow.leads_of_find hconsults.lookup
      (hstarts w hreach) hname hfound)

/-- A finding holds what the registry says of its API. By induction on the
questions asked. -/
theorem Asked.health_eq (hconsults : c.Consults catalog registry)
    {findings : List ApiFinding} {t t' : Trace σ}
    (h : Asked c t findings t') :
    ∀ finding ∈ findings, registry.health finding.api
      = ⟨finding.status, finding.message⟩ := by
  induction h with
  | nil t => exact fun finding hmem => (nomatch hmem)
  | @cons _ _ t _ _ answered _ ih =>
    intro finding hmem
    rcases List.mem_cons.1 hmem with rfl | hmem
    · have hhealth := hconsults.health finding.api t.world
      rw [(answer_of_consult answered).1] at hhealth
      exact (Except.ok.inj hhealth).symm
    · exact ih finding hmem

/-- If the worst finding is no error, each API that has been asked for has a
configuration: an error would be the worst there is
(`ApiStatus.eq_error_of_rank_le`). -/
theorem Asked.exists_config (hconsults : c.Consults catalog registry)
    {findings : List ApiFinding} {t t' : Trace σ} (h : Asked c t findings t')
    {worst : ApiStatus} (hworst : worst.WorstOf findings)
    (husable : worst ≠ .error) :
    ∀ finding ∈ findings, ∃ config,
      registry.config finding.api = .ok config := by
  intro finding hmem
  rw [← Registry.health_ne_error_iff, h.health_eq hconsults finding hmem]
  intro herror
  have hfinding : finding.status = .error := herror
  have hrank := hworst.bounds finding hmem
  rw [hfinding] at hrank
  exact husable (ApiStatus.eq_error_of_rank_le hrank)

/-- The check of a task of a catalog foresees all executions of the task: they
look up no API but those reported. And if the report says of no API that it
cannot be used, the registry has a configuration for each API that is looked
up, and no API stops an execution.

The survey goes through all that the task `Reaches` (`Survey.exists_visit`),
which covers whatever an execution runs (`cover_reaches`), so every execution
stays within the terms `foreseen`. -/
theorem check_foresees_apis {key : String} {task : Task}
    (hbuilt : d.build agents = .ok catalog)
    (hknown : catalog.task? key = some task)
    (hconsults : c.Consults catalog registry) :
    ∃ bound, ∀ n, bound ≤ n → ∀ t : Trace σ, ∃ report t',
      checkAvailability c n task t = (.ok report, t')
      ∧ ∀ depth context inputs world,
          (∀ api, .config api ∈ (Task.execute c depth context task inputs
              (.start world)).2.calls →
            api ∈ report.names
              ∧ (report.status ≠ .error →
                ∃ config, registry.config api = .ok config))
          ∧ (report.status ≠ .error → ∀ error,
              (Task.execute c depth context task inputs (.start world)).1
                ≠ .error (.fault (.api error))) := by
  obtain ⟨hwell, hholds⟩ := Document.holds_of_build hbuilt
  have hcover := cover_reaches hconsults fun w hreach =>
    hholds.owns_start hwell hknown hreach
  obtain ⟨bound, hbound⟩ :=
    Survey.exists_visit hconsults.lookup (hholds.keysTell hknown)
  refine ⟨bound, fun n hn t => ?_⟩
  obtain ⟨survey, t₁, hvisit, -, hrequired⟩ := hbound n hn t
  obtain ⟨report, t', hcheck, hlisted, hasked, hworst⟩ :=
    checkAvailability_of_visit hconsults.tellsHealth hvisit
  have hnames : ∀ api, api ∈ report.names ↔ catalog.Requires task api := by
    rw [hlisted]
    exact hrequired
  have husable : report.status ≠ .error → ∀ api, catalog.Requires task api →
      ∃ config, registry.config api = .ok config := by
    intro hstatus api hapi
    obtain ⟨finding, hmem, rfl⟩ := List.mem_map.1 ((hnames api).2 hapi)
    exact hasked.exists_config hconsults hworst hstatus finding hmem
  refine ⟨report, t', hcheck, fun depth context inputs world => ?_⟩
  -- From here on it is the execution that is followed; the survey has done
  -- its part.
  have hkeeps : (Task.execute c depth context task inputs).Keeps
      (.foreseen σ catalog registry task) (.start world) :=
    Task.execute_keeps hcover .refl trivial
  obtain ⟨more, hmore, hcalls⟩ := hkeeps.calls
  refine ⟨fun api hcall => ?_, fun hstatus error herror => ?_⟩
  · rw [hmore, Trace.calls_start, List.nil_append] at hcall
    have hrequired := hcalls _ hcall api rfl
    exact ⟨(hnames api).2 hrequired, fun hstatus =>
      husable hstatus api hrequired⟩
  · obtain ⟨api, hrequired, hfails⟩ := hkeeps.stops _ herror error rfl
    obtain ⟨config, hconfig⟩ := husable hstatus api hrequired
    rw [hconfig] at hfails
    cases hfails

/-- Two workflows that hand over to each other, with no API configured: the
execution of the first one is stopped by the API of its prompt, which the
check has foreseen. -/
theorem rally_foresees_apis :
    Document.rally.build (fun key => some ⟨key, key, false⟩) = .ok .rally
      ∧ Catalog.rally.task? "ping"
        = some (.workflow (.handing "ping" "serve" "mail" "pong"))
      ∧ (Collaborators.serving (σ := Unit) .rally []).Consults .rally []
      ∧ ∃ n report t',
          checkAvailability (Collaborators.serving .rally []) n
              (.workflow (.handing "ping" "serve" "mail" "pong")) (.start ())
            = (.ok report, t')
          ∧ "mail" ∈ report.names ∧ report.status = .error := by
  have hbuilt : Document.rally.build (fun key => some ⟨key, key, false⟩)
      = .ok .rally := rfl
  have hknown : Catalog.rally.task? "ping"
      = some (.workflow (.handing "ping" "serve" "mail" "pong")) := rfl
  have hconsults : (Collaborators.serving (σ := Unit) .rally []).Consults
      .rally [] :=
    ⟨fun _ _ => rfl, fun _ _ => rfl, fun _ _ => rfl⟩
  obtain ⟨bound, hbound⟩ := check_foresees_apis hbuilt hknown hconsults
  obtain ⟨report, t', hcheck, hforesees⟩ :=
    hbound bound (Nat.le_refl bound) (.start ())
  obtain ⟨hcalls, hstops⟩ := hforesees 3 (.fresh false) [] ()
  refine ⟨hbuilt, hknown, hconsults, bound, report, t', hcheck, ?_, ?_⟩
  · exact (hcalls "mail" (List.mem_singleton.2 rfl)).1
  · by_contra hstatus
    exact hstops hstatus (.notConfigured "mail") rfl

end TaskRouting

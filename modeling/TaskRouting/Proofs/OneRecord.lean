import TaskRouting.Executor
import TaskRouting.Proofs.Report
import TaskRouting.Store
/-!
One record for each job.

# What comes of a job

An executor is given jobs, to execute a task or to find it by its key first.
Whatever goes wrong in a job, the response that comes of it can be accounted
for by what has gone wrong. `Explains` has one constructor for each way in
which an attempt at a task comes back (with a response, with a fault, with a
crash), and `Accounts` adds the three ways in which a key finds nothing.
`Offers` says what comes of showing a response to the store, and `Kept` puts
the parts of one job together.

# Before the store

That a job calls the store once, at its end, is to say that nothing before
calls it: neither the check nor the execution does (`attempt_keeps`, on terms
that allow any other call), nor the lookup (`lookUp_spares`). `Spares` is what
this leaves for the traces, and it is carried along with the world, so that a
store kept in the world is left alone as well.

# Up to the store, and the store

`serve_accounts` follows a job up to the store, by cases on how the attempt
and the lookup come back, and `persist_offers` the rest of it. Their
composition is `serve_kept`; for a store in memory, which accepts everything,
the world holds one more record afterwards (`serve_storesIn`). By induction on
the jobs each of them leaves one record (`serveAll_keeps_one_record_each`).
-/

namespace TaskRouting

open Execution

variable {σ : Type}

/-- What an executor is asked to do. -/
inductive Job where
  | task (task : Task) (inputs : Inputs)
  | key (key : String) (inputs : Inputs)

/-- A response tells of a failure: it has nothing but a diagnostic to show, in
which a certain text stands. -/
structure Response.Reports (r : Response) (header : Header) (inputs : Inputs)
    (text : String) : Prop where
  header : r.header = header
  inputs : r.inputs = inputs
  status : r.status = .failed
  code : r.code = 1
  outputs : r.outputs = none
  history : r.history = none
  diagnostic : ∃ before after, r.diagnostic = some (before ++ text ++ after)

/-- A failed response reports whatever stands in its diagnostic. -/
theorem Response.reports_failure {now : Instant} {header : Header}
    {inputs : Inputs} {text diagnostic : String}
    (h : ∃ before after, diagnostic = before ++ text ++ after) :
    (failure now header inputs failureCode diagnostic).Reports
      header inputs text := by
  obtain ⟨before, after, rfl⟩ := h
  exact ⟨rfl, rfl, rfl, rfl, rfl, rfl, before, after, rfl⟩

namespace Executor

variable (e : Executor σ)

/-- Does one job. -/
def serve : Job → Execution σ StoredResponse
  | .task task inputs => e.execute task inputs
  | .key key inputs => e.executeByKey key inputs

/-- Does some jobs one after the other. -/
def serveAll (jobs : List Job) : Execution σ (List StoredResponse) :=
  jobs.mapM e.serve

/-- What is guarded when a task is executed: the check and the execution. -/
def attempt (task : Task) (inputs : Inputs) : Execution σ Response := do
  let _ ← e.check task
  task.execute e.collaborators e.bound e.context inputs

/-- An execution of a task is the `guarded` attempt at it, and then the
store. -/
theorem execute_eq (task : Task) (inputs : Inputs) :
    e.execute task inputs
      = e.guarded (e.attempt task inputs) task.identity.header inputs
        >>= e.persist := rfl

-- ================================================= what comes of a job

/-- A response is what an attempt at a task has come to: its own, or the
report of what stopped it. -/
inductive Explains (task : Task) (inputs : Inputs) (t : Trace σ)
    (response : Response) (t' : Trace σ) : Prop where
  | own (ran : e.attempt task inputs t = (.ok response, t'))
  | fault {fault : Fault}
      (ran : e.attempt task inputs t = (.error (.fault fault), t'))
      (reports : response.Reports task.identity.header inputs
        fault.fullMessage)
  | crash {crash : Crash}
      (ran : e.attempt task inputs t = (.error (.crash crash), t'))
      (reports : response.Reports task.identity.header inputs crash.message)

/-- A response is what a job has come to: a task `Explains` it, or it reports
why there was none. -/
inductive Accounts : Job → Trace σ → Response → Trace σ → Prop where
  | task {task : Task} {inputs : Inputs} {t t' : Trace σ}
      {response : Response}
      (explains : e.Explains task inputs t response t') :
      Accounts (.task task inputs) t response t'
  | found {key : String} {inputs : Inputs} {t t₁ t' : Trace σ} {task : Task}
      {response : Response}
      (looked : e.collaborators.lookUp key t = (.ok (.ok (some task)), t₁))
      (explains : e.Explains task inputs t₁ response t') :
      Accounts (.key key inputs) t response t'
  | unknown {key : String} {inputs : Inputs} {t t' : Trace σ}
      {response : Response}
      (looked : e.collaborators.lookUp key t = (.ok (.ok none), t'))
      (reports : response.Reports ⟨key, "Unknown", ""⟩ inputs key) :
      Accounts (.key key inputs) t response t'
  | failed {key : String} {inputs : Inputs} {t t' : Trace σ}
      {response : Response} {error : LookupError}
      (looked : e.collaborators.lookUp key t = (.ok (.error error), t'))
      (reports : response.Reports ⟨key, "Unknown", ""⟩ inputs error.message) :
      Accounts (.key key inputs) t response t'
  | crashed {key : String} {inputs : Inputs} {t t' : Trace σ}
      {response : Response} {crash : Crash}
      (looked : e.collaborators.lookUp key t = (.error (.crash crash), t'))
      (reports : response.Reports ⟨key, "Unknown", ""⟩ inputs crash.message) :
      Accounts (.key key inputs) t response t'

/-- A record is what comes of offering a response to the store: the store's
own, or one of the same response that says that no store has accepted it. -/
inductive Offers (response : Response) (t : Trace σ) (record : StoredResponse)
    (t' : Trace σ) : Prop where
  | accepted
      (answered : e.collaborators.store response t.world
        = (.ok (.ok record), t'.world))
  | refused {error : StoreError}
      (answered : (e.collaborators.store response t.world).1
        = .ok (.error error))
      (same : record.response = response)
      (unpersisted : record.persisted = false)

/-- A job has been done: its response was offered to the store by its last
call, and by no call before, and the record is what came of that. -/
def Kept (job : Job) (t : Trace σ) (record : StoredResponse) (t' : Trace σ) :
    Prop :=
  ∃ response before inside,
    e.Accounts job t response before
      ∧ before.calls = t.calls ++ inside
      ∧ (∀ call ∈ inside, ∀ id, call ≠ .store id)
      ∧ t'.calls = before.calls ++ [.store response.header.taskId]
      ∧ e.Offers response before record t'

/-- Jobs have been done one after the other, each in the trace that the one
before has left, and each is `Kept` as its record. -/
inductive KeptInTurn :
    List Job → Trace σ → List StoredResponse → Trace σ → Prop where
  | nil (t : Trace σ) : KeptInTurn [] t [] t
  | cons {job : Job} {jobs : List Job} {t t' t'' : Trace σ}
      {record : StoredResponse} {records : List StoredResponse}
      (kept : e.Kept job t record t')
      (rest : KeptInTurn jobs t' records t'') :
      KeptInTurn (job :: jobs) t (record :: records) t''

end Executor

-- ==================================================== before the store

/-- All but the store leave the world as one of a certain kind. -/
structure Collaborators.Leave (c : Collaborators σ)
    (world : σ → Prop) : Prop where
  agent : ∀ agent request w, world w → (c.agent agent request w).Stays world
  health : ∀ api w, world w → world (c.health api w).2
  config : ∀ api w, world w → world (c.config api w).2
  lookup : ∀ name w, world w → world (c.lookup name w).2

/-- Nothing is asked of a world of any kind. -/
theorem Collaborators.leave_true (c : Collaborators σ) :
    c.Leave fun _ => True where
  agent _ _ _ _ := Conversation.stays_true _
  health _ _ _ := trivial
  config _ _ _ := trivial
  lookup _ _ _ := trivial

/-- Terms that allow anything but calls to the store. -/
def Terms.storeless (world : σ → Prop) : Terms σ where
  call call := ∀ id, call ≠ .store id
  stop _ := True
  world := world

namespace Executor

variable {e : Executor σ} {world : σ → Prop}

/-- The check and the execution of a task call everybody but the store, and
leave a world of the kind that these leave. Both are the inductions of
`checkAvailability_keeps` and `Task.execute_keeps`, for which every task is
covered. -/
theorem attempt_keeps (hleave : e.collaborators.Leave world) (task : Task)
    (inputs : Inputs) {t : Trace σ} (hworld : world t.world) :
    (e.attempt task inputs).Keeps (.storeless world) t := by
  have hsurveys : (Terms.storeless world).Surveys e.collaborators := by
    refine ⟨trivial, fun _ => trivial, fun name w hw =>
      ⟨fun id h => ?_, hleave.lookup name w hw⟩⟩
    cases h
  -- No task has to be singled out: all of them keep to these terms.
  have hcover : (Terms.storeless world).Cover e.collaborators
      fun _ => True := by
    constructor
    case stop => exact fun _ _ => trivial
    case agent =>
      intro agent request w hw
      refine ⟨hleave.agent agent request w hw,
        fun inputs apis tools id h => ?_⟩
      cases h
    case lookup => exact hsurveys.lookup
    case config =>
      intro _ _ api w _ _ _ hw
      refine ⟨fun id h => ?_, hleave.config api w hw, fun _ _ => trivial⟩
      cases h
    case tool => exact fun _ _ _ _ _ _ _ => trivial
    case subtask => exact fun _ _ _ _ _ _ _ _ _ => trivial
  unfold attempt check
  refine Keeps.bind (checkAvailability_keeps hsurveys
    (fun api w hw => ?_) hworld) ?_
  · refine ⟨fun id h => ?_, hleave.health api w hw⟩
    cases h
  · exact fun report t' _ hworld' => Task.execute_keeps hcover trivial hworld'

/-- Between two traces the store has been left alone: no call was made to it,
and any kind of world that all but the store leave alone is still the kind of
the world. -/
structure Spares (e : Executor σ) (t t' : Trace σ) : Prop where
  calls : ∃ inside, t'.calls = t.calls ++ inside
    ∧ ∀ call ∈ inside, ∀ id, call ≠ .store id
  world : ∀ world, e.collaborators.Leave world → world t.world →
    world t'.world

/-- The store is left alone by what comes first, and by what follows. The kind
of world asked for is passed on from one to the other. -/
theorem Spares.trans {t t' t'' : Trace σ} (h : e.Spares t t')
    (h' : e.Spares t' t'') : e.Spares t t'' := by
  obtain ⟨inside, hinside, hcalls⟩ := h.calls
  obtain ⟨inside', hinside', hcalls'⟩ := h'.calls
  constructor
  case calls =>
    refine ⟨inside ++ inside', ?_, fun call hcall => ?_⟩
    · rw [hinside', hinside, List.append_assoc]
    · rcases List.mem_append.1 hcall with hbefore | hafter
      · exact hcalls call hbefore
      · exact hcalls' call hafter
  case world =>
    intro world hleave hworld
    exact h'.world world hleave (h.world world hleave hworld)

/-- What keeps to the terms `storeless` leaves the store alone, whatever kind
of world is asked for. The calls are read off with a kind that every world has
(`leave_true`). -/
theorem spares_of_keeps {α : Type} {x : Execution σ α}
    {result : Except Stop α} {t t' : Trace σ}
    (hkeeps : ∀ world, e.collaborators.Leave world → world t.world →
      x.Keeps (.storeless world) t)
    (h : x t = (result, t')) : e.Spares t t' where
  calls := ((hkeeps _ e.collaborators.leave_true trivial).allow h).calls
  world world hleave hworld := ((hkeeps world hleave hworld).allow h).world

theorem attempt_spares {task : Task} {inputs : Inputs}
    {result : Except Stop Response} {t t' : Trace σ}
    (h : e.attempt task inputs t = (result, t')) : e.Spares t t' :=
  spares_of_keeps (fun _ hleave hworld =>
    attempt_keeps hleave task inputs hworld) h

theorem lookUp_spares {key : String} {t t' : Trace σ}
    {result : Except Stop (Except LookupError (Option Task))}
    (h : e.collaborators.lookUp key t = (result, t')) : e.Spares t t' := by
  refine spares_of_keeps (fun world hleave hworld => ?_) h
  refine consult_keeps (fun id hstore => ?_) (fun _ => trivial)
    (hleave.lookup key t.world hworld)
  cases hstore

-- ===================================================== up to the store

/-- An execution of a task comes to a response, which is offered to the store,
if the attempt at it comes back. One case for each way in which it may: with a
fault or a crash `guarded` makes a response that reports it. -/
theorem execute_explains {task : Task} {inputs : Inputs} {t : Trace σ}
    (hback : (e.attempt task inputs).Settles t) :
    ∃ response before, e.execute task inputs t = e.persist response before
      ∧ e.Explains task inputs t response before ∧ e.Spares t before := by
  rw [execute_eq, bind_apply]
  unfold guarded
  rcases hran : e.attempt task inputs t
    with ⟨(fault | crash | _) | response, before⟩
  · refine ⟨_, before, rfl, .fault hran (Response.reports_failure ?_),
      attempt_spares hran⟩
    refine ⟨"", backtraceMark, ?_⟩
    rw [String.empty_append]
  · refine ⟨_, before, rfl, .crash hran (Response.reports_failure ?_),
      attempt_spares hran⟩
    exact ⟨"panic: ", backtraceMark, rfl⟩
  · exact absurd (congrArg Prod.fst hran) hback
  · exact ⟨response, before, rfl, .own hran, attempt_spares hran⟩

/-- An execution of a task comes back only if the attempt at it does: what is
`guarded` is passed on where its bound is used up. -/
theorem attempt_settles {task : Task} {inputs : Inputs} {t : Trace σ}
    (hback : (e.execute task inputs).Settles t) :
    (e.attempt task inputs).Settles t := by
  rw [execute_eq] at hback
  intro hexhausted
  apply hback.of_bind
  unfold guarded
  rcases hran : e.attempt task inputs t with ⟨stop | response, before⟩
  · rw [hran] at hexhausted
    cases hexhausted
    rfl
  · rw [hran] at hexhausted
    cases hexhausted

/-- What a job by key comes to, by what `lookUp` answers. -/
theorem executeByKey_apply (key : String) (inputs : Inputs) (t : Trace σ) :
    e.executeByKey key inputs t
      = match e.collaborators.lookUp key t with
        | (.ok (.ok (some task)), t') => e.execute task inputs t'
        | (.ok (.ok none), t') =>
          e.refuse key inputs ("Unknown task '" ++ key ++ "'") t'
        | (.ok (.error error), t') =>
          e.refuse key inputs ("Task lookup for '" ++ key ++ "' failed: "
            ++ error.message) t'
        | (.error (.crash crash), t') =>
          e.refuse key inputs
            ("Task lookup for '" ++ key ++ "' panicked: " ++ crash.message
              ++ backtraceMark) t'
        | (.error stop, t') => (.error stop, t') := by
  unfold executeByKey
  rw [bind_apply]
  unfold seek
  rcases e.collaborators.lookUp key t
    with ⟨(fault | crash | _) | error | (_ | task), t'⟩
  all_goals rfl

/-- A job comes to a response, which is offered to the store, if the job comes
back. A job by key is split over the answers of the lookup
(`executeByKey_apply`); where that finds a task, the rest is a job of the
other kind (`execute_explains`). -/
theorem serve_accounts {job : Job} {t : Trace σ}
    (hback : (e.serve job).Settles t) :
    ∃ response before, e.serve job t = e.persist response before
      ∧ e.Accounts job t response before ∧ e.Spares t before := by
  cases job with
  | task task inputs =>
    obtain ⟨response, before, hexecute, hexplains, hspares⟩ :=
      execute_explains (attempt_settles hback)
    exact ⟨response, before, hexecute, .task hexplains, hspares⟩
  | key key inputs =>
    have happly := executeByKey_apply (e := e) key inputs t
    have hconsult : e.collaborators.lookUp key t = _ := consult_apply _ _ t
    rcases hanswer : e.collaborators.lookup key t.world
      with ⟨crash | error | (_ | task), world⟩
    all_goals
      rw [hanswer] at hconsult
      rw [hconsult] at happly
      have hspares := lookUp_spares hconsult
    · refine ⟨_, _, happly,
        .crashed hconsult (Response.reports_failure ?_), hspares⟩
      exact ⟨"Task lookup for '" ++ key ++ "' panicked: ", backtraceMark, rfl⟩
    · refine ⟨_, _, happly,
        .failed hconsult (Response.reports_failure ?_), hspares⟩
      refine ⟨"Task lookup for '" ++ key ++ "' failed: ", "", ?_⟩
      rw [String.append_empty]
    · refine ⟨_, _, happly,
        .unknown hconsult (Response.reports_failure ?_), hspares⟩
      exact ⟨"Unknown task '", "'", rfl⟩
    · obtain ⟨response, before, hexecute, hexplains, hspares'⟩ :=
        execute_explains (attempt_settles (hback.congr happly.symm))
      exact ⟨response, before, happly.trans hexecute,
        .found hconsult hexplains, hspares.trans hspares'⟩

-- =========================================================== the store

/-- A response is offered to the store by one call, unless the store crashes.
Where the store refuses it, the record says so: the two cases of `Offers`. -/
theorem persist_offers {response : Response} {t : Trace σ}
    (hstore : ∃ answer, (e.collaborators.store response t.world).1
      = .ok answer) :
    ∃ record t', e.persist response t = (.ok record, t')
      ∧ t'.calls = t.calls ++ [.store response.header.taskId]
      ∧ e.Offers response t record t' := by
  obtain ⟨answer, hanswer⟩ := hstore
  have hkeep : e.collaborators.keep response t = _ :=
    consult_of_answer hanswer
  obtain ⟨hstored, hcalls⟩ := answer_of_consult hkeep
  unfold persist
  rw [bind_apply, hkeep]
  cases answer with
  | ok record => exact ⟨record, _, rfl, hcalls, .accepted hstored⟩
  | error error => exact ⟨_, _, rfl, hcalls, .refused hanswer rfl rfl⟩

end Executor

/-- The store does not crash. -/
def Collaborators.StoreAnswers (c : Collaborators σ) : Prop :=
  ∀ response world, ∃ answer, (c.store response world).1 = .ok answer

/-- A part of the world is a store in memory, which accepts every response and
which nobody but the store touches. -/
structure Collaborators.StoresIn (c : Collaborators σ)
    (memory : σ → MemoryStore) : Prop where
  store : ∀ response world, ∃ record,
    (c.store response world).1 = .ok (.ok record)
      ∧ memory (c.store response world).2 = (memory world).keep record
  leave : ∀ kept, c.Leave fun world => memory world = kept

namespace Executor

variable {e : Executor σ}

/-- A job that comes back is kept, whatever the store answers. What happens
before the store is `serve_accounts`, the rest `persist_offers`. -/
theorem serve_kept (hstore : e.collaborators.StoreAnswers) {job : Job}
    {t : Trace σ} (hback : (e.serve job).Settles t) :
    ∃ record t', e.serve job t = (.ok record, t')
      ∧ e.Kept job t record t' := by
  obtain ⟨response, before, hserve, haccounts, hspares⟩ :=
    serve_accounts hback
  obtain ⟨record, t', hpersist, hcalls, hoffers⟩ :=
    persist_offers (hstore response before.world)
  obtain ⟨inside, hinside, hnone⟩ := hspares.calls
  exact ⟨record, t', hserve.trans hpersist, response, before, inside,
    haccounts, hinside, hnone, hcalls, hoffers⟩

/-- A store in memory holds one more record after a job, which is the one
returned. What comes before the store leaves the memory as it was
(`Spares.world`), and the store keeps what it accepts. -/
theorem serve_storesIn {memory : σ → MemoryStore}
    (hmemory : e.collaborators.StoresIn memory) {job : Job} {t t' : Trace σ}
    {record : StoredResponse} (h : e.serve job t = (.ok record, t')) :
    memory t'.world = (memory t.world).keep record := by
  obtain ⟨response, before, hserve, -, hspares⟩ :=
    serve_accounts (settles_of_ok h)
  obtain ⟨kept, hkept, hadded⟩ := hmemory.store response before.world
  obtain ⟨record', t'', hpersist, -, hoffers⟩ :=
    persist_offers ⟨.ok kept, hkept⟩
  -- The job has only one outcome, so both accounts of it speak of the same
  -- record.
  obtain ⟨rfl, rfl⟩ : record' = record ∧ t'' = t' := by
    have hsame := h.symm.trans (hserve.trans hpersist)
    cases hsame
    exact ⟨rfl, rfl⟩
  have hbefore := hspares.world _ (hmemory.leave (memory t.world)) rfl
  cases hoffers with
  | accepted answered =>
    rw [answered] at hkept hadded
    cases hkept
    rw [hadded, hbefore]
  | refused answered same unpersisted =>
    rw [answered] at hkept
    cases hkept

/-- Each of some jobs that come back, whatever goes wrong in them, is kept as
one record, in turn: what the response is can be accounted for, it has been
offered to the store once, as the last thing of the job, and the record
returned is what came of that. A store in memory then holds these records
after those that it held before.

By induction on the jobs. The first one is `Kept` (`serve_kept`) and leaves
one record in the store (`serve_storesIn`); the others begin where it ends. -/
theorem serveAll_keeps_one_record_each (hstore : e.collaborators.StoreAnswers)
    {jobs : List Job} {t : Trace σ} (hback : (e.serveAll jobs).Settles t) :
    ∃ records t', e.serveAll jobs t = (.ok records, t')
      ∧ records.length = jobs.length
      ∧ e.KeptInTurn jobs t records t'
      ∧ ∀ memory, e.collaborators.StoresIn memory →
          memory t'.world = ⟨(memory t.world).records ++ records⟩ := by
  unfold serveAll at hback ⊢
  induction jobs generalizing t with
  | nil =>
    refine ⟨[], t, rfl, rfl, .nil t, fun memory _ => ?_⟩
    rw [List.append_nil]
  | cons job rest ih =>
    rw [List.mapM_cons] at hback ⊢
    -- The first job comes back because all of them together do.
    obtain ⟨record, t₁, hserve, hkept⟩ := serve_kept hstore hback.of_bind
    have hrest := (hback.of_bind_ok hserve).of_bind
    obtain ⟨records, t', hserved, hlength, hturn, hmemory⟩ := ih hrest
    refine ⟨record :: records, t', ?_, ?_, .cons hkept hturn,
      fun memory hstores => ?_⟩
    · rw [bind_apply, hserve]
      dsimp only
      rw [bind_apply, hserved]
      rfl
    · rw [List.length_cons, List.length_cons, hlength]
    · rw [hmemory memory hstores, serve_storesIn hstores hserve,
        MemoryStore.keep, List.append_assoc]
      rfl

/-- Collaborators with a store in memory. One agent crashes, the others say
their names, and one task is known by name. -/
def recording : Collaborators MemoryStore :=
  { Collaborators.among
      (fun agent _ store =>
        if agent.name = "broken" then .crash ⟨some "exploded"⟩ store
        else .saying agent.name store)
      (fun name => if name = "second" then some (.prompt (.asking "second"))
        else none) with
    store := fun response store =>
      let record := ⟨.ofSerial 0, Instant.epoch, true, response⟩
      (.ok (.ok record), store.keep record) }

/-- A workflow that ends well, a task whose agent crashes and a key under
which nothing is known leave three records in a store in memory. -/
theorem three_jobs_keep_records :
    let e : Executor MemoryStore := ⟨recording, false, 5⟩
    let jobs := [
      Job.task (.workflow .relay) [],
      .task (.prompt (.asking "broken")) [],
      .key "nobody" []]
    recording.StoreAnswers ∧ recording.StoresIn id
      ∧ (e.serveAll jobs).Settles (.start .empty)
      ∧ ∃ records t', e.serveAll jobs (.start .empty) = (.ok records, t')
        ∧ records.length = 3
        ∧ e.KeptInTurn jobs (.start .empty) records t'
        ∧ t'.world.records = records := by
  intro e jobs
  have hanswers : recording.StoreAnswers := fun response store => ⟨_, rfl⟩
  have hstores : recording.StoresIn id := by
    refine ⟨fun response store => ⟨_, rfl, rfl⟩, fun kept => ?_⟩
    constructor
    case agent =>
      intro agent request store hstore
      show (if agent.name = "broken" then _
        else _ : Conversation MemoryStore).Stays _
      split
      · exact hstore
      · exact hstore
    case health => exact fun _ _ hstore => hstore
    case config => exact fun _ _ hstore => hstore
    case lookup => exact fun _ _ hstore => hstore
  have hends : (e.serveAll jobs (.start .empty)).1.toOption.map List.length
      = some 3 := rfl
  have hback : (e.serveAll jobs).Settles (.start .empty) := by
    intro hexhausted
    rw [hexhausted] at hends
    cases hends
  obtain ⟨records, t', hserved, hlength, hturn, hmemory⟩ :=
    serveAll_keeps_one_record_each (e := e) hanswers hback
  refine ⟨hanswers, hstores, hback, records, t', hserved, hlength, hturn, ?_⟩
  have hheld := hmemory id hstores
  exact congrArg MemoryStore.records hheld

end Executor

end TaskRouting

import TaskRouting.Proofs.Chronicle
import TaskRouting.Proofs.Refinement
import TaskRouting.Proofs.Setting
import TaskRouting.Proofs.Upholding
/-!
Where faults come from.

# Replies

Collaborators that are recorded write down what they are asked and what they
answer (`Collaborators.recorded`, `Reply`). That disturbs nobody
(`recorded_refines`), so what is written down in an execution among them are
the answers that are given in the same execution among the collaborators
themselves.

# The invariant

`Reply.Account` ties what has stopped an execution to the replies so far: the
last one is an error if a fault has stopped it, and no other one is. One more
reply keeps it, if it is an error exactly where that is a fault
(`Reply.account_concat`), which `fault?_lookup_iff` and `fault?_config_iff`
say of the two collaborators whose errors are faults. `Kept` adds that the
replies are those to the calls of the trace.

`Uphold` reduces the whole execution to what each collaborator does with
`Kept` (`recorded_uphold`). Where agents call no tools, a conversation is one
reply, which is never an error.

# Faults

An execution is stopped by a fault exactly if the lookup or the registry has
answered with an error; the fault is that error, it passes through all
workflows under way as it is, and after it nobody is called any more
(`fault_iff_error_answered`). Both directions are `Account` read at the end of
the execution (`Account.fault_iff`).
-/

namespace TaskRouting

open Execution

variable {σ α : Type}

-- ============================================================= replies

/-- Somebody who has been called, and the answer. What agents say is not
written down. -/
inductive Reply where
  | lookup (name : String)
      (answer : Except Crash (Except LookupError (Option Task)))
  | config (api : String) (answer : Except Crash (Except ApiError ApiConfig))
  | agent (agent : Agent) (request : Request)

namespace Reply

/-- The call that is answered. -/
def call : Reply → Call
  | lookup name _ => .lookup name
  | config api _ => .config api
  | agent who request => .ask who request

/-- The error with which the lookup or the registry has answered, wrapped in a
fault. -/
def fault? : Reply → Option Fault
  | lookup _ (.ok (.error error)) => some (.lookup error)
  | config _ (.ok (.error error)) => some (.api error)
  | _ => none

/-- What has stopped an execution is accounted for by the replies: the last
one is an error if a fault has stopped it, and no other one is. -/
def Account (replies : List Reply) : Option Stop → Prop
  | some (.fault fault) =>
    ∃ before last, replies = before ++ [last] ∧ last.fault? = some fault
      ∧ ∀ reply ∈ before, reply.fault? = none
  | _ => ∀ reply ∈ replies, reply.fault? = none

/-- An answer of the lookup is an error exactly where it stops with a fault:
`fault?` and `Stop.ofAnswer?` wrap it alike. -/
theorem fault?_lookup_iff {name : String}
    {answer : Except Crash (Except LookupError (Option Task))}
    {fault : Fault} :
    (lookup name answer).fault? = some fault
      ↔ Stop.ofAnswer? .lookup answer = some (.fault fault) := by
  rcases answer with why | error | found
  all_goals simp [fault?, Stop.ofAnswer?]

/-- An answer of the registry is an error exactly where it stops with a
fault. -/
theorem fault?_config_iff {api : String}
    {answer : Except Crash (Except ApiError ApiConfig)} {fault : Fault} :
    (config api answer).fault? = some fault
      ↔ Stop.ofAnswer? .api answer = some (.fault fault) := by
  rcases answer with why | error | config
  all_goals simp [fault?, Stop.ofAnswer?]

/-- One more reply accounts for what stops an execution after it if it is an
error exactly where that is a fault. Only an execution that goes on is replied
to, so that there is no error among the replies before. -/
theorem account_concat {replies : List Reply} {last : Reply}
    {stop : Option Stop} (hbefore : ∀ reply ∈ replies, reply.fault? = none)
    (hlast : ∀ fault, last.fault? = some fault ↔ stop = some (.fault fault)) :
    Account (replies ++ [last]) stop := by
  have hclean : (∀ fault, stop ≠ some (.fault fault)) →
      ∀ reply ∈ replies ++ [last], reply.fault? = none := by
    intro hnone reply hreply
    rcases List.mem_append.1 hreply with hreply | hreply
    · exact hbefore reply hreply
    · rw [List.mem_singleton.1 hreply]
      exact Option.eq_none_iff_forall_ne_some.2 fun fault hfault =>
        hnone fault ((hlast fault).1 hfault)
  -- Only a fault has an error for its last reply; in the other cases there is
  -- none at all.
  rcases stop with _ | fault | why | _
  · exact hclean fun _ h => nomatch h
  · exact ⟨replies, last, rfl, (hlast fault).2 rfl, hbefore⟩
  · exact hclean fun _ h => nomatch h
  · exact hclean fun _ h => nomatch h

/-- Where replies `Account` for what an execution has come to, a fault has
stopped it exactly if it is among them. An execution that has ended otherwise
has no error among its replies. -/
theorem Account.fault_iff {replies : List Reply} {result : Except Stop α}
    {fault : Fault} (h : Account replies (Stop.of? result)) :
    result = .error (.fault fault)
      ↔ ∃ reply ∈ replies, reply.fault? = some fault := by
  constructor
  · rintro rfl
    obtain ⟨before, last, rfl, hlast, -⟩ := h
    exact ⟨last, List.mem_append_right _ (List.mem_singleton_self _), hlast⟩
  · rintro ⟨reply, hreply, hfault⟩
    rcases result with (stopped | why | _) | a
    · obtain ⟨before, last, rfl, hlast, hbefore⟩ := h
      rcases List.mem_append.1 hreply with hreply | hreply
      · rw [hbefore reply hreply] at hfault
        cases hfault
      · rw [List.mem_singleton.1 hreply, hlast] at hfault
        cases hfault
        rfl
    all_goals
      rw [h reply hreply] at hfault
      cases hfault

end Reply

-- ============================================== recorded collaborators

namespace Collaborators

/-- The same collaborators, who write down what they are asked by executions
and what they answer. -/
def recorded (c : Collaborators σ) : Collaborators (σ × List Reply) where
  agent agent request w :=
    (c.agent agent request w.1).beside (w.2 ++ [.agent agent request])
  health api := noting (fun _ => []) (c.health api)
  config api := noting (fun answer => [.config api answer]) (c.config api)
  lookup name := noting (fun answer => [.lookup name answer]) (c.lookup name)
  store response := noting (fun _ => []) (c.store response)
  cancelled w := c.cancelled w.1
  clock w := c.clock w.1
  freshId := noting (fun _ => []) c.freshId

variable {c : Collaborators σ}

/-- Being `recorded` changes nothing: each collaborator answers as before and
leaves the same world, with the replies beside it (`noting_answersAs`). -/
theorem recorded_refines : c.recorded.Refines Prod.fst c where
  agent _ _ _ := Conversation.beside_refines _ _
  config _ := noting_answersAs _ _
  lookup _ := noting_answersAs _ _
  cancelled _ := rfl
  clock _ := rfl

/-- The replies beside the world are those to all calls that have been made
since a certain trace, and they `Account` for what has stopped the
execution. -/
structure Kept (made : List Call) (stop : Option Stop)
    (t : Trace (σ × List Reply)) : Prop where
  calls : t.calls = made ++ t.world.2.map Reply.call
  account : Reply.Account t.world.2 stop

/-- A reply is kept, whoever has given it. The calls grow by the one that is
replied to, and the account by `account_concat`. -/
theorem Kept.concat {made : List Call} {t : Trace (σ × List Reply)}
    (h : Kept made none t) (last : Reply) (world : σ) {stop : Option Stop}
    (hlast : ∀ fault, last.fault? = some fault ↔ stop = some (.fault fault)) :
    Kept made stop { t.call last.call
      with world := (world, t.world.2 ++ [last]) } := by
  constructor
  · show (t.call last.call).calls
      = made ++ (t.world.2 ++ [last]).map Reply.call
    rw [Trace.calls_call, h.calls, List.map_append, List.append_assoc]
    rfl
  · exact Reply.account_concat h.account hlast

/-- Recorded collaborators keep their replies (`Kept.concat` for each). Those
to the lookup and to the registry may be faults; what an agent says is none,
and without tools it says it at once. -/
theorem recorded_uphold (hfree : c.ToolFree) (made : List Call) :
    c.recorded.Uphold (Kept made) where
  exhausted _ h := ⟨h.calls, h.account⟩
  lookup name t h :=
    h.concat (.lookup name (c.lookup name t.world.1).1) _ fun _ =>
      Reply.fault?_lookup_iff
  config api t h :=
    h.concat (.config api (c.config api t.world.1).1) _ fun _ =>
      Reply.fault?_config_iff
  agent agent request t h := by
    have hasked : ∀ world, Kept made none
        { t.call (.ask agent request)
          with world := (world, t.world.2 ++ [.agent agent request]) } :=
      fun world => h.concat (.agent agent request) world fun _ =>
        ⟨fun hfault => (nomatch hfault), fun hstop => (nomatch hstop)⟩
    have hplain : (c.agent agent request t.world.1).Plain :=
      hfree agent request t.world.1
    show ((c.agent agent request t.world.1).beside _).Upholds _ _
    cases htalk : c.agent agent request t.world.1 with
    | answer result world => exact hasked world
    | crash why world => exact ⟨(hasked world).calls, (hasked world).account⟩
    | callTool name inputs world resume =>
      rw [htalk] at hplain
      cases hplain

end Collaborators

-- ============================================================== faults

/-- Collaborators whose agents say their names, and whose lookup is broken. -/
def Collaborators.astray : Collaborators σ :=
  { Collaborators.echoing with
    lookup := fun name world =>
      (.ok (.error (.failed name "unreachable")), world) }

namespace Task

variable {c : Collaborators σ} {n : Nat} {context : Context} {task : Task}
  {inputs : Inputs} {t t' : Trace σ} {result : Except Stop Response}

/-- An execution among recorded collaborators is the execution among the
collaborators themselves, with the replies to all calls beside it. That the
results agree is `execute_refines`, and that the replies account for them is
`execute_upholds`, each used once and for the same execution. -/
theorem execute_recorded (hfree : c.ToolFree)
    (h : execute c n context task inputs t = (result, t')) :
    ∃ replies,
      execute c.recorded n context task inputs ⟨(t.world, []), t.made⟩
        = (result, ⟨(t'.world, replies), t'.made⟩)
      ∧ t'.calls = t.calls ++ replies.map Reply.call
      ∧ Reply.Account replies (Stop.of? result) := by
  have hsame := execute_refines (Collaborators.recorded_refines (c := c)) n
    context task inputs ⟨(t.world, []), t.made⟩
  have hupholds : (execute c.recorded n context task inputs).Upholds
      (Collaborators.Kept t.calls) :=
    execute_upholds (Collaborators.recorded_uphold hfree t.calls)
  have hkept := hupholds ⟨(t.world, []), t.made⟩
    ⟨(List.append_nil _).symm, fun _ hreply => nomatch hreply⟩
  rcases hends : execute c.recorded n context task inputs
    ⟨(t.world, []), t.made⟩
    with ⟨result', ⟨world, replies⟩, made⟩
  rw [hends] at hsame hkept
  cases h.symm.trans hsame
  exact ⟨replies, rfl, hkept.calls, hkept.account⟩

/-- Where agents call no tools, an execution is stopped by a fault exactly if
the lookup or the registry has answered with that error, and then nobody has
been called after it.

The replies are those that `recorded` collaborators have written down
(`execute_recorded`), and they account for what has stopped the execution
(`Account.fault_iff`). -/
theorem fault_iff_error_answered (hfree : c.ToolFree)
    (h : execute c n context task inputs t = (result, t')) :
    ∃ replies,
      execute c.recorded n context task inputs ⟨(t.world, []), t.made⟩
        = (result, ⟨(t'.world, replies), t'.made⟩)
      ∧ t'.calls = t.calls ++ replies.map Reply.call
      ∧ (∀ fault, result = .error (.fault fault)
          ↔ ∃ reply ∈ replies, reply.fault? = some fault)
      ∧ ∀ fault, result = .error (.fault fault) →
          ∃ before last, replies = before ++ [last] ∧ last.fault? = some fault
            ∧ ∀ reply ∈ before, reply.fault? = none := by
  obtain ⟨replies, hrecorded, hcalls, haccount⟩ := execute_recorded hfree h
  refine ⟨replies, hrecorded, hcalls, fun fault => haccount.fault_iff, ?_⟩
  rintro fault rfl
  exact haccount

/-- The errand is stopped where the relay inside it looks up its second task:
the agent of the first one has been asked before, and nobody is called
afterwards. -/
theorem errand_stopped_by_lookup :
    ∃ (fault : Fault) (t' : Trace Unit) (before : List Reply) (last : Reply),
      fault = .lookup (.failed "second" "unreachable")
      ∧ Collaborators.ToolFree (Collaborators.astray : Collaborators Unit)
      ∧ execute .astray 5 (.fresh false) (.workflow .errand) [] (.start ())
          = (.error (.fault fault), t')
      ∧ t'.calls = (before ++ [last]).map Reply.call ∧ before.length = 1
      ∧ last.fault? = some fault ∧ ∀ reply ∈ before, reply.fault? = none := by
  have hstopped :
      (execute .astray 5 (.fresh false) (.workflow .errand) [] (.start ())).1
        = .error (.fault (.lookup (.failed "second" "unreachable"))) := rfl
  have hcalled :
      (execute .astray 5 (.fresh false) (.workflow .errand) []
        (.start ())).2.calls.length = 2 := rfl
  have hfree : Collaborators.ToolFree
      (Collaborators.astray : Collaborators Unit) :=
    fun _ _ _ => trivial
  rcases hruns : execute .astray 5 (.fresh false) (.workflow .errand) []
    (.start ()) with ⟨result, t'⟩
  rw [hruns] at hstopped hcalled
  obtain rfl : result = _ := hstopped
  obtain ⟨replies, -, hcalls, -, hends⟩ :=
    fault_iff_error_answered hfree hruns
  obtain ⟨before, last, rfl, hlast, hbefore⟩ := hends _ rfl
  refine ⟨_, t', before, last, rfl, hfree, rfl, hcalls, ?_, hlast, hbefore⟩
  rw [hcalls] at hcalled
  simpa using hcalled

end Task

end TaskRouting

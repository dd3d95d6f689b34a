import TaskRouting.Proofs.Setting
import TaskRouting.Proofs.Survey
/-!
What a check of availability reports.

# The calls of a check

A check first surveys which APIs a task depends on, and then asks each of them
for its health. That a survey looks up names and does nothing else is said on
terms (`Terms.Surveys`), so that the same induction on the visit
(`Survey.visit_keeps`) serves for the calls of a check here and for what an
executor does before it runs a task. Asking goes through the names once, in
their order: `Asked` has one step for each question, with the answer in the
finding.

# The worst finding

The status of a report is found by going through the findings from `ok`.
`ApiStatus.foldl_worse` is the invariant of that, by induction on the
findings, from whatever status it begins; `ApiStatus.WorstOf` is what remains
of it in the end (`worstOf_ofFindings`). A report without findings is one of
its cases, and says that all is well.

# The report

The survey has met the APIs that are required by the task or by one to which
it leads (`Survey.exists_visit`). So the report has one finding for each of
them, with what the registry has answered, and its status is the worst one
found (`checkAvailability_reports_reachable`).
-/

namespace TaskRouting

open Execution

variable {σ : Type} {c : Collaborators σ} {catalog : Catalog} {root : Task}

-- =================================================== calls in a survey

section Keeping

variable {terms : Terms σ}

/-- Terms that allow names to be looked up allow surveys. -/
structure Terms.Surveys (terms : Terms σ) (c : Collaborators σ) : Prop where
  exhausted : terms.stop .exhausted
  crash : ∀ crash, terms.stop (.crash crash)
  lookup : ∀ name world, terms.world world →
    terms.call (.lookup name) ∧ terms.world (c.lookup name world).2

/-- A survey keeps to terms that allow names to be looked up. By induction on
how deep the visit may go: tools and sub-tasks are visited inside one of its
layers (`foldlM_keeps`), and so is whatever is found for a name that the
workflow does not own. No other collaborator is called on the way. -/
theorem Survey.visit_keeps (hterms : terms.Surveys c) :
    ∀ {n : Nat} {task : Task} {s : Survey} {t : Trace σ},
      terms.world t.world →
      (visit c n task s).Keeps terms t := by
  intro n
  induction n with
  | zero =>
    intro task s t hworld
    exact keeps_stop hterms.exhausted hworld
  | succ n ih =>
    intro task s t hworld
    have heach : ∀ (tasks : List Task) s t, terms.world t.world →
        (each (visit c n) tasks s).Keeps terms t :=
      fun tasks s t hworld =>
        foldlM_keeps (fun task _ s t hworld => ih hworld) hworld
    cases hasks : task.prompt? with
    | some p =>
      rw [visit_of_asks hasks]
      exact heach _ _ t hworld
    | none =>
      cases task with
      | prompt p => cases hasks
      | check k => cases hasks
      | workflow w =>
        by_cases hseen : w.key ∈ s.visited
        · rw [visit_of_seen hseen]
          exact keeps_pure hworld
        · rw [visit_of_fresh hseen]
          refine Keeps.bind (heach _ _ t hworld) fun s₁ t₁ _ hworld₁ => ?_
          refine foldlM_keeps (fun name _ s₂ t₂ hworld₂ => ?_) hworld₁
          obtain ⟨hcall, hafter⟩ := hterms.lookup name t₂.world hworld₂
          refine Keeps.bind (consult_keeps hcall hterms.crash hafter)
            fun answer t₃ _ hworld₃ => ?_
          rcases answer with error | (_ | task)
          · exact keeps_pure hworld₃
          · exact keeps_pure hworld₃
          · exact ih hworld₃

/-- A check keeps to terms that allow surveys and questions for health: a
survey first, then one question after the other. -/
theorem checkAvailability_keeps (hterms : terms.Surveys c)
    (hhealth : ∀ api world, terms.world world →
      terms.call (.health api) ∧ terms.world (c.health api world).2)
    {n : Nat} {t : Trace σ} (hworld : terms.world t.world) :
    (checkAvailability c n root).Keeps terms t := by
  unfold checkAvailability
  refine Keeps.bind (Survey.visit_keeps hterms hworld)
    fun survey t₁ _ hworld₁ => ?_
  refine Keeps.bind (mapM_keeps (fun api _ t hworld => ?_) hworld₁) ?_
  · obtain ⟨hcall, hafter⟩ := hhealth api t.world hworld
    refine Keeps.bind (consult_keeps hcall hterms.crash hafter) ?_
    exact fun health t' _ hworld' => keeps_pure hworld'
  · exact fun findings t₂ _ hworld₂ => keeps_pure hworld₂

end Keeping

/-- All calls of a survey look up names: `visit_keeps` for terms that allow
nothing else. -/
theorem Survey.calls_of_visit {n : Nat} {task : Task} {s s' : Survey}
    {t t' : Trace σ} (h : visit c n task s t = (.ok s', t')) :
    ∃ looked, t'.calls = t.calls ++ looked
      ∧ ∀ call ∈ looked, ∃ name, call = .lookup name := by
  let lookups : Terms σ :=
    ⟨fun call => ∃ name, call = .lookup name, fun _ => True, fun _ => True⟩
  have hsurveys : lookups.Surveys c :=
    ⟨trivial, fun _ => trivial, fun name _ _ => ⟨⟨name, rfl⟩, trivial⟩⟩
  have hkeeps : (visit c n task s).Keeps lookups t :=
    visit_keeps hsurveys trivial
  exact (hkeeps.allow h).calls

-- ================================================ questions for health

/-- APIs have been asked for their health one after the other, and each of the
findings holds the answer of its API. -/
inductive Asked (c : Collaborators σ) :
    Trace σ → List ApiFinding → Trace σ → Prop where
  | nil (t : Trace σ) : Asked c t [] t
  | cons {finding : ApiFinding} {findings : List ApiFinding}
      {t t' t'' : Trace σ}
      (answered : c.askHealth finding.api t
        = (.ok ⟨finding.status, finding.message⟩, t'))
      (rest : Asked c t' findings t'') : Asked c t (finding :: findings) t''

/-- Every API is ready to say whether it can be used. -/
def Collaborators.TellsHealth (c : Collaborators σ) : Prop :=
  ∀ api world, ∃ health, (c.health api world).1 = .ok health

/-- An API that is ready to say whether it can be used is asked with an
answer. -/
theorem Collaborators.TellsHealth.askHealth (h : c.TellsHealth) (api : String)
    (t : Trace σ) : ∃ health t', c.askHealth api t = (.ok health, t') := by
  obtain ⟨health, hanswer⟩ := h api t.world
  exact ⟨health, _, consult_of_answer hanswer⟩

/-- Questions for health make one call each. By induction on the questions;
`answer_of_consult` tells of each. -/
theorem Asked.calls {findings : List ApiFinding} {t t' : Trace σ}
    (h : Asked c t findings t') :
    t'.calls
      = t.calls ++ findings.map fun finding => .health finding.api := by
  induction h with
  | nil t => exact (List.append_nil _).symm
  | cons answered _ ih =>
    obtain ⟨-, hcalls⟩ := answer_of_consult answered
    rw [ih, hcalls, List.append_assoc]
    rfl

/-- One finding for each of some APIs, in their order. By induction on the
APIs, from whatever trace: the one before may have changed the world. -/
theorem asked_of_tellsHealth (h : c.TellsHealth) {apis : List String} :
    ∀ {t : Trace σ}, ∃ findings t',
      (apis.mapM fun api => do
        let health ← c.askHealth api
        return (⟨api, health.status, health.message⟩ : ApiFinding)) t
          = (.ok findings, t')
      ∧ findings.map (·.api) = apis ∧ Asked c t findings t' := by
  induction apis with
  | nil => exact fun {t} => ⟨[], t, rfl, rfl, .nil t⟩
  | cons api rest ih =>
    intro t
    obtain ⟨health, t₁, hasked⟩ := h.askHealth api t
    obtain ⟨findings, t₂, hrest, hnames, hanswers⟩ := ih (t := t₁)
    refine ⟨⟨api, health.status, health.message⟩ :: findings, t₂, ?_, ?_,
      .cons hasked hanswers⟩
    · rw [List.mapM_cons, bind_apply, bind_apply, hasked]
      dsimp only
      rw [pure_apply]
      dsimp only
      rw [bind_apply, hrest]
      rfl
    · rw [List.map_cons, hnames]

-- =================================================== the worst finding

namespace ApiStatus

theorem rank_worse (a b : ApiStatus) :
    (a.worse b).rank = max a.rank b.rank := by
  unfold worse
  by_cases h : a.rank ≤ b.rank
  · rw [if_pos h, Nat.max_eq_right h]
  · rw [if_neg h, Nat.max_eq_left (Nat.le_of_not_le h)]

theorem worse_eq_or (a b : ApiStatus) : a.worse b = a ∨ a.worse b = b := by
  unfold worse
  by_cases h : a.rank ≤ b.rank
  · exact Or.inr (if_pos h)
  · exact Or.inl (if_neg h)

end ApiStatus

/-- A status is the worst of some findings: none of them has a greater `rank`,
and it is that of one of them, or there is none and all is well. -/
structure ApiStatus.WorstOf (status : ApiStatus)
    (findings : List ApiFinding) : Prop where
  bounds : ∀ finding ∈ findings, finding.status.rank ≤ status.rank
  attained : (∃ finding ∈ findings, finding.status = status)
    ∨ findings = [] ∧ status = .ok

/-- Going on from a status, the worst one is no better than it and no better
than any of the findings, and is one of them. By induction on the findings,
for all statuses to go on from; `worse` is a maximum by rank
(`rank_worse`). -/
theorem ApiStatus.foldl_worse (findings : List ApiFinding)
    (worst : ApiStatus) :
    worst.rank
      ≤ (findings.foldl (fun worst f => worst.worse f.status) worst).rank
      ∧ (∀ f ∈ findings, f.status.rank
          ≤ (findings.foldl (fun worst f => worst.worse f.status) worst).rank)
      ∧ (findings.foldl (fun worst f => worst.worse f.status) worst = worst
          ∨ ∃ f ∈ findings, f.status
              = findings.foldl (fun worst f => worst.worse f.status)
                worst) := by
  induction findings generalizing worst with
  | nil => exact ⟨Nat.le_refl _, fun f hf => (nomatch hf), Or.inl rfl⟩
  | cons first rest ih =>
    obtain ⟨hworst, hbounds, hattained⟩ := ih (worst.worse first.status)
    rw [rank_worse] at hworst
    rw [List.foldl_cons]
    refine ⟨by omega, fun f hf => ?_, ?_⟩
    · rcases List.mem_cons.1 hf with rfl | hf
      · omega
      · exact hbounds f hf
    · rcases hattained with hsame | ⟨f, hf, hfound⟩
      · rw [hsame]
        rcases worse_eq_or worst first.status with h | h
        · exact Or.inl h
        · exact Or.inr ⟨first, List.mem_cons_self, h.symm⟩
      · exact Or.inr ⟨f, List.mem_cons_of_mem _ hf, hfound⟩

/-- Nothing ranks below all being well. -/
theorem ApiStatus.eq_ok_of_rank_le {status : ApiStatus}
    (h : status.rank ≤ ok.rank) : status = ok := by
  cases status with
  | ok => rfl
  | warning => exact absurd h (by decide)
  | error => exact absurd h (by decide)

/-- Nothing ranks above an error. -/
theorem ApiStatus.eq_error_of_rank_le {status : ApiStatus}
    (h : error.rank ≤ status.rank) : status = error := by
  cases status with
  | ok => exact absurd h (by decide)
  | warning => exact absurd h (by decide)
  | error => rfl

/-- The status of a report is the worst of its findings. The fold begins with
`ok`, which none of them need have said: if there are some, the first has. -/
theorem AvailabilityReport.worstOf_ofFindings (findings : List ApiFinding) :
    (ofFindings findings).status.WorstOf findings := by
  obtain ⟨-, hbounds, hattained⟩ := ApiStatus.foldl_worse findings .ok
  refine ⟨hbounds, ?_⟩
  cases findings with
  | nil => exact Or.inr ⟨rfl, rfl⟩
  | cons first rest =>
    rcases hattained with hok | hfound
    · -- Where all is well the first finding says so, too.
      have hfirst := hbounds first List.mem_cons_self
      rw [hok] at hfirst
      exact Or.inl ⟨first, List.mem_cons_self,
        (ApiStatus.eq_ok_of_rank_le hfirst).trans hok.symm⟩
    · exact Or.inl hfound

-- ========================================================== the report

/-- The APIs of which a report tells. -/
def AvailabilityReport.names (r : AvailabilityReport) : List String :=
  r.findings.map (·.api)

/-- After the survey all of its APIs are asked, in the order of
`Table.keys`. -/
theorem checkAvailability_of_visit (hhealth : c.TellsHealth) {n : Nat}
    {survey : Survey} {t t₁ : Trace σ}
    (hvisit : Survey.visit c n root .empty t = (.ok survey, t₁)) :
    ∃ report t', checkAvailability c n root t = (.ok report, t')
      ∧ report.names = survey.apis.keys ∧ Asked c t₁ report.findings t'
      ∧ report.status.WorstOf report.findings := by
  obtain ⟨findings, t', hasks, hnames, hasked⟩ :=
    asked_of_tellsHealth hhealth (t := t₁)
  refine ⟨.ofFindings findings, t', ?_, hnames, hasked,
    AvailabilityReport.worstOf_ofFindings findings⟩
  unfold checkAvailability
  rw [bind_apply, hvisit]
  dsimp only
  rw [bind_apply, hasks]
  rfl

/-- A check of a task ends, and reports one finding for each API that is
required by the task or by one to which it leads, in ascending order. After a
survey that has only looked up names, each of them has been asked for its
health once; and the status is the worst one found.

`Survey.exists_visit` ends the survey and tells its APIs,
`Survey.calls_of_visit` its calls, and `checkAvailability_of_visit` the
questions after it. -/
theorem checkAvailability_reports_reachable (hlookup : c.LooksUpIn catalog)
    (hhealth : c.TellsHealth) (htell : catalog.KeysTell root) :
    ∃ bound, ∀ n, bound ≤ n → ∀ t : Trace σ, ∃ report looked t₁ t',
      checkAvailability c n root t = (.ok report, t')
      ∧ report.names.Pairwise (· < ·)
      ∧ (∀ api, api ∈ report.names ↔ catalog.Requires root api)
      ∧ t₁.calls = t.calls ++ looked
      ∧ (∀ call ∈ looked, ∃ name, call = .lookup name)
      ∧ Asked c t₁ report.findings t'
      ∧ t'.calls = t₁.calls ++ report.names.map .health
      ∧ report.status.WorstOf report.findings := by
  obtain ⟨bound, hbound⟩ := Survey.exists_visit hlookup htell
  refine ⟨bound, fun n hn t => ?_⟩
  obtain ⟨survey, t₁, hvisit, hascending, hrequired⟩ := hbound n hn t
  -- The calls before the questions are all lookups, whatever has been met.
  obtain ⟨looked, hlooked, hlookups⟩ := Survey.calls_of_visit hvisit
  obtain ⟨report, t', hcheck, hnames, hasked, hworst⟩ :=
    checkAvailability_of_visit hhealth hvisit
  refine ⟨report, looked, t₁, t', hcheck, ?_, fun api => ?_, hlooked,
    hlookups, hasked, ?_, hworst⟩
  · rw [hnames]
    exact List.pairwise_map.2 hascending
  · rw [hnames]
    exact hrequired api
  · unfold AvailabilityReport.names
    rw [List.map_map]
    exact hasked.calls

/-- What the first of two workflows that hand over to each other leads to: the
two of them and their prompts. By induction on the path of `Reaches`, with the
four tasks as the invariant. -/
theorem reaches_rally {task : Task}
    (h : Catalog.rally.Reaches
      (.workflow (.handing "ping" "serve" "mail" "pong")) task) :
    task ∈ [
      Task.workflow (.handing "ping" "serve" "mail" "pong"),
      .workflow (.handing "pong" "return" "calendar" "ping"),
      .prompt (.needing "serve" "mail"),
      .prompt (.needing "return" "calendar")] := by
  induction h with
  | refl => exact List.mem_cons_self
  | tail _ hleads ih =>
    simp only [List.mem_cons, List.not_mem_nil, or_false] at ih ⊢
    rcases ih with rfl | rfl | rfl | rfl
    · cases hleads with
      | subtask mem =>
        cases List.mem_singleton.1 mem
        exact Or.inr (Or.inr (Or.inl rfl))
      | tool asks may mem => cases asks
      | target routed foreign known =>
        cases List.mem_singleton.1 routed
        cases known
        exact Or.inr (Or.inl rfl)
    · cases hleads with
      | subtask mem =>
        cases List.mem_singleton.1 mem
        exact Or.inr (Or.inr (Or.inr rfl))
      | tool asks may mem => cases asks
      | target routed foreign known =>
        cases List.mem_singleton.1 routed
        cases known
        exact Or.inl rfl
    all_goals
      cases hleads with
      | tool asks may mem =>
        cases asks
        cases may

/-- Workflows that hand over to each other are surveyed once, and the APIs of
both are reported. -/
theorem rally_reports_reachable :
    (Collaborators.serving (σ := Unit) .rally []).LooksUpIn .rally
      ∧ (Collaborators.serving (σ := Unit) .rally []).TellsHealth
      ∧ Catalog.rally.KeysTell
        (.workflow (.handing "ping" "serve" "mail" "pong"))
      ∧ ∃ n report t',
          checkAvailability (Collaborators.serving .rally []) n
              (.workflow (.handing "ping" "serve" "mail" "pong")) (.start ())
            = (.ok report, t')
          ∧ "mail" ∈ report.names ∧ "calendar" ∈ report.names
          ∧ report.status.WorstOf report.findings := by
  have hlookup : (Collaborators.serving (σ := Unit) .rally []).LooksUpIn
      .rally := fun _ _ => rfl
  have hhealth : (Collaborators.serving (σ := Unit) .rally []).TellsHealth :=
    fun _ _ => ⟨_, rfl⟩
  -- Only two workflows are reached, and their keys differ.
  have htell : Catalog.rally.KeysTell
      (.workflow (.handing "ping" "serve" "mail" "pong")) := by
    intro w w' hreach hreach' hkey
    have hw := reaches_rally hreach
    have hw' := reaches_rally hreach'
    simp only [List.mem_cons, List.not_mem_nil, or_false, Task.workflow.injEq,
      reduceCtorEq] at hw hw'
    rcases hw with rfl | rfl
    · rcases hw' with rfl | rfl
      · rfl
      · exact absurd hkey (by decide)
    · rcases hw' with rfl | rfl
      · exact absurd hkey (by decide)
      · rfl
  obtain ⟨bound, hbound⟩ :=
    checkAvailability_reports_reachable hlookup hhealth htell
  obtain ⟨report, -, -, t', hcheck, -, hnames, -, -, -, -, hworst⟩ :=
    hbound bound (Nat.le_refl bound) (.start ())
  have hserve : Catalog.rally.Leads
      (.workflow (.handing "ping" "serve" "mail" "pong"))
      (.prompt (.needing "serve" "mail")) :=
    .subtask (List.mem_singleton.2 rfl)
  have hpong : Catalog.rally.Leads
      (.workflow (.handing "ping" "serve" "mail" "pong"))
      (.workflow (.handing "pong" "return" "calendar" "ping")) :=
    .target (List.mem_singleton.2 rfl) rfl rfl
  have hreturn : Catalog.rally.Leads
      (.workflow (.handing "pong" "return" "calendar" "ping"))
      (.prompt (.needing "return" "calendar")) :=
    .subtask (List.mem_singleton.2 rfl)
  refine ⟨hlookup, hhealth, htell, bound, report, t', hcheck, ?_, ?_, hworst⟩
  · exact (hnames "mail").2 ⟨_, .single hserve, List.mem_singleton.2 rfl⟩
  · have hreach : Catalog.rally.Reaches
        (.workflow (.handing "ping" "serve" "mail" "pong"))
        (.prompt (.needing "return" "calendar")) :=
      (Relation.ReflTransGen.single hpong).tail hreturn
    exact (hnames "calendar").2 ⟨_, hreach, List.mem_singleton.2 rfl⟩

end TaskRouting

import TaskRouting.Proofs.Layer
import TaskRouting.Proofs.Setting
import TaskRouting.Proofs.Table
import TaskRouting.Proofs.Text.Occurrence
/-!
Which code an answer gets.

# The deciding label

One label decides an answer, if any does: the label that is the whole answer,
or else the one that stands first in it. Labels may be written alike in upper
case, and one may begin another, so either rule may leave several labels; then
the first one in the order of the labels decides. This is `Decides`, which
mentions neither the search nor the order in which it goes. At most one label
decides (`Decides.unique`).

# Classification

The code looks for a whole answer, then lists the first places of all labels
and picks an earliest one. `decides_of_whole?` follows the first search. For
the second, `earliest?_spec` says where the pick stands in the list:
everything before it is strictly later, everything after it no earlier; and
since labels that do not occur are left out of the list, the labels around the
one that is picked are those of the entries around its own
(`decides_of_earliest?`). Together with `Decides.unique` this gives
`classify_eq_some_iff`, and `classify_eq_none_iff` needs only whether labels
occur.

# Checks

A check whose agent delivers messages (`Prompt.Delivers`) is judged by the
last one of them and responds with all (`Check.perform_of_delivers`).
`classified_by_deciding_label` says both.
-/

namespace TaskRouting

namespace Labels

variable {labels : Labels} {normal : List Char} {label : String}
  {code : UInt32} {place : Nat}

-- ================================================== the deciding label

/-- A label decides an answer, which is given as `normal` leaves it, in upper
case and without blanks around it. -/
inductive Decides (labels : Labels) (normal : List Char) (label : String)
    (code : UInt32) : Prop where
  | whole (mem : (label, code) ∈ labels) (fits : form label = normal)
      (first : ∀ e ∈ labels, form e.1 = normal → label ≤ e.1)
  | part {place : Nat} (mem : (label, code) ∈ labels)
      (unlike : ∀ e ∈ labels, form e.1 ≠ normal)
      (stands : Text.FirstAt (form label) normal place)
      (first : ∀ e ∈ labels, ∀ other, Text.FirstAt (form e.1) normal other →
        place < other ∨ place = other ∧ label ≤ e.1)

theorem Decides.mem (h : labels.Decides normal label code) :
    (label, code) ∈ labels := by
  cases h with
  | whole mem _ _ => exact mem
  | part mem _ _ _ => exact mem

/-- At most one label `Decides` an answer: where a label is the whole answer
no other rule applies, and each of the rules leaves the first of its
labels. -/
theorem Decides.unique {label' : String} {code' : UInt32}
    (h : labels.Decides normal label code)
    (h' : labels.Decides normal label' code') : label = label' := by
  cases h with
  | whole mem fits first =>
    cases h' with
    | whole mem' fits' first' =>
      exact String.le_antisymm (first (label', code') mem' fits')
        (first' (label, code) mem fits)
    | part _ unlike' _ _ => exact absurd fits (unlike' (label, code) mem)
  | part mem unlike stands first =>
    cases h' with
    | whole mem' fits' _ => exact absurd fits' (unlike (label', code') mem')
    | part mem' _ stands' first' =>
      have hsecond := first (label', code') mem' _ stands'
      rcases first' (label, code) mem _ stands with hlt | ⟨rfl, hle'⟩
      · omega
      · rcases hsecond with hlt | ⟨-, hle⟩
        · exact absurd hlt (Nat.lt_irrefl _)
        · exact String.le_antisymm hle hle'

-- ======================================================= whole answers

/-- The label that `whole?` finds to be the whole answer is the first one that
is (`Ascending.le_of_find?`). -/
theorem decides_of_whole? (hascending : labels.Ascending)
    (h : labels.whole? normal = some code) :
    ∃ label, labels.Decides normal label code := by
  obtain ⟨⟨label, code'⟩, hfound, rfl⟩ := Option.map_eq_some_iff.1 h
  have hfits : form label = normal := by simpa using List.find?_some hfound
  refine ⟨label, .whole (List.mem_of_find?_eq_some hfound) hfits
    fun e he hother => ?_⟩
  exact hascending.le_of_find? hfound e he (by simpa using hother)

theorem whole?_eq_none_iff :
    labels.whole? normal = none ↔ ∀ e ∈ labels, form e.1 ≠ normal := by
  simp [whole?]

-- ==================================================== parts of answers

/-- Of some occurrences, `earliest?` picks one at the first place, and of
those there the first. By induction on the occurrences: the first one is
picked if none in the rest is earlier. -/
theorem earliest?_spec (es : List (Nat × UInt32)) :
    (es = [] ∧ earliest? es = none)
      ∨ ∃ before e after, es = before ++ e :: after ∧ earliest? es = some e
        ∧ (∀ f ∈ before, e.1 < f.1) ∧ ∀ f ∈ after, e.1 ≤ f.1 := by
  induction es with
  | nil => exact Or.inl ⟨rfl, rfl⟩
  | cons e rest ih =>
    right
    rcases ih with ⟨rfl, hnone⟩
      | ⟨before, f, after, rfl, hsome, hbefore, hafter⟩
    · exact ⟨[], e, [], rfl, by rw [earliest?, hnone], by simp, by simp⟩
    · by_cases hle : e.1 ≤ f.1
      · have hpicked : earliest? (e :: (before ++ f :: after)) = some e := by
          simp [earliest?, hsome, hle]
        refine ⟨[], e, before ++ f :: after, rfl, hpicked, by simp, ?_⟩
        intro g hg
        rcases List.mem_append.1 hg with hg | hg
        · exact Nat.le_of_lt (Nat.lt_of_le_of_lt hle (hbefore g hg))
        · rcases List.mem_cons.1 hg with rfl | hg
          · exact hle
          · exact Nat.le_trans hle (hafter g hg)
      · have hpicked : earliest? (e :: (before ++ f :: after)) = some f := by
          simp [earliest?, hsome, hle]
        refine ⟨e :: before, f, after, rfl, hpicked, ?_, hafter⟩
        intro g hg
        rcases List.mem_cons.1 hg with rfl | hg
        · exact Nat.lt_of_not_le hle
        · exact hbefore g hg

/-- Every label that occurs in an answer is listed with its first place. -/
theorem mem_occurrences {labels : Labels} {e : String × UInt32}
    (he : e ∈ labels) (h : Text.FirstAt (form e.1) normal place) :
    (place, e.2) ∈ labels.occurrences normal :=
  List.mem_filterMap.2 ⟨e, he, by rw [Text.position?_eq_some_iff.2 h]; rfl⟩

/-- Nothing is listed exactly if no label occurs in the answer
(`Text.position?_eq_none_iff`). -/
theorem occurrences_eq_nil_iff :
    labels.occurrences normal = []
      ↔ ∀ e ∈ labels, ¬ form e.1 <:+: normal := by
  simp [occurrences, List.filterMap_eq_nil_iff, Text.position?_eq_none_iff]

/-- The occurrence that is picked is that of the label that `Decides`, if no
label is the whole answer. What `earliest?_spec` says of places is read back
to the labels in front of it and behind. -/
theorem decides_of_earliest? (hascending : labels.Ascending)
    (hunlike : ∀ e ∈ labels, form e.1 ≠ normal)
    (h : earliest? (labels.occurrences normal) = some (place, code)) :
    ∃ label, labels.Decides normal label code := by
  rcases earliest?_spec (labels.occurrences normal) with ⟨-, hnone⟩ | hpicked
  · rw [h] at hnone
    cases hnone
  obtain ⟨before, e, after, hsplit, hsome, hbefore, hafter⟩ := hpicked
  obtain rfl := Option.some.inj (h.symm.trans hsome)
  -- The labels before and after the one that is picked are those of the
  -- occurrences around its own.
  obtain ⟨front, back, rfl, hfront, hback⟩ :=
    List.filterMap_eq_append_iff.1 hsplit
  obtain ⟨silent, ⟨label, code'⟩, rest, rfl, hsilent, hpicked, hrest⟩ :=
    List.filterMap_eq_cons_iff.1 hback
  obtain ⟨place', hplace, heq⟩ := Option.map_eq_some_iff.1 hpicked
  cases heq
  have hstands := Text.position?_eq_some_iff.1 hplace
  rw [← List.append_assoc] at hascending hunlike ⊢
  refine ⟨label, .part (by simp) hunlike hstands fun f hf other hother => ?_⟩
  -- Labels before the picked one occur later or, if they are silent, not at
  -- all; the label itself has one first place; labels after it occur no
  -- earlier.
  rcases List.mem_append.1 hf with hf | hf
  · rcases List.mem_append.1 hf with hf | hf
    · exact Or.inl (hbefore (other, f.2) (hfront ▸ mem_occurrences hf hother))
    · have hnone := hsilent f hf
      rw [Text.position?_eq_some_iff.2 hother] at hnone
      cases hnone
  · rcases List.mem_cons.1 hf with rfl | hf
    · exact Or.inr ⟨hstands.unique hother, String.le_refl _⟩
    · have hle : place ≤ other :=
        hafter (other, f.2) (hrest ▸ mem_occurrences hf hother)
      rcases Nat.lt_or_eq_of_le hle with hlt | heq
      · exact Or.inl hlt
      · exact Or.inr ⟨heq, Std.le_of_lt (hascending.around.2 f hf)⟩

-- ====================================================== classification

/-- `classify` gives no code exactly if no label occurs in the answer: a label
that is the whole answer occurs in it as well. -/
theorem classify_eq_none_iff {answer : String} :
    labels.classify answer = none
      ↔ ∀ e ∈ labels, ¬ form e.1 <:+: Labels.normal answer := by
  unfold classify
  dsimp only
  cases hwhole : labels.whole? (Labels.normal answer) with
  | some code =>
    refine iff_of_false (fun h => nomatch h) fun hnot => ?_
    -- A label that is the whole answer occurs in it.
    obtain ⟨e, hfound, -⟩ := Option.map_eq_some_iff.1 hwhole
    have hfits : form e.1 = Labels.normal answer := by
      simpa using List.find?_some hfound
    exact hnot e (List.mem_of_find?_eq_some hfound)
      (hfits ▸ List.infix_refl _)
  | none =>
    dsimp only
    rw [Option.map_eq_none_iff, ← occurrences_eq_nil_iff]
    rcases earliest?_spec (labels.occurrences (Labels.normal answer))
      with ⟨hnil, hnone⟩ | hpicked
    · exact iff_of_true hnone hnil
    · obtain ⟨before, e, after, hsplit, hsome, -, -⟩ := hpicked
      rw [hsplit] at hsome ⊢
      rw [hsome]
      exact iff_of_false (Option.some_ne_none e) (by simp)

/-- A code that `classify` gives is that of a label that decides the answer,
one case for each of the two rules. -/
theorem decides_of_classify (hascending : labels.Ascending) {answer : String}
    (h : labels.classify answer = some code) :
    ∃ label, labels.Decides (Labels.normal answer) label code := by
  unfold classify at h
  dsimp only at h
  cases hwhole : labels.whole? (Labels.normal answer) with
  | some found =>
    rw [hwhole] at h
    obtain rfl := Option.some.inj h
    exact decides_of_whole? hascending hwhole
  | none =>
    rw [hwhole] at h
    obtain ⟨⟨place, found⟩, hpicked, rfl⟩ := Option.map_eq_some_iff.1 h
    exact decides_of_earliest? hascending
      (whole?_eq_none_iff.1 hwhole) hpicked

theorem Decides.occurs (h : labels.Decides normal label code) :
    form label <:+: normal := by
  cases h with
  | whole _ fits _ => exact fits ▸ List.infix_refl _
  | part _ _ stands _ => exact Text.exists_standsAt_iff.1 ⟨_, stands.stands⟩

/-- An answer gets the code of the label that decides it. One way is
`decides_of_classify`; the other way some code is given, since the label
occurs, and it is that of a label which decides as well. -/
theorem classify_eq_some_iff (hascending : labels.Ascending)
    {answer : String} :
    labels.classify answer = some code
      ↔ ∃ label, labels.Decides (Labels.normal answer) label code := by
  refine ⟨decides_of_classify hascending, fun ⟨label, hdecides⟩ => ?_⟩
  cases hclass : labels.classify answer with
  | none =>
    exact absurd hdecides.occurs
      (classify_eq_none_iff.1 hclass (label, code) hdecides.mem)
  | some found =>
    obtain ⟨label', hdecides'⟩ := decides_of_classify hascending hclass
    -- The same label decides, and it has one code.
    obtain rfl := hdecides.unique hdecides'
    have hnodup := hascending.nodup_keys
    rw [← Table.get?_of_mem hnodup hdecides.mem,
      Table.get?_of_mem hnodup hdecides'.mem]

end Labels

-- ============================================================== checks

/-- The agent of a prompt is asked and delivers some messages. Its inputs are
accepted, its APIs are there, and it comes to an end with something to say,
whatever tools it has called on the way. -/
structure Prompt.Delivers {σ : Type} (c : Collaborators σ)
    (runTool : Task → Inputs → Execution σ Response) (p : Prompt Task)
    (inputs : Inputs) (t : Trace σ) (messages : List Message)
    (t' : Trace σ) : Prop where
  talked : ∃ prepared apis t₁,
    p.identity.inputSchema.prepare inputs = .ok prepared
    ∧ resolveApis c p.identity.requiredApis t = (.ok apis, t₁)
    ∧ (c.agent p.agent ⟨prepared, apis, p.toolbox⟩ t₁.world).finish runTool
        (p.toolbox.getD [])
        (t₁.call (.agent p.agent.name prepared apis
          (p.toolbox.map Table.keys)))
      = (.ok (.ok messages), t')
  speaks : messages ≠ []

open Execution

/-- What an agent delivers is what `generate` makes of the conversation. -/
theorem Prompt.Delivers.generate_eq {σ : Type} {c : Collaborators σ}
    {runTool : Task → Inputs → Execution σ Response} {p : Prompt Task}
    {inputs : Inputs} {t t' : Trace σ} {messages : List Message}
    (h : p.Delivers c runTool inputs t messages t') :
    ∃ prepared, p.identity.inputSchema.prepare inputs = .ok prepared
      ∧ p.generate c runTool prepared t = (.ok (.ok messages), t') := by
  obtain ⟨prepared, apis, t₁, hprepare, hapis, htalk⟩ := h.talked
  refine ⟨prepared, hprepare, ?_⟩
  rw [generate_of_resolved hapis, bind_apply, htalk]
  cases messages with
  | nil => exact absurd rfl h.speaks
  | cons message rest => rfl

namespace Check

/-- An answer is judged by the code that `classify` gives it, or by the
default code. -/
theorem judge_fst (k : Check Task) (answer : String) :
    (k.judge answer).1
      = (Labels.classify k.labels answer).getD k.defaultCode := by
  unfold judge
  cases Labels.classify k.labels answer with
  | none => rfl
  | some code =>
    dsimp only
    split
    · rfl
    · rfl

/-- A check whose agent delivers messages responds with all of them, and is
judged by the last one. That there is a last one is `Delivers.speaks`. -/
theorem perform_of_delivers {σ : Type} {c : Collaborators σ}
    {x : Workflow.Executor σ} {context : Context} {k : Check Task}
    {inputs : Inputs} {t t' : Trace σ} {messages : List Message} (bound : Nat)
    (h : k.prompt.Delivers c (x context) inputs t messages t') :
    ∃ last, messages.getLast? = some last
      ∧ Task.perform c x bound context (.check k) inputs t
        = (.ok (.completed (c.clock t'.world) k.prompt.identity.header inputs
            (k.judge last.content).1 (some messages)
            (k.judge last.content).2), t') := by
  obtain ⟨prepared, hprepare, hgenerate⟩ := h.generate_eq
  have hlast := List.getLast?_eq_some_getLast h.speaks
  refine ⟨messages.getLast h.speaks, hlast, ?_⟩
  rw [Task.perform_check hprepare]
  unfold execute
  rw [bind_apply, hgenerate]
  dsimp only
  rw [hlast]
  rfl

end Check

namespace Labels

/-- An answer gets the code of the label that decides it: the first, in the
order of the labels, of those that are the whole answer, or else of those that
stand first in it. It gets none exactly if no label occurs in it.

A check whose agent delivers messages responds with all of them. Its code is
that of the last one, or the default code if that has none.

The label that decides is unique (`Decides.unique`), which turns
`decides_of_classify` into an equivalence. -/
theorem classified_by_deciding_label (labels : Labels)
    (hascending : labels.Ascending) :
    (∀ answer code, labels.classify answer = some code
        ↔ ∃ label, labels.Decides (normal answer) label code)
    ∧ (∀ answer, labels.classify answer = none
        ↔ ∀ e ∈ labels, ¬ form e.1 <:+: normal answer)
    ∧ ∀ {σ : Type} (c : Collaborators σ) (context : Context) (k : Check Task)
        (inputs : Inputs) (t t' : Trace σ) (messages : List Message),
        k.labels = labels →
        k.prompt.Delivers c (Task.unbounded c context) inputs t messages t' →
        ∃ last r, messages.getLast? = some last
          ∧ Task.unbounded c context (.check k) inputs t = (.ok r, t')
          ∧ r.code = (labels.classify last.content).getD k.defaultCode
          ∧ r.outputs = some messages := by
  refine ⟨fun _ _ => classify_eq_some_iff hascending,
    fun _ => classify_eq_none_iff, ?_⟩
  intro σ c context k inputs t t' messages hlabels hdelivers
  obtain ⟨last, hlast, hperform⟩ := Check.perform_of_delivers 0 hdelivers
  have hends := (Task.unbounded_eq_perform (settles_of_ok hperform)).trans
    hperform
  exact ⟨last, _, hlast, hends, hlabels ▸ k.judge_fst last.content, rfl⟩

/-- Labels for something to be approved or rejected. -/
def approval : Labels := [("APPROVED", 0), ("REJECTED", 2)]

/-- The first of two labels in a long answer decides it, and a check of that
answer. -/
theorem rejection_decides :
    let answer := "Verdict: rejected. Not approved."
    let check : Check Task := ⟨.asking answer, approval, 1⟩
    approval.Ascending
      ∧ approval.Decides (normal answer) "REJECTED" 2
      ∧ ∃ r t', Task.unbounded (.echoing : Collaborators Unit) (.fresh false)
          (.check check) [] (.start ()) = (.ok r, t')
        ∧ r.code = 2 ∧ r.outputs.map List.length = some 1 := by
  intro answer check
  have hascending : approval.Ascending := by
    unfold approval Table.Ascending
    decide
  obtain ⟨hdecides, -, hchecks⟩ :=
    classified_by_deciding_label approval hascending
  have hcode : approval.classify answer = some 2 := by decide +kernel
  have hdelivers : check.prompt.Delivers .echoing
      (Task.unbounded .echoing (.fresh false)) [] (.start ())
      [Message.plain answer] _ :=
    ⟨⟨[], [], .start (), rfl, rfl, rfl⟩, by simp⟩
  obtain ⟨last, r, hlast, hends, hjudged, houtputs⟩ :=
    hchecks (.echoing : Collaborators Unit) (.fresh false) check [] _ _ _
      rfl hdelivers
  obtain rfl : Message.plain answer = last := Option.some.inj hlast
  refine ⟨hascending, ?_, r, _, hends, ?_, ?_⟩
  · obtain ⟨label, hlabel⟩ := (hdecides answer 2).1 hcode
    have hmem := hlabel.mem
    simp only [approval, List.mem_cons, Prod.mk.injEq, List.not_mem_nil,
      or_false] at hmem
    rcases hmem with ⟨-, hwrong⟩ | ⟨rfl, -⟩
    · cases hwrong
    · exact hlabel
  · rw [hjudged, show (Message.plain answer).content = answer from rfl, hcode]
    rfl
  · rw [houtputs]
    rfl

end Labels

end TaskRouting

import TaskRouting.Proofs.Verdict
/-!
Answers with a lead-in.

# What stands first

An agent may be asked for a label and give it with something in front, as in
"Verdict: approved". If no label stands in the text before the end of the
lead-in (`LeadsIn.ahead`), the labels that stand first in it stand exactly
there: they are the labels with which the given label begins, itself among
them. Among these the first in the order of the labels decides
(`LeadsIn.decides`). A label that is given alone decides for itself
(`Tidy.classify_label`).

# What this means for a label

A lead-in may change the code of a label, but only if another label begins it.
This is `led_in_by_first_beginning`; where no other label begins it, nothing
changes (`lead_in_keeps_no`). With "no" and "not sure" for labels, "Verdict:
not sure" means no (`lead_in_turns_doubt_into_no`).

`Tidy` is what is asked of the labels: they ascend, none is empty or has
blanks around it, and no two are compared alike. That a text leads in is a
statement about all places in it, which a search decides for a given text
(`leadsIn_of_search`).
-/

namespace TaskRouting.Labels

/-- Labels that can be told from one another as they are compared, and that
have no blanks around them. -/
structure Tidy (labels : Labels) : Prop where
  ascending : labels.Ascending
  nonempty : ∀ e ∈ labels, e.1 ≠ ""
  trimmed : ∀ e ∈ labels, Text.trim e.1.toList = e.1.toList
  distinct : ∀ e ∈ labels, ∀ f ∈ labels, form e.1 = form f.1 → e.1 = f.1

/-- A text that may be put in front of a label: it does not begin with a
blank, and no label stands in the two together before the end of it. -/
structure LeadsIn (labels : Labels) (lead label : String) : Prop where
  opens : ∃ c, lead.toList.head? = some c ∧ Text.isBlank c = false
  ahead : ∀ e ∈ labels, ∀ place,
    Text.StandsAt (form e.1) (Text.upper (lead ++ label).toList) place →
      (Text.upper lead.toList).length ≤ place

variable {labels : Labels} {lead label : String} {code : UInt32}

/-- A label that has no blanks around it is compared as it is: `Text.trim`
leaves it alone. -/
theorem Tidy.normal_eq (h : labels.Tidy) (hmem : (label, code) ∈ labels) :
    normal label = form label := by
  have htrimmed : Text.trim label.toList = label.toList :=
    h.trimmed (label, code) hmem
  unfold normal form
  rw [htrimmed]

/-- A label that is given alone decides for itself: it is the whole answer,
and by `Tidy` no other label is compared alike. -/
theorem Tidy.classify_label (h : labels.Tidy)
    (hmem : (label, code) ∈ labels) : labels.classify label = some code := by
  refine (classify_eq_some_iff h.ascending).2
    ⟨label, .whole hmem (h.normal_eq hmem).symm ?_⟩
  intro e he hfits
  have hsame : e.1 = label :=
    h.distinct e he _ hmem (hfits.trans (h.normal_eq hmem))
  exact hsame ▸ String.le_refl _

/-- Of the labels with which some label begins, one is the first. There is
one, since every label begins itself, and `find?` from the front gives the
least (`Ascending.le_of_find?`). -/
theorem exists_first_beginning (hascending : labels.Ascending)
    (hmem : (label, code) ∈ labels) :
    ∃ e ∈ labels, form e.1 <+: form label
      ∧ ∀ f ∈ labels, form f.1 <+: form label → e.1 ≤ f.1 := by
  cases hfound : labels.find? fun e => (form e.1).isPrefixOf (form label) with
  | none =>
    have hnot := List.find?_eq_none.1 hfound _ hmem
    exact absurd (List.isPrefixOf_iff_prefix.2 (List.prefix_refl _)) hnot
  | some e =>
    have hbegins : form e.1 <+: form label := by
      simpa using List.find?_some hfound
    refine ⟨e, List.mem_of_find?_eq_some hfound, hbegins,
      fun f hf hother => ?_⟩
    exact hascending.le_of_find? hfound f hf
      (List.isPrefixOf_iff_prefix.2 hother)

namespace LeadsIn

/-- A lead-in and the label after it are compared in a row: neither blank at
an end of the text is there to be trimmed away, and `Text.upper` goes
character by character. -/
theorem normal_eq (h : labels.LeadsIn lead label) (htidy : labels.Tidy)
    (hmem : (label, code) ∈ labels) :
    normal (lead ++ label) = Text.upper lead.toList ++ form label := by
  obtain ⟨c, hhead, hopens⟩ := h.opens
  have hne : label.toList ≠ [] :=
    mt String.toList_eq_nil_iff.1 (htidy.nonempty (label, code) hmem)
  have htrimmed : Text.trim label.toList = label.toList :=
    htidy.trimmed (label, code) hmem
  unfold normal form
  rw [String.toList_append, Text.trim_append hhead hopens hne htrimmed,
    Text.upper_append]

/-- After a lead-in, the first of the labels with which a label begins
`Decides`. It stands where the lead-in ends, and no label stands before that;
those that stand at the same place begin the label too. -/
theorem decides (h : labels.LeadsIn lead label) (htidy : labels.Tidy)
    (hmem : (label, code) ∈ labels) {e : String × UInt32} (he : e ∈ labels)
    (hbegins : form e.1 <+: form label)
    (hfirst : ∀ f ∈ labels, form f.1 <+: form label → e.1 ≤ f.1) :
    labels.Decides (normal (lead ++ label)) e.1 e.2 := by
  -- The text of the whole answer, taken apart where the lead-in ends.
  have hahead : ∀ f ∈ labels, ∀ place,
      Text.StandsAt (form f.1) (Text.upper lead.toList ++ form label) place →
        (Text.upper lead.toList).length ≤ place := by
    have hstands := h.ahead
    rw [String.toList_append, Text.upper_append] at hstands
    exact hstands
  rw [h.normal_eq htidy hmem]
  have hstands : Text.FirstAt (form e.1)
      (Text.upper lead.toList ++ form label)
      (Text.upper lead.toList).length :=
    ⟨Text.standsAt_length_iff.2 hbegins, hahead e he⟩
  refine .part he (fun f hf hfits => ?_) hstands fun f hf other hother => ?_
  · -- A label that is the whole answer would stand at its very beginning.
    have hzero : (Text.upper lead.toList).length ≤ 0 :=
      hahead f hf 0 (Text.standsAt_zero_iff.2 (hfits ▸ List.prefix_refl _))
    have hnil : lead.toList = [] := Text.upper_eq_nil_iff.1
      (List.eq_nil_of_length_eq_zero (Nat.le_zero.1 hzero))
    obtain ⟨c, hhead, -⟩ := h.opens
    rw [hnil] at hhead
    cases hhead
  · rcases Nat.lt_or_eq_of_le (hahead f hf other hother.stands) with hlt | rfl
    · exact Or.inl hlt
    · have hother' : form f.1 <+: form label :=
        Text.standsAt_length_iff.1 hother.stands
      exact Or.inr ⟨rfl, hfirst f hf hother'⟩

end LeadsIn

/-- A label alone has its own code. After a lead-in it has the code of the
first label, in the order of the labels, with which it begins. So the lead-in
changes nothing exactly if that label has the same code, as is the case where
no other label begins it.

Both codes are found by `classify_eq_some_iff`: alone the label is the whole
answer, and after the lead-in `LeadsIn.decides` names the label that
decides. -/
theorem led_in_by_first_beginning (htidy : labels.Tidy)
    (hmem : (label, code) ∈ labels) (hlead : labels.LeadsIn lead label) :
    labels.classify label = some code
    ∧ (∃ e ∈ labels, form e.1 <+: form label
        ∧ (∀ f ∈ labels, form f.1 <+: form label → e.1 ≤ f.1)
        ∧ labels.classify (lead ++ label) = some e.2
        ∧ (labels.classify (lead ++ label) = labels.classify label
          ↔ e.2 = code))
    ∧ ((∀ e ∈ labels, form e.1 <+: form label → e.1 = label) →
        labels.classify (lead ++ label) = labels.classify label) := by
  have halone := htidy.classify_label hmem
  obtain ⟨e, he, hbegins, hfirst⟩ :=
    exists_first_beginning htidy.ascending hmem
  have hled : labels.classify (lead ++ label) = some e.2 :=
    (classify_eq_some_iff htidy.ascending).2
      ⟨e.1, hlead.decides htidy hmem he hbegins hfirst⟩
  refine ⟨halone, ⟨e, he, hbegins, hfirst, hled, ?_⟩, fun honly => ?_⟩
  · rw [hled, halone, Option.some.injEq]
  · -- The only label that begins it is the label itself, which has one code.
    have hnodup := htidy.ascending.nodup_keys
    obtain ⟨label', code'⟩ := e
    obtain rfl : label' = label := honly _ he hbegins
    rw [hled, halone, ← Table.get?_of_mem hnodup he,
      ← Table.get?_of_mem hnodup hmem]

/-- Labels one of which begins the other. -/
def doubt : Labels := [("NO", 1), ("NOT SURE", 2)]

/-- The two labels are tidy, although one begins the other. -/
theorem doubt_tidy : doubt.Tidy where
  ascending := by
    unfold doubt Table.Ascending
    decide
  nonempty := by decide
  trimmed := by decide +kernel
  distinct := by decide +kernel

/-- A search for all labels by `Text.position?` shows that a text leads in:
what is found first is not before the end of it, and so nothing is. -/
theorem leadsIn_of_search {c : Char} (hhead : lead.toList.head? = some c)
    (hopens : Text.isBlank c = false)
    (h : ∀ e ∈ labels, (Text.position? (form e.1)
      (Text.upper (lead ++ label).toList)).all
      (fun first => (Text.upper lead.toList).length ≤ first) = true) :
    labels.LeadsIn lead label :=
  ⟨⟨c, hhead, hopens⟩, fun e he _ hstands =>
    Text.le_of_standsAt (h e he) hstands⟩

/-- A lead-in changes nothing for a label that no other label begins. -/
theorem lead_in_keeps_no :
    doubt.Tidy ∧ ("NO", 1) ∈ doubt ∧ doubt.LeadsIn "Verdict: " "NO"
      ∧ doubt.classify "NO" = some 1
      ∧ doubt.classify ("Verdict: " ++ "NO") = some 1 := by
  have hmem : ("NO", 1) ∈ doubt := List.mem_cons_self
  have hlead : doubt.LeadsIn "Verdict: " "NO" :=
    leadsIn_of_search (c := 'V') (by decide) (by decide) (by decide +kernel)
  obtain ⟨halone, -, hkept⟩ := led_in_by_first_beginning doubt_tidy hmem hlead
  have honly : ∀ e ∈ doubt, form e.1 <+: form "NO" → e.1 = "NO" := by
    decide +kernel
  exact ⟨doubt_tidy, hmem, hlead, halone, (hkept honly).trans halone⟩

/-- A lead-in turns a label into the one that begins it. -/
theorem lead_in_turns_doubt_into_no :
    doubt.Tidy ∧ ("NOT SURE", 2) ∈ doubt
      ∧ doubt.LeadsIn "Verdict: " "NOT SURE"
      ∧ doubt.classify "NOT SURE" = some 2
      ∧ doubt.classify ("Verdict: " ++ "NOT SURE") = some 1 := by
  have hlead : doubt.LeadsIn "Verdict: " "NOT SURE" :=
    leadsIn_of_search (c := 'V') (by decide) (by decide) (by decide +kernel)
  exact ⟨doubt_tidy, by decide, hlead, by decide +kernel, by decide +kernel⟩

end TaskRouting.Labels

import Mathlib.Data.List.DropRight
import Mathlib.Data.List.Infix
import TaskRouting.Text.Uppercase
/-!
Where a word stands in a text.

# Places

`StandsAt` says that a word stands in a text after so many characters, and
`FirstAt` that it stands at no earlier place. The search looks at the
beginning of the text, then at the beginning of what is left, and so on. Its
steps are those of `standsAt_zero_iff` and `standsAt_succ_iff`, and by
induction on the text it finds the first place or there is none
(`position?_spec`). `position?_eq_some_iff` and `position?_eq_none_iff` are
the two halves of that.

# Blanks and upper case

Of two texts in a row, upper case is taken one by one (`upper_append`), and
blanks are dropped at the outer ends only (`trim_append`). The latter is read
off from what it means that nothing is dropped (`trim_eq_self_iff`).
-/

namespace TaskRouting.Text

-- ============================================================== places

/-- A word stands in a text after so many characters. -/
def StandsAt (word s : List Char) (place : Nat) : Prop :=
  ∃ before after, s = before ++ word ++ after ∧ before.length = place

/-- A word stands at a place, and at no earlier one. -/
structure FirstAt (word s : List Char) (place : Nat) : Prop where
  stands : StandsAt word s place
  earliest : ∀ other, StandsAt word s other → place ≤ other

variable {word s : List Char} {place : Nat}

/-- A word stands somewhere in a text exactly if it is a part of it:
`StandsAt` splits the text as `List.IsInfix` does, and counts what comes
before. -/
theorem exists_standsAt_iff :
    (∃ place, StandsAt word s place) ↔ word <:+: s := by
  constructor
  · rintro ⟨_, before, after, rfl, -⟩
    exact ⟨before, after, rfl⟩
  · rintro ⟨before, after, rfl⟩
    exact ⟨_, before, after, rfl, rfl⟩

/-- After some text, a word stands where it begins what follows. -/
theorem standsAt_length_iff {lead : List Char} :
    StandsAt word (lead ++ s) lead.length ↔ word <+: s := by
  constructor
  · rintro ⟨before, after, heq, hlength⟩
    rw [List.append_assoc] at heq
    obtain ⟨-, rfl⟩ := List.append_inj heq hlength.symm
    exact List.prefix_append word after
  · rintro ⟨after, rfl⟩
    exact ⟨lead, after, (List.append_assoc _ _ _).symm, rfl⟩

theorem standsAt_zero_iff : StandsAt word s 0 ↔ word <+: s :=
  @standsAt_length_iff word s []

/-- Further on, a word stands in a text as it does in the rest of it. -/
theorem standsAt_succ_iff {c : Char} :
    StandsAt word (c :: s) (place + 1) ↔ StandsAt word s place := by
  constructor
  · rintro ⟨_ | ⟨c', before⟩, after, heq, hlength⟩
    · cases hlength
    · cases heq
      exact ⟨before, after, rfl, Nat.succ.inj hlength⟩
  · rintro ⟨before, after, rfl, rfl⟩
    exact ⟨c :: before, after, rfl, rfl⟩

theorem FirstAt.unique {place' : Nat} (h : FirstAt word s place)
    (h' : FirstAt word s place') : place = place' :=
  Nat.le_antisymm (h.earliest _ h'.stands) (h'.earliest _ h.stands)

theorem firstAt_zero (h : word <+: s) : FirstAt word s 0 :=
  ⟨standsAt_zero_iff.2 h, fun other _ => Nat.zero_le other⟩

/-- A word that does not begin a text is first found in it where it is first
found in the rest (`standsAt_succ_iff` for each place but the first). -/
theorem FirstAt.cons {c : Char} (h : FirstAt word s place)
    (hnot : ¬ word <+: c :: s) : FirstAt word (c :: s) (place + 1) := by
  refine ⟨standsAt_succ_iff.2 h.stands, fun other hother => ?_⟩
  cases other with
  | zero => exact absurd (standsAt_zero_iff.1 hother) hnot
  | succ other =>
    exact Nat.succ_le_succ (h.earliest other (standsAt_succ_iff.1 hother))

/-- The search finds a first place, or there is none. By induction on the
text; a word that does not begin it stands one further on than in the rest
(`FirstAt.cons`). -/
theorem position?_spec (word s : List Char) :
    (∃ place, position? word s = some place ∧ FirstAt word s place)
      ∨ position? word s = none ∧ ¬ word <:+: s := by
  induction s with
  | nil =>
    cases word with
    | nil => exact Or.inl ⟨0, rfl, firstAt_zero List.nil_prefix⟩
    | cons c word => exact Or.inr ⟨rfl, fun h => nomatch List.infix_nil.1 h⟩
  | cons c s ih =>
    by_cases hbegins : word <+: c :: s
    · refine Or.inl ⟨0, ?_, firstAt_zero hbegins⟩
      rw [position?, beginsWith,
        if_pos (List.isPrefixOf_iff_prefix.2 hbegins)]
    · have hrest : position? word (c :: s)
          = (position? word s).map (· + 1) := by
        rw [position?, beginsWith,
          if_neg (mt List.isPrefixOf_iff_prefix.1 hbegins)]
      rcases ih with ⟨place, hfound, hfirst⟩ | ⟨hnone, hnot⟩
      · exact Or.inl ⟨place + 1, by
          rw [hrest, hfound]; rfl, hfirst.cons hbegins⟩
      · refine Or.inr ⟨by rw [hrest, hnone]; rfl, fun hinfix => ?_⟩
        exact (List.infix_cons_iff.1 hinfix).elim hbegins hnot

/-- The place that `position?` finds is that of the first occurrence, of which
there is one only (`FirstAt.unique`). -/
theorem position?_eq_some_iff :
    position? word s = some place ↔ FirstAt word s place := by
  rcases position?_spec word s with ⟨first, hfound, hfirst⟩ | ⟨hnone, hnot⟩
  · rw [hfound, Option.some.injEq]
    constructor
    · rintro rfl
      exact hfirst
    · exact hfirst.unique
  · rw [hnone]
    refine iff_of_false (fun h => nomatch h) fun h => hnot ?_
    exact exists_standsAt_iff.1 ⟨place, h.stands⟩

/-- No place is found exactly if the word is no part of the text. -/
theorem position?_eq_none_iff : position? word s = none ↔ ¬ word <:+: s := by
  rcases position?_spec word s with ⟨first, hfound, hfirst⟩ | ⟨hnone, hnot⟩
  · rw [hfound]
    refine iff_of_false (fun h => nomatch h) (not_not.2 ?_)
    exact exists_standsAt_iff.1 ⟨first, hfirst.stands⟩
  · exact iff_of_true hnone hnot

/-- Where the search finds nothing before a place, a word does not stand
before it. -/
theorem le_of_standsAt {bound : Nat}
    (h : (position? word s).all (fun first => bound ≤ first) = true)
    (hstands : StandsAt word s place) : bound ≤ place := by
  cases hfound : position? word s with
  | none =>
    exact absurd (exists_standsAt_iff.1 ⟨place, hstands⟩)
      (position?_eq_none_iff.1 hfound)
  | some first =>
    have hbound : bound ≤ first := by simpa [hfound] using h
    exact Nat.le_trans hbound
      ((position?_eq_some_iff.1 hfound).earliest place hstands)

-- =============================================== blanks and upper case

/-- `trim` drops nothing from a text exactly if there is no blank at its ends.
Dropping at one end cannot be undone at the other, so each half of the work
has to do nothing. -/
theorem trim_eq_self_iff : trim s = s
    ↔ (∀ h : 0 < s.length, isBlank s[0] = false)
      ∧ ∀ h : s ≠ [], isBlank (s.getLast h) = false := by
  have hends : trim s = (s.dropWhile isBlank).rdropWhile isBlank := rfl
  simp only [← Bool.not_eq_true, ← List.dropWhile_eq_self_iff,
    ← List.rdropWhile_eq_self_iff]
  constructor
  · intro h
    -- What is left after the first half of the work is no shorter than what
    -- is left in the end.
    have hprefix : s <+: s.dropWhile isBlank := by
      conv_lhs => rw [← h, hends]
      exact List.rdropWhile_prefix _ _
    have hfront : s.dropWhile isBlank = s :=
      (List.dropWhile_suffix _).eq_of_length_le hprefix.length_le
    refine ⟨hfront, ?_⟩
    rw [hends, hfront] at h
    exact h
  · rintro ⟨hfront, hback⟩
    rw [hends, hfront, hback]

/-- A text with no blank at its ends keeps them after a text that does not
begin with one. -/
theorem trim_append {lead : List Char} {c : Char}
    (hlead : lead.head? = some c) (hopens : isBlank c = false) (hne : s ≠ [])
    (htrimmed : trim s = s) : trim (lead ++ s) = lead ++ s := by
  obtain ⟨rest, rfl⟩ := List.head?_eq_some_iff.1 hlead
  obtain ⟨-, hcloses⟩ := trim_eq_self_iff.1 htrimmed
  refine trim_eq_self_iff.2 ⟨fun _ => hopens, fun _ => ?_⟩
  rw [List.getLast_append_of_ne_nil _ hne]
  exact hcloses hne

theorem upper_append (s s' : List Char) :
    upper (s ++ s') = upper s ++ upper s' :=
  List.flatMap_append

/-- Upper case never makes a character disappear. The characters with a longer
form are listed in `caseExpansions`, and none of the forms is empty. -/
theorem upperForm_ne_nil (c : Char) : upperForm c ≠ [] := by
  have hforms : ∀ e ∈ caseExpansions, e.2 ≠ [] := by decide
  unfold upperForm
  split
  next code form hfound =>
    simpa using hforms _ (List.mem_of_find?_eq_some hfound)
  next =>
    split
    · exact List.cons_ne_nil _ _
    · exact List.cons_ne_nil _ _

/-- Only the empty text is empty in upper case, since `upperForm` leaves
something of every character. -/
theorem upper_eq_nil_iff : upper s = [] ↔ s = [] := by
  rw [upper, List.flatMap_eq_nil_iff]
  constructor
  · intro h
    cases s with
    | nil => rfl
    | cons c s => exact absurd (h c List.mem_cons_self) (upperForm_ne_nil c)
  · rintro rfl c hc
    cases hc

end TaskRouting.Text

import TaskRouting.RecordId
/-!
Identifiers read back from their texts.

An identifier is 32 hexadecimal digits, written in five groups with hyphens
between them. It is read by taking the hyphens out and each digit for itself:
`ungroup?_grouped` undoes the first, `ofDigits?_map_hexDigit` the second, and
`parse?_text` is both together.

The parser accepts other forms too, which it tells apart by their length;
`length_of_ungroup?` says that a text in groups has a length of its own, so it
is read as one.
-/

namespace TaskRouting.RecordId

/-- A digit is read from its character. -/
theorem hexDigit?_hexDigit (d : Fin 16) :
    hexDigit? (hexDigit d) = some d := by
  revert d
  decide

/-- An identifier is read from its digits, each for itself
(`hexDigit?_hexDigit`), and there are as many as it takes. -/
theorem ofDigits?_map_hexDigit (id : RecordId) :
    ofDigits? (id.digits.map hexDigit) = some id := by
  have hdigits : (id.digits.map hexDigit).mapM hexDigit?
      = some id.digits := by
    induction id.digits with
    | nil => rfl
    | cons d rest ih =>
      rw [List.map_cons, List.mapM_cons, hexDigit?_hexDigit, ih]; rfl
  unfold ofDigits?
  rw [hdigits, Option.bind_eq_bind, Option.bind_some, dif_pos id.length_eq]
  rfl

/-- Five groups of digits, with hyphens between them. -/
def grouped (a b c d e : List Char) : List Char :=
  a ++ '-' :: (b ++ '-' :: (c ++ '-' :: (d ++ '-' :: e)))

/-- Behind a group and its hyphen, what follows begins. -/
theorem drop_group {a rest : List Char} {n : Nat} (h : a.length = n)
    (k : Nat) : (a ++ '-' :: rest).drop (n + (k + 1)) = rest.drop k := by
  subst h
  rw [List.drop_length_add_append, List.drop_succ_cons]

/-- Five groups of the right lengths are put together without their hyphens.
Each group is found where those before it end (`drop_group`). -/
theorem ungroup?_grouped {a b c d e : List Char} (ha : a.length = 8)
    (hb : b.length = 4) (hc : c.length = 4) (hd : d.length = 4)
    (he : e.length = 12) :
    ungroup? (grouped a b c d e) = some (a ++ b ++ c ++ d ++ e) := by
  have hlength : (grouped a b c d e).length = 36 := by
    simp [grouped, ha, hb, hc, hd, he]
  have hhyphens : [8, 13, 18, 23].all
      (fun i => (grouped a b c d e)[i]? = some '-') = true := by
    simp [grouped, List.getElem?_append, ha, hb, hc, hd]
  -- Behind each group the next one begins.
  have hfirst : (grouped a b c d e).take 8 = a := List.take_left' ha
  have hsecond : (grouped a b c d e).drop 9 = b ++ '-'
      :: (c ++ '-' :: (d ++ '-' :: e)) :=
    drop_group ha 0
  have hthird : (grouped a b c d e).drop 14 = c ++ '-' :: (d ++ '-' :: e) :=
    (drop_group ha 5).trans (drop_group hb 0)
  have hfourth : (grouped a b c d e).drop 19 = d ++ '-' :: e :=
    (drop_group ha 10).trans ((drop_group hb 5).trans (drop_group hc 0))
  have hlast : (grouped a b c d e).drop 24 = e :=
    (drop_group ha 15).trans
      ((drop_group hb 10).trans ((drop_group hc 5).trans (drop_group hd 0)))
  unfold ungroup?
  rw [if_pos ⟨hlength, hhyphens⟩, hfirst, hsecond, hthird, hfourth, hlast,
    List.take_left' hb, List.take_left' hc, List.take_left' hd]

/-- Only a text of 36 characters has five groups. -/
theorem length_of_ungroup? {s cs : List Char} (h : ungroup? s = some cs) :
    s.length = 36 := by
  unfold ungroup? at h
  split at h
  next hgroups => exact hgroups.1
  next => cases h

/-- The text of an identifier is its digits, `grouped` in five. -/
theorem toList_text (id : RecordId) :
    let cs := id.digits.map hexDigit
    id.text.toList = grouped (cs.take 8) ((cs.drop 8).take 4)
      ((cs.drop 12).take 4)
      ((cs.drop 16).take 4) (cs.drop 20) := by
  simp [text, grouped]

/-- An identifier is read from its text. It has as many characters as a
grouped identifier (`length_of_ungroup?`), which decides the form in which it
is read. -/
theorem parse?_text (id : RecordId) : parse? id.text = some id := by
  have hlength : (id.digits.map hexDigit).length = 32 := by
    rw [List.length_map, id.length_eq]
  have hungrouped : ungroup? id.text.toList
      = some (id.digits.map hexDigit) := by
    have hgroups := toList_text id
    dsimp only at hgroups
    generalize id.digits.map hexDigit = cs at hlength hgroups
    rw [hgroups, ungroup?_grouped (by simp [hlength]) (by simp [hlength])
      (by simp [hlength]) (by simp [hlength]) (by simp [hlength])]
    -- The groups are the digits one after the other.
    have hsplit : ∀ n, cs.drop n = (cs.drop n).take 4 ++ cs.drop (n + 4) := by
      intro n
      rw [← List.drop_drop, List.take_append_drop]
    have hall := List.take_append_drop 8 cs
    rw [hsplit 8, hsplit 12, hsplit 16] at hall
    simpa only [List.append_assoc] using congrArg some hall
  have hwidth : id.text.toList.length = 36 := length_of_ungroup? hungrouped
  unfold parse?
  dsimp only
  rw [hwidth, hungrouped]
  exact ofDigits?_map_hexDigit id

end TaskRouting.RecordId

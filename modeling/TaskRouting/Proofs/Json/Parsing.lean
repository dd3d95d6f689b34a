import TaskRouting.Proofs.Json.Lexing
import TaskRouting.Proofs.Json.Stability
/-!
The text of a value is read as the value.

# Forms

The tokens of a value are folded over a stack of what is still open, and come
out as the value's `form`. `Reading.Parses` says so for any stack, so it can
be used for what is inside brackets too; `Reading.parses` is its proof, by
induction on `Printable`. Items and members are folded one after the other
onto what is done of their frame (`foldlM_items`, `foldlM_members`), and the
closing bracket turns the frame round. Where a bracket may be closed at once
the reader is in another state than where an item must follow;
`foldlM_items_itemOrClose` and `foldlM_members_nameOrClose` pass from the one
to the other.

# Outlines

A reader keeps no more of a form than an outline looks at. `Outline.Finds`
says that what it keeps is the value itself, unless the brackets of the value
nest too deep: with `room` for so many brackets, exactly if `depth` is less.
The lemmas follow what an outline can be: nothing at all, the whole
(`finds_whole`), items (`finds_items`) or the fields of a record
(`finds_record`). Each is two facts, one about parts next to each other, where
the deeper one decides (`found_together`), and one about brackets around
something, which cost one more (`found_inside`).

`readAs?_pretty` is what all this is for: the indented text of a value is read
as the value, exactly if it does not nest too deep.
-/

namespace TaskRouting.Json

-- =============================================================== forms

mutual

/-- The form of the text of a value. -/
def form : Json → Written
  | .string s => .text (some s)
  | .array items => .array (formItems items)
  | .object members => .object (formMembers members)
  | v => .scalar (some v)

/-- The forms of the items of an array. -/
def formItems : List Json → List Written
  | [] => []
  | v :: rest => form v :: formItems rest

/-- The forms of the members of an object, with their names. -/
def formMembers : List (String × Json) → List (Option String × Written)
  | [] => []
  | (k, v) :: rest => (some k, form v) :: formMembers rest

end

namespace Reading

variable {stack : List Frame}

/-- A token that closes nothing may be the first one of an item: where a
bracket may be closed or an item may begin, it begins an item. -/
theorem step_itemOrClose {t : Token} (harray : t ≠ .closeArray)
    (hobject : t ≠ .closeObject) :
    step ⟨stack, .itemOrClose⟩ t = step ⟨stack, .value⟩ t := by
  have hclose : close stack t = none := by
    unfold close
    split
    next => exact absurd rfl harray
    next => exact absurd rfl hobject
    next => rfl
  unfold step
  dsimp only
  rw [hclose]

/-- No value begins with a closing bracket: the first of its `tokensOf` is a
bracket that opens, or a scalar. -/
theorem exists_tokensOf (v : Json) :
    ∃ t ts, tokensOf v = t :: ts ∧ t ≠ .closeArray ∧ t ≠ .closeObject := by
  cases v
  all_goals
    simp only [tokensOf, List.cons_append]
    refine ⟨_, _, rfl, ?_, ?_⟩
    all_goals
      intro heq
      cases heq

/-- A value may stand where an item or a closing bracket may stand
(`step_itemOrClose`, for its first token). -/
theorem foldlM_itemOrClose (v : Json) (more : List Token) :
    (tokensOf v ++ more).foldlM step ⟨stack, .itemOrClose⟩
      = (tokensOf v ++ more).foldlM step ⟨stack, .value⟩ := by
  obtain ⟨t, ts, htokens, harray, hobject⟩ := exists_tokensOf v
  rw [htokens, List.cons_append, List.foldlM_cons, List.foldlM_cons,
    step_itemOrClose harray hobject]

/-- From where a value may stand, its tokens are handed on as its form. -/
def Parses (v : Json) : Prop :=
  ∀ stack, (tokensOf v).foldlM step ⟨stack, .value⟩
    = some (deliver v.form stack)

/-- The items of an array are put onto those that are done, in turn, if each
of them `Parses`. By induction on the items that follow the first, for any
that are done. -/
theorem foldlM_items {v : Json} {rest : List Json}
    (h : ∀ w ∈ v :: rest, Parses w) (done : List Written) :
    (tokensOfItems (v :: rest)).foldlM step ⟨.items done :: stack, .value⟩
      = some ⟨.items ((formItems (v :: rest)).reverse ++ done) :: stack,
        .commaOrClose⟩ := by
  have hfirst := h v List.mem_cons_self (.items done :: stack)
  induction rest generalizing v done with
  | nil => exact hfirst
  | cons w rest ih =>
    have hrest := ih (fun w' hw' => h w' (List.mem_cons_of_mem _ hw'))
      (v.form :: done) (h w (List.mem_cons_of_mem _ List.mem_cons_self) _)
    have hform : (formItems (v :: w :: rest)).reverse ++ done
        = (formItems (w :: rest)).reverse ++ v.form :: done := by
      rw [formItems, List.reverse_cons, List.append_assoc]
      rfl
    rw [tokensOfItems, List.foldlM_append, hfirst, hform]
    · exact hrest
    · intro heq
      cases heq

/-- The members of an object are put onto those that are done, in turn. The
induction is that of `foldlM_items`. The frame also keeps the name that was
read last, which nobody looks at any more. -/
theorem foldlM_members {m : String × Json} {rest : List (String × Json)}
    (h : ∀ m' ∈ m :: rest, Parses m'.2) (stack : List Frame)
    (done : List (Option String × Written)) (name : Option String) :
    ∃ last, (tokensOfMembers (m :: rest)).foldlM step
      ⟨.members done name :: stack, .name⟩
      = some ⟨.members ((formMembers (m :: rest)).reverse ++ done) last
        :: stack, .commaOrClose⟩ := by
  obtain ⟨k, v⟩ := m
  have hfirst := h (k, v) List.mem_cons_self (.members done (some k) :: stack)
  induction rest generalizing k v done name with
  | nil => exact ⟨some k, hfirst⟩
  | cons m rest ih =>
    obtain ⟨k', v'⟩ := m
    obtain ⟨last, hrest⟩ := ih ((some k, v.form) :: done) (some k) k' v'
      (fun m' hm' => h m' (List.mem_cons_of_mem _ hm'))
      (h (k', v') (List.mem_cons_of_mem _ List.mem_cons_self) _)
    have hform : (formMembers ((k, v) :: (k', v') :: rest)).reverse ++ done
        = (formMembers ((k', v') :: rest)).reverse
          ++ (some k, v.form) :: done := by
      rw [formMembers, List.reverse_cons, List.append_assoc]
      rfl
    refine ⟨last, ?_⟩
    rw [tokensOfMembers, hform]
    · show (tokensOf v ++ .comma :: tokensOfMembers ((k', v') :: rest)).foldlM
          step ⟨.members done (some k) :: stack, .value⟩ = _
      rw [List.foldlM_append, hfirst]
      exact hrest
    · intro heq
      cases heq

/-- The first item may stand where the array may also be closed
(`foldlM_itemOrClose`). -/
theorem foldlM_items_itemOrClose (v : Json) (rest : List Json) :
    (tokensOfItems (v :: rest)).foldlM step ⟨stack, .itemOrClose⟩
      = (tokensOfItems (v :: rest)).foldlM step ⟨stack, .value⟩ := by
  have hbegins : ∃ more, tokensOfItems (v :: rest) = tokensOf v ++ more := by
    cases rest with
    | nil => exact ⟨[], (List.append_nil _).symm⟩
    | cons w rest =>
      rw [tokensOfItems]
      · exact ⟨_, rfl⟩
      · intro heq
        cases heq
  obtain ⟨more, hmore⟩ := hbegins
  rw [hmore, foldlM_itemOrClose]

/-- The first name may stand where the object may also be closed. -/
theorem foldlM_members_nameOrClose (m : String × Json)
    (rest : List (String × Json)) :
    (tokensOfMembers (m :: rest)).foldlM step ⟨stack, .nameOrClose⟩
      = (tokensOfMembers (m :: rest)).foldlM step ⟨stack, .name⟩ := by
  have hbegins : ∃ more, tokensOfMembers (m :: rest)
      = .text (some m.1) :: more := by
    cases rest with
    | nil => exact ⟨_, rfl⟩
    | cons m' rest =>
      rw [tokensOfMembers]
      · exact ⟨_, rfl⟩
      · intro heq
        cases heq
  obtain ⟨more, hmore⟩ := hbegins
  have hstep : step ⟨stack, .nameOrClose⟩ (.text (some m.1))
      = step ⟨stack, .name⟩ (.text (some m.1)) := by
    cases stack with
    | nil => rfl
    | cons frame stack =>
      cases frame
      all_goals rfl
  rw [hmore, List.foldlM_cons, List.foldlM_cons, hstep]

/-- The tokens of a value are handed on as its form. By induction on
`Printable`: a value without brackets is one token, and brackets open a frame,
fill it and hand it on. -/
theorem parses {v : Json} (h : v.Printable) : Parses v := by
  induction h with
  | null => exact fun _ => rfl
  | bool b => exact fun _ => rfl
  | int word => exact fun _ => rfl
  | float legible => exact fun _ => rfl
  | string s => exact fun _ => rfl
  | @array items inside ih =>
    intro stack
    rw [tokensOf, form]
    show (tokensOfItems items ++ [Token.closeArray]).foldlM step
        ⟨.items [] :: stack, .itemOrClose⟩ = _
    cases items with
    | nil => rfl
    | cons v rest =>
      rw [List.foldlM_append, foldlM_items_itemOrClose, foldlM_items ih []]
      show some
          (deliver (.array ((formItems (v :: rest)).reverse ++ []).reverse)
          stack) = _
      -- A frame holds the latest item first; handing it on turns it round.
      rw [List.append_nil, List.reverse_reverse]
  | @object members ascending inside ih =>
    intro stack
    rw [tokensOf, form]
    show (tokensOfMembers members ++ [Token.closeObject]).foldlM step
      ⟨.members [] none :: stack, .nameOrClose⟩ = _
    cases members with
    | nil => rfl
    | cons m rest =>
      obtain ⟨last, hmembers⟩ := foldlM_members ih stack [] none
      rw [List.foldlM_append, foldlM_members_nameOrClose, hmembers]
      show some
          (deliver (.object ((formMembers (m :: rest)).reverse ++ []).reverse)
          stack) = _
      rw [List.append_nil, List.reverse_reverse]

end Reading

/-- The text of a value has the form of the value: `tokens_pretty`, and then
`Reading.parses` with nothing open. -/
theorem ofText?_pretty {v : Json} (h : v.Printable) :
    Written.ofText? (pretty 0 v) = some v.form := by
  unfold Written.ofText?
  dsimp only
  rw [tokens_pretty h, Option.bind_eq_bind, Option.bind_some]
  have hread : (tokensOf v).foldlM Reading.step Reading.start
      = some ⟨[], .nothing v.form⟩ :=
    Reading.parses h []
  rw [hread]
  rfl

-- ============================================================ outlines

mutual

/-- How deep the brackets of a value are nested. -/
def depth : Json → Nat
  | .array items => depthOfItems items + 1
  | .object members => depthOfMembers members + 1
  | _ => 0

/-- How deep the deepest item is. -/
def depthOfItems : List Json → Nat
  | [] => 0
  | v :: rest => max (depth v) (depthOfItems rest)

/-- How deep the deepest member is. -/
def depthOfMembers : List (String × Json) → Nat
  | [] => 0
  | (_, v) :: rest => max (depth v) (depthOfMembers rest)

end

/-- A list is no deeper than its items are. -/
theorem depthOfItems_le {items : List Json} {n : Nat}
    (h : ∀ v ∈ items, v.depth ≤ n) : depthOfItems items ≤ n := by
  induction items with
  | nil => exact Nat.zero_le n
  | cons v rest ih =>
    rw [depthOfItems]
    exact Nat.max_le.2 ⟨h v List.mem_cons_self, ih fun w hw =>
      h w (List.mem_cons_of_mem _ hw)⟩

/-- Members are no deeper than their values are, as for `depthOfItems_le`. -/
theorem depthOfMembers_le {members : List (String × Json)} {n : Nat}
    (h : ∀ m ∈ members, m.2.depth ≤ n) : depthOfMembers members ≤ n := by
  induction members with
  | nil => exact Nat.zero_le n
  | cons m rest ih =>
    obtain ⟨k, v⟩ := m
    rw [depthOfMembers]
    exact Nat.max_le.2 ⟨h (k, v) List.mem_cons_self, ih fun m hm =>
      h m (List.mem_cons_of_mem _ hm)⟩

/-- An object that is filled from members is one bracket deeper than they are
at most; some of them may have given way to others
(`Table.mem_of_mem_ofList`). -/
theorem depth_ofMembers_le {members : List (String × Json)} {n : Nat}
    (h : ∀ m ∈ members, m.2.depth ≤ n) :
    (ofMembers members).depth ≤ n + 1 := by
  unfold ofMembers
  rw [depth]
  exact Nat.succ_le_succ (depthOfMembers_le fun m hm =>
    h m (Table.mem_of_mem_ofList hm))

namespace Outline

/-- An outline finds a value in its form exactly if the brackets do not nest
too deep. -/
def Finds (o : Outline) (v : Json) : Prop :=
  ∀ room, 0 < room → Written.value? room o v.form = if v.depth < room then
    some v else none

variable {o : Outline}

/-- What has no brackets is found by every outline, since `value?` takes
scalars as they are. -/
theorem finds_of_depth_eq_zero {v : Json} (h : v.depth = 0) : o.Finds v := by
  intro room hroom
  rw [h, if_pos hroom]
  cases v with
  | array items => cases h
  | object members => cases h
  | _ => rfl

/-- What is found in two parts is found in both together. -/
theorem found_together {α β γ : Type} {room d e : Nat} {x : α} {y : β}
    {f : α → β → γ} :
    ((if d < room then some x else none).bind fun x =>
      (if e < room then some y else none).bind fun y => some (f x y))
      = if max d e < room then some (f x y) else none := by
  by_cases hd : d < room
  · by_cases he : e < room
    · rw [if_pos hd, if_pos he, if_pos (Nat.max_lt.2 ⟨hd, he⟩)]
      rfl
    · rw [if_pos hd, if_neg he, if_neg fun hboth => he (Nat.max_lt.1 hboth).2]
      rfl
  · rw [if_neg hd, if_neg fun hboth => hd (Nat.max_lt.1 hboth).1]
    rfl

variable {room : Nat}

/-- The items of an array are found together if each one is, and none of them
is too deep. By induction on the items; `found_together` puts the first one to
the rest. -/
theorem items?_form {items : List Json} (h : ∀ v ∈ items, o.Finds v)
    (hroom : 0 < room) :
    Written.items? room o (formItems items)
      = if depthOfItems items < room then some items else none := by
  induction items with
  | nil => exact (if_pos hroom).symm
  | cons v rest ih =>
    rw [formItems, Written.items?, h v List.mem_cons_self room hroom,
      ih fun w hw => h w (List.mem_cons_of_mem _ hw)]
    exact found_together

/-- Members that are taken whole are found together if each one is, as in
`items?_form`. -/
theorem members?_form {members : List (String × Json)}
    (h : ∀ m ∈ members, whole.Finds m.2) (hroom : 0 < room) :
    Written.members? room (formMembers members)
      = if depthOfMembers members < room then some members else none := by
  induction members with
  | nil => exact (if_pos hroom).symm
  | cons m rest ih =>
    obtain ⟨k, v⟩ := m
    rw [formMembers, Written.members?, h (k, v) List.mem_cons_self room hroom,
      ih fun m hm => h m (List.mem_cons_of_mem _ hm)]
    exact found_together

/-- The fields of a record are found together if each one is, through the
outline that is known for it. The induction is that of `items?_form` once
more. -/
theorem fields?_form {known : List (String × Outline)}
    {members : List (String × Json)}
    (h : ∀ m ∈ members, ∃ o, known.lookup m.1 = some o ∧ o.Finds m.2)
    (hroom : 0 < room) :
    Written.fields? room known (formMembers members)
      = if depthOfMembers members < room then some members else none := by
  induction members with
  | nil => exact (if_pos hroom).symm
  | cons m rest ih =>
    obtain ⟨k, v⟩ := m
    obtain ⟨o, hknown, hfinds⟩ := h (k, v) List.mem_cons_self
    rw [formMembers, Written.fields?, hknown]
    dsimp only
    rw [hfinds room hroom, ih fun m hm => h m (List.mem_cons_of_mem _ hm)]
    exact found_together

/-- Brackets around what is found nest one deeper than that. -/
theorem found_inside {α : Type} {d : Nat} {x : α} {v : Json}
    {found : Option α} {make : α → Option Json} (hmake : make x = some v)
    (h : 0 < room - 1 → found = if d < room - 1 then some x else none) :
    (if room < 2 then none else found.bind make) = if d + 1 < room then
      some v else none := by
  by_cases hsmall : room < 2
  · rw [if_pos hsmall, if_neg (by omega)]
  · rw [if_neg hsmall, h (by omega)]
    by_cases hd : d + 1 < room
    · rw [if_pos (by omega), if_pos hd, Option.bind_some, hmake]
    · rw [if_neg (by omega), if_neg hd, Option.bind_none]

/-- Items are found in an array that is looked at item by item: `items?_form`,
inside one more bracket (`found_inside`). -/
theorem finds_items {items : List Json} (h : ∀ v ∈ items, o.Finds v) :
    (Outline.items o).Finds (.array items) := by
  intro room hroom
  rw [form, Written.value?, depth, Option.map_eq_bind]
  · exact found_inside rfl fun hinside => items?_form h hinside
  · intro known heq
    cases heq

/-- A record is found if each of its fields is known and found
(`fields?_form`). Its members come in the order of their names, each once, so
filling a table with them again gives the same table
(`Ascending.ofList_eq`). -/
theorem finds_record {known : List (String × Outline)}
    {written : List (String × Json)}
    (h : ∀ m ∈ written, ∃ o, known.lookup m.1 = some o ∧ o.Finds m.2) :
    (Outline.fields known).Finds (ofMembers written) := by
  intro room hroom
  have hascending : Table.Ascending (Table.ofList written) :=
    Table.ascending_ofList written
  have hfields : ∀ m ∈ Table.ofList written, ∃ o, known.lookup m.1 = some o
      ∧ o.Finds m.2 :=
    fun m hm => h m (Table.mem_of_mem_ofList hm)
  show Written.value? room (.fields known)
      (form (.object (Table.ofList written)))
    = if depth (.object (Table.ofList written)) < room then
      some (.object (Table.ofList written))
      else none
  rw [form, Written.value?, depth]
  refine found_inside ?_ fun hinside => fields?_form hfields hinside
  refine (if_pos hascending.nodup_keys).trans ?_
  show some (Json.object (Table.ofList (Table.ofList written))) = _
  rw [hascending.ofList_eq]

/-- A value that can be read from its text is found as a whole. By induction
on `Printable`, which has the members in order, so that they fill the same
table again. -/
theorem finds_whole {v : Json} (h : v.Printable) : whole.Finds v := by
  induction h with
  | @array items inside ih =>
    intro room hroom
    rw [form, Written.value?, depth, Option.map_eq_bind]
    · exact found_inside rfl fun hinside => items?_form ih hinside
    · intro known heq
      cases heq
  | @object members ascending inside ih =>
    intro room hroom
    rw [form, Written.value?, depth, Option.map_eq_bind]
    · refine found_inside ?_ fun hinside => members?_form ih hinside
      show some (Json.object (Table.ofList members)) = _
      rw [ascending.ofList_eq]
    all_goals intros; contradiction
  | _ => exact finds_of_depth_eq_zero rfl

end Outline

/-- A value is read from its indented text exactly if its brackets do not nest
too deep: `ofText?_pretty` for the form, and `Outline.Finds` with room for as
many brackets as the reader takes. -/
theorem readAs?_pretty {outline : Outline} {v : Json} (h : v.Printable)
    (hfinds : outline.Finds v) :
    readAs? outline (pretty 0 v) = if v.depth < nestingLimit then
      some v else none := by
  unfold readAs?
  rw [ofText?_pretty h, Option.bind_some]
  exact hfinds nestingLimit (by decide)

end TaskRouting.Json

import TaskRouting.Execution.Basic
/-!
Executions that end before their bound is used up.

An execution that does not settle has used up its bound, whatever it has done
until then (`Settles`). The lemmas here come in two directions. Forwards, a
sequence settles if both of its parts do (`Settles.bind`), and a call to a
collaborator always does (`consult_settles`), so whatever is made of calls and
of settled executions settles. Backwards, a sequence that settles has parts
that do, as far as it gets (`Settles.of_bind`, `Settles.of_bind_ok`).

# What a sequence and a call do

`bind_apply` and `consult_apply` say what the two building blocks of an
execution do to a trace. Everything that is proved about executions rewrites
with these two and never opens the monad; `ok_of_bind` and `answer_of_consult`
are their readings backwards, from a value to where it came from.
-/

namespace TaskRouting.Execution

variable {σ α β : Type}

/-- The execution ends before its bound is used up: it has a value, or is
stopped by something other than `Stop.exhausted`. -/
def Settles (e : Execution σ α) (t : Trace σ) : Prop :=
  (e t).1 ≠ .error .exhausted

/-- What has a value has not used up its bound. -/
theorem settles_of_ok {e : Execution σ α} {t t' : Trace σ} {a : α}
    (h : e t = (.ok a, t')) : e.Settles t := by
  unfold Settles
  rw [h]
  exact fun hexhausted => nomatch hexhausted

/-- Only the result and the trace matter, not which execution they are of. -/
theorem Settles.congr {e e' : Execution σ α} {t t' : Trace σ}
    (hsettles : e'.Settles t') (h : e t = e' t') : e.Settles t := by
  unfold Settles
  rw [h]
  exact hsettles

/-- What a sequence of two executions does: the second one begins with the
trace that the first one leaves, unless the first one is stopped. -/
theorem bind_apply (e : Execution σ α) (f : α → Execution σ β) (t : Trace σ) :
    (e >>= f) t
      = match e t with
        | (.ok a, t') => f a t'
        | (.error stop, t') => (.error stop, t') := by
  show (match e t with
    | (r, t') => ExceptT.bindCont f r t') = _
  rcases e t with ⟨stop | a, t'⟩
  · rfl
  · rfl

/-- A sequence has a value only by way of a value of its first part: read off
from `bind_apply`. -/
theorem ok_of_bind {e : Execution σ α} {f : α → Execution σ β}
    {t t' : Trace σ} {b : β} (h : (e >>= f) t = (.ok b, t')) :
    ∃ a t₁, e t = (.ok a, t₁) ∧ f a t₁ = (.ok b, t') := by
  rw [bind_apply] at h
  rcases heq : e t with ⟨stop | a, t₁⟩
  · rw [heq] at h
    cases h
  · rw [heq] at h
    exact ⟨a, t₁, rfl, h⟩

/-- A value that is at hand leaves the trace as it is. -/
theorem pure_apply (a : α) (t : Trace σ) :
    (pure a : Execution σ α) t = (.ok a, t) :=
  rfl

/-- A sequence settles if both of its parts do; of the second part that is
asked only where the first one has a value. -/
theorem Settles.bind {e : Execution σ α} {f : α → Execution σ β} {t : Trace σ}
    (he : e.Settles t) (hf : ∀ a t', e t = (.ok a, t') → (f a).Settles t') :
    (e >>= f).Settles t := by
  rcases heq : e t with ⟨stop | a, t'⟩
  · unfold Settles at he ⊢
    rw [heq] at he
    rw [bind_apply, heq]
    intro hexhausted
    cases Except.error.inj hexhausted
    exact he rfl
  · refine (hf a t' heq).congr ?_
    rw [bind_apply, heq]

/-- A sequence settles only if its first part does: where that is `exhausted`,
so is the sequence. -/
theorem Settles.of_bind {e : Execution σ α} {f : α → Execution σ β}
    {t : Trace σ} (h : (e >>= f).Settles t) : e.Settles t := by
  intro hexhausted
  apply h
  have heq : e t = (.error .exhausted, (e t).2) := Prod.ext hexhausted rfl
  rw [bind_apply, heq]

/-- A sequence settles only if its second part does, for by `bind_apply` they
end alike. -/
theorem Settles.of_bind_ok {e : Execution σ α} {f : α → Execution σ β}
    {t t' : Trace σ} {a : α} (h : (e >>= f).Settles t)
    (he : e t = (.ok a, t')) : (f a).Settles t' := by
  refine h.congr ?_
  rw [bind_apply, he]

/-- What `consult` does: the call is noted, and the world is the one that the
answer leaves, even if the answer is a crash. -/
theorem consult_apply (call : Call) (answer : σ → Except Crash α × σ)
    (t : Trace σ) :
    consult call answer t
      = match answer t.world with
        | (.ok a, world) => (.ok a, { t.call call with world })
        | (.error crash, world) =>
          (.error (.crash crash), { t.call call with world }) := by
  rcases hanswer : answer t.world with ⟨crash | a, world⟩
  all_goals
    simp only [consult, bind_apply, note, observe, setWorld,
      Trace.call, hanswer]
    rfl

/-- A call that is answered has the answer for its value. -/
theorem consult_of_answer {call : Call} {answer : σ → Except Crash α × σ}
    {t : Trace σ} {a : α} (h : (answer t.world).1 = .ok a) :
    consult call answer t = (.ok a,
      { t.call call with world := (answer t.world).2 }) := by
  rw [consult_apply]
  rcases hanswer : answer t.world with ⟨crash | a', world⟩
  · rw [hanswer] at h
    cases h
  · rw [hanswer] at h
    cases h
    rfl

/-- A call to which there is an answer has been made once, and the answer is
that of the world before (`consult_apply` read backwards). -/
theorem answer_of_consult {call : Call} {answer : σ → Except Crash α × σ}
    {t t' : Trace σ} {a : α} (h : consult call answer t = (.ok a, t')) :
    answer t.world = (.ok a, t'.world) ∧ t'.calls = t.calls ++ [call] := by
  rw [consult_apply] at h
  rcases hanswer : answer t.world with ⟨crash | a', world⟩
  · rw [hanswer] at h
    cases h
  · rw [hanswer] at h
    cases h
    exact ⟨rfl, Trace.calls_call t call⟩

/-- A call to a collaborator uses up no bound: it is answered, or it crashes.
These are the two cases of `consult_apply`. -/
theorem consult_settles {call : Call} {answer : σ → Except Crash α × σ}
    {t : Trace σ} : (consult call answer).Settles t := by
  intro hexhausted
  rw [consult_apply] at hexhausted
  rcases hanswer : answer t.world with ⟨crash | a, world⟩
  all_goals
    rw [hanswer] at hexhausted
    cases hexhausted

end TaskRouting.Execution

import ProtoNames.Scope.Query

/-!
Running queries.

A run gives a result or a failure, and the progress up to there. These equations say what
each building block of a query does, so that later proofs need not look inside the monad.
-/

namespace ProtoNames.Query

variable {α β : Type} {s : Setup} {p : Progress}

@[simp] theorem run_pure (a : α) : (pure a : Query α).run s p = (.ok a, p) := rfl

@[simp] theorem run_throw (e : QueryError) : (throw e : Query α).run s p = (.error e, p) := rfl

@[simp] theorem run_log (e : Event) :
    (log e).run s p = (.ok (), { p with journal := p.journal ++ [e] }) := rfl

@[simp] theorem run_read : (read : Query Setup).run s p = (.ok s, p) := rfl

@[simp] theorem run_get : (get : Query Progress).run s p = (.ok p, p) := rfl

@[simp] theorem run_set (q : Progress) : (set q : Query Unit).run s p = (.ok (), q) := rfl

/-- A query goes on with the result of its first part, or fails with it. -/
theorem run_bind (q : Query α) (f : α → Query β) :
    (q >>= f : Query β).run s p =
      match q.run s p with
      | (.ok a, after) => (f a).run s after
      | (.error e, after) => (.error e, after) := by
  show (match q.run s p with
    | (result, after) => ExceptT.bindCont (fun a => f a s) result after) = _
  cases q.run s p with
  | mk result after => cases result <;> rfl

theorem run_read_bind (f : Setup → Query α) : (read >>= f).run s p = (f s).run s p := rfl

theorem run_map (f : α → β) (q : Query α) :
    (f <$> q : Query β).run s p = ((q.run s p).1.map f, (q.run s p).2) := by
  rw [← bind_pure_comp, run_bind]
  cases q.run s p with
  | mk result after => cases result <;> rfl

theorem run_bind_eq_ok {q : Query α} {f : α → Query β} {b : β} {after : Progress}
    (h : (q >>= f : Query β).run s p = (.ok b, after)) :
    ∃ a mid, q.run s p = (.ok a, mid) ∧ (f a).run s mid = (.ok b, after) := by
  rw [run_bind] at h
  cases ran : q.run s p with
  | mk result mid =>
    rw [ran] at h
    cases result with
    | error e => exact absurd (congrArg Prod.fst h) (by simp)
    | ok a => exact ⟨a, mid, rfl, h⟩

theorem eq_ok_of_toOption {ε : Type} {result : Except ε α} {a : α}
    (h : result.toOption = some a) : result = .ok a := by
  cases result with
  | error e => cases h
  | ok b => exact congrArg Except.ok (Option.some.inj h)

end ProtoNames.Query

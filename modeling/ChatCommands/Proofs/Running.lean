import ChatCommands.Command

/-!
# Running work that may fail

Actions on a model, the work of a command and the work of a host are all of one shape: they change a
state, and either yield a value or fail with the state as it is then. This file says how such work
runs, and what the single steps of a command do.
-/

namespace ChatCommands

section
variable {ε σ α β : Type}

theorem run_run_pure (a : α) (s : σ) :
    (pure a : ExceptT ε (StateM σ) α).run.run s = (.ok a, s) := rfl

theorem run_run_get (s : σ) :
    (get : ExceptT ε (StateM σ) σ).run.run s = (.ok s, s) := rfl

/-- The run of `work >>= next` goes on from the state that `work` has left, unless `work` has
failed. -/
theorem run_run_bind (work : ExceptT ε (StateM σ) α) (next : α → ExceptT ε (StateM σ) β) (s : σ) :
    (work >>= next).run.run s =
      match work.run.run s with
      | (.ok a, t) => (next a).run.run t
      | (.error e, t) => (.error e, t) := by
  rw [ExceptT.run_bind, StateT.run_bind]
  rcases h : work.run.run s with ⟨_ | a, t⟩ <;> rfl

/-- A bind with `pure ∘ f` maps the value and keeps the state. -/
theorem run_run_bind_pure (work : ExceptT ε (StateM σ) α) (f : α → β) (s : σ) :
    (work >>= fun a => pure (f a)).run.run s = ((work.run.run s).1.map f, (work.run.run s).2) := by
  rw [run_run_bind]
  rcases work.run.run s with ⟨_ | a, t⟩ <;> rfl

/-- If `work` followed by `pure b` yields a value, then `work` has yielded one. -/
theorem exists_run_of_bind_pure {work : ExceptT ε (StateM σ) α} {b result : β} {s t : σ}
    (h : (work >>= fun _ => pure b).run.run s = (.ok result, t)) :
    b = result ∧ ∃ a, work.run.run s = (.ok a, t) := by
  rw [run_run_bind] at h
  rcases hwork : work.run.run s with ⟨_ | a, u⟩ <;> rw [hwork] at h <;> cases h
  exact ⟨rfl, a, rfl⟩

end

namespace Work

@[simp] theorem run_note (event : Event) (frame : Frame) :
    (note event).run.run frame = (.ok (), { frame with events := frame.events ++ [event] }) := rfl

@[simp] theorem run_reset (frame : Frame) :
    reset.run.run frame = (.ok (), { frame with model := ∅ }) := rfl

@[simp] theorem run_act {α : Type} (action : Action α) (frame : Frame) :
    (act action).run.run frame =
      ((action.run.run frame.model).1, { frame with model := (action.run.run frame.model).2 }) :=
  rfl

end Work

end ChatCommands

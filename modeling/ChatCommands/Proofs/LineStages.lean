import ChatCommands.Proofs.Segmentation

/-!
# The stages of a line

A line that a command works on goes through stages: it has to be addressed to the command, the
parameters are handed their values, the model is validated, and the action is run. This file says
for each stage what it leaves behind and which events it notes, and puts the stages together to the
runs of `parse` and `execute`. A line that asks for help reaches none of the later stages.
-/

namespace ChatCommands

theorem Frame.append_nil (frame : Frame) : Frame.mk frame.model (frame.events ++ []) = frame :=
  congrArg (Frame.mk frame.model) (List.append_nil frame.events)

namespace Command

/-! ## Handing out the values -/

/-- `Command.fill` up to the validation: reset the model and hand the parameters their values. -/
def handOut (c : Command) (line : String) : Work Unit := do
  Work.reset
  c.deliverWhole (c.argumentText line)
  c.deliverSegments (c.argumentText line)

theorem fill_eq_handOut (c : Command) (line : String) :
    c.fill line = (do c.handOut line; c.ensureValid) := by
  simp only [fill, handOut, bind_assoc]

/-- `handOut` runs `carryOut` from the empty model, whatever the model has been. -/
theorem run_handOut (c : Command) (line : String) (frame : Frame) :
    (c.handOut line).run.run frame =
      let (outcome, model, made) := carryOut (c.calls (c.argumentText line)) ∅
      (outcome, ⟨model, frame.events ++ made.map .delivered⟩) := by
  have hcalls : c.handOut line =
      (do Work.reset; (c.calls (c.argumentText line)).forM makeCall) := by
    simp only [handOut, deliverWhole_eq, deliverSegments_eq, calls, List.forM_eq_forM,
      List.forM_append]
  rw [hcalls, run_run_bind, Work.run_reset]
  exact run_forM_makeCall _ _

/-! ## Validating -/

/-- What the answer of the check means for the line: `false` is `rejected`. -/
def verdict : Except Failure Bool → Except Failure Unit
  | .ok true => .ok ()
  | .ok false => .error (.command .rejected)
  | .error failure => .error failure

theorem run_ensureValid (c : Command) (frame : Frame) :
    c.ensureValid.run.run frame =
      let checked := c.validate.run.run frame.model
      (verdict checked.1, ⟨checked.2, frame.events ++ [.validated]⟩) := by
  rw [ensureValid, run_run_bind, Work.run_note]
  simp only [run_run_bind, Work.run_act]
  rcases c.validate.run.run frame.model with ⟨failure | _ | _, model⟩ <;> rfl

/-! ## Filling a model -/

/-- What `fill` comes to: the outcome, the model and the events. The check is reached exactly if no
call of `carryOut` fails. -/
def filled (c : Command) (line : String) : Except Failure Unit × Frame :=
  match carryOut (c.calls (c.argumentText line)) ∅ with
  | (.error failure, model, made) => (.error failure, ⟨model, made.map .delivered⟩)
  | (.ok (), model, made) =>
    let checked := c.validate.run.run model
    (verdict checked.1, ⟨checked.2, made.map .delivered ++ [.validated]⟩)

/-- `fill` has the outcome and the model of `filled`, and adds its events to the earlier ones. -/
theorem run_fill (c : Command) (line : String) (frame : Frame) :
    (c.fill line).run.run frame =
      let (outcome, after) := c.filled line
      (outcome, ⟨after.model, frame.events ++ after.events⟩) := by
  rw [fill_eq_handOut, run_run_bind, run_handOut, filled]
  rcases carryOut (c.calls (c.argumentText line)) ∅ with ⟨failure | _, model, made⟩
  · rfl
  · simp only [run_ensureValid, List.append_assoc]

theorem count_delivered {event : Event} (h : ∀ delivery, event ≠ .delivered delivery)
    (made : List Delivery) : (made.map Event.delivered).count event = 0 := by
  refine List.count_eq_zero.2 fun hmem => ?_
  obtain ⟨delivery, -, rfl⟩ := List.mem_map.1 hmem
  exact h delivery rfl

/-- `filled` notes no `ran`. -/
theorem count_ran_filled (c : Command) (line : String) :
    (c.filled line).2.events.count .ran = 0 := by
  unfold filled
  rcases carryOut (c.calls (c.argumentText line)) ∅ with ⟨failure | _, model, made⟩ <;>
    simp [count_delivered]

/-- `filled` notes `validated` once, unless `handOut` fails. -/
theorem count_validated_filled (c : Command) (line : String) :
    (c.filled line).2.events.count .validated =
      if (start (c.handOut line)).1.isOk then 1 else 0 := by
  rw [start, run_handOut, filled]
  rcases carryOut (c.calls (c.argumentText line)) ∅ with ⟨failure | _, model, made⟩ <;>
    simp [count_delivered, Except.isOk, Except.toBool]

/-! ## Running the action -/

/-- The action of a command with its reply settled. -/
def action (c : Command) : Action Value := do
  let reply ← c.run
  reply.settle

theorem run_perform (c : Command) (frame : Frame) :
    c.perform.run.run frame =
      let acted := c.action.run.run frame.model
      (acted.1, ⟨acted.2, frame.events ++ [.ran]⟩) := by
  rw [perform, action, run_run_bind, Work.run_note, run_run_bind]
  simp only [run_run_bind, Work.run_act]
  rcases c.run.run.run frame.model with ⟨failure | reply, model⟩ <;> rfl

/-! ## Asking for help -/

/-- `renderHelp` depends on the command and the line alone, and keeps the model. -/
theorem run_renderHelp (c : Command) (line : String) (frame : Frame) :
    (c.renderHelp line).run.run frame =
      let (outcome, after) := start (c.renderHelp line)
      (outcome, ⟨frame.model, frame.events ++ after.events⟩) := by
  simp only [renderHelp, start]
  split
  · rfl
  · split
    · exact congrArg (Prod.mk _) frame.append_nil.symm
    · rfl

/-- `renderHelp` gives the listing, the detail of the parameter under the topic, or `unknownTopic`.
-/
theorem renderHelp_cases (c : Command) (line : String) :
    (start (c.renderHelp line)).1 = .ok c.generalHelp ∨
      (∃ p, c.parameters.get? (c.topic line) = some p ∧
        (start (c.renderHelp line)).1 = .ok (parameterHelp p)) ∨
      (start (c.renderHelp line)).1 =
        .error (.command (.unknownTopic c.name (c.topic line))) := by
  simp only [renderHelp, start]
  split
  · exact .inl rfl
  · split
    · exact .inr (.inr rfl)
    · rename_i p hp
      exact .inr (.inl ⟨p, hp, rfl⟩)

/-- `renderHelp` notes nothing but that help was given. -/
theorem mem_events_renderHelp {c : Command} {line : String} {event : Event}
    (h : event ∈ (start (c.renderHelp line)).2.events) :
    event = .gaveHelp c.name ∨ event = .gaveTopic c.name (c.topic line) := by
  simp only [renderHelp, start] at h
  split at h
  · exact .inl (List.mem_singleton.1 h)
  · split at h
    · cases h
    · exact .inr (List.mem_singleton.1 h)

/-! ## Parsing and executing -/

section
variable {c : Command} {line : String}

theorem parse_of_not_accepts (h : c.accepts line = false) :
    c.parse line = throw (.command (.unaddressed c.name line)) := by
  rw [parse, ensureAddressed, if_neg (by simp [h])]
  rfl

/-- `parse` on an addressed line is `filled`, whether or not the line mentions help. -/
theorem run_parse_of_accepts (h : c.accepts line = true) (frame : Frame) :
    (c.parse line).run.run frame =
      let (outcome, after) := c.filled line
      (outcome.map fun _ => after.model, ⟨after.model, frame.events ++ after.events⟩) := by
  rw [parse, ensureAddressed, if_pos h, pure_bind, run_run_bind, run_fill]
  rcases c.filled line with ⟨failure | _, after⟩ <;> rfl

theorem execute_of_not_accepts (h : c.accepts line = false) :
    c.execute line = throw (.command (.unaddressed c.name line)) := by
  rw [execute, ensureAddressed, if_neg (by simp [h])]
  rfl

/-- `execute` on an addressed line that mentions help is `renderHelp`. -/
theorem execute_of_help (h : c.accepts line = true) (hhelp : Text.contains line helpWord = true) :
    c.execute line = (do return .text (← c.renderHelp line)) := by
  rw [execute, ensureAddressed, if_pos h, pure_bind, if_pos hhelp]

/-- `execute` on any other addressed line is `filled`, and then `action` on the model. -/
theorem run_execute_of_plain (h : c.accepts line = true)
    (hhelp : Text.contains line helpWord = false) (frame : Frame) :
    (c.execute line).run.run frame =
      match c.filled line with
      | (.error failure, after) => (.error failure, ⟨after.model, frame.events ++ after.events⟩)
      | (.ok (), after) =>
        let acted := c.action.run.run after.model
        (acted.1, ⟨acted.2, frame.events ++ after.events ++ [.ran]⟩) := by
  rw [execute, ensureAddressed, if_pos h, pure_bind, if_neg (by simp [hhelp]), run_run_bind,
    run_fill]
  rcases c.filled line with ⟨failure | _, after⟩
  · rfl
  · exact run_perform c _

end

end Command

end ChatCommands

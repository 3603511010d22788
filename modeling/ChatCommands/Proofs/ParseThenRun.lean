import ChatCommands.Proofs.LineStages

/-!
# Executing is parsing and then running

Two ways lead into a command: `parse` fills the model and stops, `execute` goes on to the action.
The main statement, `execute_runs_what_parse_fills`, is that on a line that does not mention help
they do the same up to the action: they fail alike, with the same failure, the same model and the
same events, and when parsing does not fail the action is run once, on the model that was parsed. A
line that mentions help is where they part: `execute` answers it with help, and `parse` reads it as
it reads any line.
-/

namespace ChatCommands

namespace Command

/-- Run `work` from the model `held`: the outcome, the model and the events. -/
def startOn {α : Type} (held : Model) (work : Work α) : Except Failure α × Frame :=
  work.run.run ⟨held, []⟩

/-- What `execute` and `parse` of `line` have to do with each other, both from the model `held`. -/
structure ExecutesWhatItParses (c : Command) (line : String) (held : Model) : Prop where
  -- `execute` fails before the action exactly if `parse` fails
  fails_iff : Text.contains line helpWord = false →
    ((∃ failure, (startOn held (c.execute line)).1 = .error failure ∧
        .ran ∉ (startOn held (c.execute line)).2.events) ↔
      ∃ failure, (startOn held (c.parse line)).1 = .error failure)
  fails_alike : Text.contains line helpWord = false → ∀ failure,
    (startOn held (c.parse line)).1 = .error failure →
      startOn held (c.execute line) = (.error failure, (startOn held (c.parse line)).2)
  -- otherwise `execute` runs the action once, on the model that `parse` leaves
  runs_parsed : Text.contains line helpWord = false → ∀ model,
    (startOn held (c.parse line)).1 = .ok model →
      (startOn held (c.parse line)).2.model = model ∧
      (startOn held (c.execute line)).1 = (c.action.run.run model).1 ∧
      (startOn held (c.execute line)).2.model = (c.action.run.run model).2 ∧
      (startOn held (c.execute line)).2.events =
        (startOn held (c.parse line)).2.events ++ [.ran]
  never_runs : (startOn held (c.parse line)).2.events.count .ran = 0
  -- `parse` validates once, unless the line is not addressed or a parameter refuses its value
  validations : (startOn held (c.parse line)).2.events.count .validated =
    if c.accepts line = true ∧ (start (c.handOut line)).1.isOk = true then 1 else 0
  answers_help : c.accepts line = true → Text.contains line helpWord = true →
    startOn held (c.execute line) =
      ((startOn held (c.renderHelp line)).1.map Value.text, (startOn held (c.renderHelp line)).2)
  -- for parsing, help is a word like any other: whether or not an addressed line mentions it, the
  -- calls of the argument text are made, and the model is validated if none of them fails
  parses_help : c.accepts line = true → startOn held (c.parse line) =
    start (do
      (c.calls (c.argumentText line)).forM makeCall
      c.ensureValid
      return (← get).model)

variable {c : Command} {line : String}

theorem startOn_execute (hhelp : Text.contains line helpWord = false) (held : Model) :
    startOn held (c.execute line) =
      match startOn held (c.parse line) with
      | (.error failure, after) => (.error failure, after)
      | (.ok model, after) =>
        let acted := c.action.run.run model
        (acted.1, ⟨acted.2, after.events ++ [.ran]⟩) := by
  cases haccepts : c.accepts line with
  | false =>
    rw [execute_of_not_accepts haccepts, parse_of_not_accepts haccepts]
    rfl
  | true =>
    rw [startOn, startOn, run_execute_of_plain haccepts hhelp, run_parse_of_accepts haccepts]
    rcases c.filled line with ⟨failure | _, after⟩ <;> rfl

theorem model_startOn_parse {held model : Model}
    (h : (startOn held (c.parse line)).1 = .ok model) :
    (startOn held (c.parse line)).2.model = model := by
  cases haccepts : c.accepts line with
  | false =>
    rw [parse_of_not_accepts haccepts] at h
    cases h
  | true =>
    rw [startOn, run_parse_of_accepts haccepts] at h ⊢
    rcases hfilled : c.filled line with ⟨failure | _, after⟩ <;> rw [hfilled] at h
    · cases h
    · exact Except.ok.inj h

/-- The events of `parse` on an addressed line are those of `filled`. -/
theorem events_startOn_parse (held : Model) :
    (startOn held (c.parse line)).2.events =
      if c.accepts line = true then (c.filled line).2.events else [] := by
  cases haccepts : c.accepts line with
  | false =>
    rw [parse_of_not_accepts haccepts]
    rfl
  | true =>
    rw [startOn, run_parse_of_accepts haccepts]
    rfl

theorem startOn_parse_of_accepts (h : c.accepts line = true) (held : Model) :
    startOn held (c.parse line) =
      start (do
        (c.calls (c.argumentText line)).forM makeCall
        c.ensureValid
        return (← get).model) := by
  have hparse : c.parse line = (do
      Work.reset
      (c.calls (c.argumentText line)).forM makeCall
      c.ensureValid
      return (← get).model) := by
    rw [parse, ensureAddressed, if_pos h, pure_bind, fill_eq]
    simp only [bind_assoc]
  rw [hparse, startOn, run_run_bind, Work.run_reset]
  rfl

theorem count_ran_startOn_parse (held : Model) :
    (startOn held (c.parse line)).2.events.count .ran = 0 := by
  rw [events_startOn_parse]
  split
  · exact c.count_ran_filled line
  · rfl

theorem count_validated_startOn_parse (held : Model) :
    (startOn held (c.parse line)).2.events.count .validated =
      if c.accepts line = true ∧ (start (c.handOut line)).1.isOk = true then 1 else 0 := by
  rw [events_startOn_parse]
  cases c.accepts line with
  | false => rfl
  | true => simpa using c.count_validated_filled line

/-! ## Failing before the action, and reaching it -/

section
variable {held : Model} (hhelp : Text.contains line helpWord = false)
include hhelp

theorem startOn_execute_of_error {failure : Failure}
    (h : (startOn held (c.parse line)).1 = .error failure) :
    startOn held (c.execute line) = (.error failure, (startOn held (c.parse line)).2) := by
  rw [startOn_execute hhelp]
  rcases hparsed : startOn held (c.parse line) with ⟨other | model, after⟩ <;> rw [hparsed] at h <;>
    cases h
  rfl

theorem startOn_execute_of_ok {model : Model} (h : (startOn held (c.parse line)).1 = .ok model) :
    startOn held (c.execute line) =
      ((c.action.run.run model).1,
        ⟨(c.action.run.run model).2, (startOn held (c.parse line)).2.events ++ [.ran]⟩) := by
  rw [startOn_execute hhelp]
  rcases hparsed : startOn held (c.parse line) with ⟨failure | other, after⟩ <;>
    rw [hparsed] at h <;> cases h
  rfl

/-- `execute` fails before `ran` exactly if `parse` fails. -/
theorem execute_fails_early_iff :
    (∃ failure, (startOn held (c.execute line)).1 = .error failure ∧
        .ran ∉ (startOn held (c.execute line)).2.events) ↔
      ∃ failure, (startOn held (c.parse line)).1 = .error failure := by
  constructor
  · rintro ⟨failure, -, hnot⟩
    cases hparsed : (startOn held (c.parse line)).1 with
    | error failure => exact ⟨failure, rfl⟩
    | ok model =>
      -- the action has been run, so a failure is one of its own
      rw [startOn_execute_of_ok hhelp hparsed] at hnot
      exact absurd (List.mem_append_right _ List.mem_cons_self) hnot
  · rintro ⟨failure, hfailure⟩
    rw [startOn_execute_of_error hhelp hfailure]
    exact ⟨failure, rfl, List.count_eq_zero.1 (count_ran_startOn_parse held)⟩

end

/-- `execute` and `parse` do the same up to the action, for every command, line and model. -/
theorem execute_runs_what_parse_fills (c : Command) (line : String) (held : Model) :
    ExecutesWhatItParses c line held where
  fails_iff hhelp := execute_fails_early_iff hhelp
  fails_alike hhelp _ hfailure := startOn_execute_of_error hhelp hfailure
  runs_parsed hhelp model hmodel := by
    rw [startOn_execute_of_ok hhelp hmodel]
    exact ⟨model_startOn_parse hmodel, rfl, rfl, rfl⟩
  never_runs := count_ran_startOn_parse held
  validations := count_validated_startOn_parse held
  answers_help haccepts hhelp := by
    rw [startOn, execute_of_help haccepts hhelp, run_run_bind_pure]
    rfl
  parses_help haccepts := startOn_parse_of_accepts haccepts held

end Command

end ChatCommands

import ChatCommands.Proofs.LineStages
import Mathlib.Data.List.Induction

/-!
# Calls on one command, one after another

A command is asked for work again and again, and each call starts on the model that the calls before
it have left, be it half filled by a call that failed. This file proves that nothing comes of that
(`run_work_afterAll`): a call that fills the model ends as it would on a fresh command, and every
other call leaves the model alone.

The step is that each call is done as on a fresh command (`asOnFresh_work`). By induction on the
calls, the model that a history leaves is the one that its last filling call leaves on a fresh
command (`model_afterAll`).
-/

namespace ChatCommands

/-- The events of filling and running: `delivered`, `validated` and `ran`. -/
def Event.isWork : Event → Bool
  | .delivered _ => true
  | .validated => true
  | .ran => true
  | _ => false

namespace Command

/-! ## Calls -/

/-- A call on a command. -/
inductive Request where
  | execute (line : String)
  | parse (line : String)
  | renderHelp (line : String)
  -- tell whether a line is addressed to the command
  | accepts (line : String)

inductive Response where
  | value (value : Value)
  | model (model : Model)
  | text (text : String)
  | flag (value : Bool)

namespace Request

def work (c : Command) : Request → Work Response
  | execute line => do return .value (← c.execute line)
  | parse line => do return .model (← c.parse line)
  | renderHelp line => do return .text (← c.renderHelp line)
  | accepts line => return .flag (c.accepts line)

/-- Whether a call fills the model: `parse` of an addressed line, or `execute` of one that does not
mention `help`. -/
def fills (c : Command) : Request → Bool
  | execute line => c.accepts line && !Text.contains line helpWord
  | parse line => c.accepts line
  | renderHelp _ => false
  | accepts _ => false

end Request

/-- The model and the events after `requests`, from the time the command is made. -/
def afterAll (c : Command) (requests : List Request) : Frame :=
  requests.foldl (fun frame request => ((request.work c).run.run frame).2) ⟨∅, []⟩

/-! ## One call -/

/-- `task` ends as on a fresh command. If it `fills`, it leaves the model of a fresh command as
well; if not, it keeps the model that was there and notes no event with `isWork`. -/
structure AsOnFresh {α : Type} (fills : Bool) (task : Work α) : Prop where
  -- the outcome and the events are those of a fresh command
  run_eq : ∀ frame : Frame, task.run.run frame =
    let (outcome, after) := start task
    (outcome, ⟨if fills then after.model else frame.model, frame.events ++ after.events⟩)
  -- without filling, no parameter, check or action is reached
  isWork_eq_false : fills = false → ∀ event ∈ (start task).2.events, event.isWork = false

section
variable {α β : Type} {fills : Bool} {task : Work α}

theorem AsOnFresh.answer (h : AsOnFresh fills task) (f : α → β) :
    AsOnFresh fills (do return f (← task)) := by
  refine ⟨fun frame => ?_, fun hfills event hevent => ?_⟩
  · rw [start, run_run_bind_pure, run_run_bind_pure, h.run_eq frame]
    rfl
  · rw [start, run_run_bind_pure] at hevent
    exact h.isWork_eq_false hfills event hevent

theorem asOnFresh_pure (a : α) : AsOnFresh false (pure a) :=
  ⟨fun frame => congrArg (Prod.mk _) frame.append_nil.symm, fun _ _ hevent => by cases hevent⟩

theorem asOnFresh_throw (failure : Failure) : AsOnFresh false (throw failure : Work α) :=
  ⟨fun frame => congrArg (Prod.mk _) frame.append_nil.symm, fun _ _ hevent => by cases hevent⟩

end

theorem asOnFresh_renderHelp (c : Command) (line : String) :
    AsOnFresh false (c.renderHelp line) := by
  refine ⟨run_renderHelp c line, fun _ event hevent => ?_⟩
  rcases mem_events_renderHelp hevent with rfl | rfl <;> rfl

theorem asOnFresh_parse (c : Command) (line : String) :
    AsOnFresh (c.accepts line) (c.parse line) := by
  cases haccepts : c.accepts line with
  | false =>
    rw [parse_of_not_accepts haccepts]
    exact asOnFresh_throw _
  | true =>
    refine ⟨fun frame => ?_, fun hfills => by cases hfills⟩
    simp only [start, run_parse_of_accepts haccepts, if_true, List.nil_append]

theorem asOnFresh_execute (c : Command) (line : String) :
    AsOnFresh (c.accepts line && !Text.contains line helpWord) (c.execute line) := by
  cases haccepts : c.accepts line with
  | false =>
    rw [execute_of_not_accepts haccepts]
    exact asOnFresh_throw _
  | true =>
    cases hhelp : Text.contains line helpWord with
    | true =>
      rw [execute_of_help haccepts hhelp]
      exact (asOnFresh_renderHelp c line).answer Value.text
    | false =>
      refine ⟨fun frame => ?_, fun hfills => by cases hfills⟩
      simp only [start, run_execute_of_plain haccepts hhelp]
      rcases c.filled line with ⟨failure | _, after⟩
      · rfl
      · simp

theorem asOnFresh_work (c : Command) (request : Request) :
    AsOnFresh (request.fills c) (request.work c) := by
  cases request with
  | execute line => exact (asOnFresh_execute c line).answer Response.value
  | parse line => exact (asOnFresh_parse c line).answer Response.model
  | renderHelp line => exact (asOnFresh_renderHelp c line).answer Response.text
  | accepts line => exact asOnFresh_pure _

/-! ## Many calls -/

theorem afterAll_append_singleton (c : Command) (earlier : List Request) (request : Request) :
    c.afterAll (earlier ++ [request]) = ((request.work c).run.run (c.afterAll earlier)).2 :=
  List.foldl_append

/-- The model after `requests` is what the last one that `fills` leaves on a fresh command, even if
it fails. -/
theorem model_afterAll (c : Command) (requests : List Request) :
    (c.afterAll requests).model =
      match (requests.filter (·.fills c)).getLast? with
      | some request => (start (request.work c)).2.model
      | none => ∅ := by
  induction requests using List.reverseRecOn with
  | nil => rfl
  | append_singleton earlier request ih =>
    rw [afterAll_append_singleton, (asOnFresh_work c request).run_eq, List.filter_append]
    cases hfills : request.fills c with
    | true => simp [hfills]
    | false => simpa [hfills] using ih

/-- The next call behind any `requests` is answered as on a fresh command, with the same events. If
it `fills`, it leaves the model of a fresh command too. Otherwise no event has `isWork`, and the
model stays what the last request that fills would have left on a fresh command. -/
theorem run_work_afterAll (c : Command) (earlier : List Request) (next : Request) :
    let before := c.afterAll earlier
    let called := (next.work c).run.run before
    let fresh := start (next.work c)
    called.1 = fresh.1 ∧ called.2.events = before.events ++ fresh.2.events ∧
      (next.fills c = true → called.2.model = fresh.2.model) ∧
      (next.fills c = false →
        called.2.model = before.model ∧ ∀ event ∈ fresh.2.events, event.isWork = false) ∧
      before.model =
        match (earlier.filter (·.fills c)).getLast? with
        | some request => (start (request.work c)).2.model
        | none => ∅ := by
  intro before called fresh
  have hnext := asOnFresh_work c next
  have hcalled : called = (fresh.1, ⟨if next.fills c then fresh.2.model else before.model,
      before.events ++ fresh.2.events⟩) := hnext.run_eq before
  rw [hcalled]
  refine ⟨rfl, rfl, fun hfills => ?_, fun hfills => ⟨?_, hnext.isWork_eq_false hfills⟩,
    model_afterAll c earlier⟩
  · exact if_pos hfills
  · exact if_neg (by simp [hfills])

end Command

end ChatCommands

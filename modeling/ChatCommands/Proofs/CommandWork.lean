import ChatCommands.Proofs.Segmentation
import ChatCommands.Proofs.StoreFields

/-!
# What the work of a command can do

The work of a command writes events and never reads them, so what comes of a line does not depend on
what has happened before; and a line that is addressed to the command fails for few reasons of the
library's own. Work with both properties is *contained*. They pass from the steps to all work made
of them, up to `contained_execute`.
-/

namespace ChatCommands

namespace Work

variable {α β : Type} {possible : Failure → Prop}

/-- Work that does not depend on the events so far, and fails only in possible ways. -/
structure Contained (possible : Failure → Prop) (work : Work α) : Prop where
  -- the outcome and the model are the same after any events, to which the work adds its own
  run_eq : ∀ model events, work.run.run ⟨model, events⟩ =
    ((work.run.run ⟨model, []⟩).1,
      ⟨(work.run.run ⟨model, []⟩).2.model, events ++ (work.run.run ⟨model, []⟩).2.events⟩)
  possible_of_run : ∀ frame failure, (work.run.run frame).1 = .error failure → possible failure

theorem contained_pure (a : α) : Contained possible (pure a) :=
  ⟨fun _ events => by simp only [run_run_pure, List.append_nil], fun _ _ h => by cases h⟩

theorem contained_throw {failure : Failure} (h : possible failure) :
    Contained possible (throw failure : Work α) := by
  refine ⟨fun model events => ?_, fun frame other hother => ?_⟩
  · show (Except.error failure, (⟨model, events⟩ : Frame)) =
      (Except.error failure, (⟨model, events ++ []⟩ : Frame))
    rw [List.append_nil]
  · cases hother
    exact h

theorem contained_note (event : Event) : Contained possible (note event) :=
  ⟨fun _ _ => rfl, fun _ _ h => by cases h⟩

theorem contained_reset : Contained possible reset :=
  ⟨fun _ events => by simp only [run_reset, List.append_nil], fun _ _ h => by cases h⟩

theorem contained_act {action : Action α}
    (h : ∀ model failure, (action.run.run model).1 = .error failure → possible failure) :
    Contained possible (act action) := by
  refine ⟨fun model events => ?_, fun frame failure hfailure => ?_⟩
  · simp only [run_act, List.append_nil]
  · rw [run_act] at hfailure
    exact h frame.model failure hfailure

theorem contained_bind {work : Work α} {next : α → Work β} (hwork : Contained possible work)
    (hnext : ∀ a frame, (work.run.run frame).1 = .ok a → Contained possible (next a)) :
    Contained possible (work >>= next) := by
  refine ⟨fun model events => ?_, fun frame failure hfailure => ?_⟩
  · rw [run_run_bind, run_run_bind, hwork.run_eq model events]
    rcases hrun : work.run.run ⟨model, []⟩ with ⟨failure | a, after⟩
    · rfl
    · -- the events of the work come between those before it and those of the rest
      have hrest := hnext a ⟨model, []⟩ (by rw [hrun])
      have hafter : (next a).run.run after =
          (((next a).run.run ⟨after.model, []⟩).1,
            ⟨((next a).run.run ⟨after.model, []⟩).2.model,
              after.events ++ ((next a).run.run ⟨after.model, []⟩).2.events⟩) :=
        hrest.run_eq after.model after.events
      simp only [hrest.run_eq after.model (events ++ after.events), hafter, List.append_assoc]
  · rw [run_run_bind] at hfailure
    rcases hrun : work.run.run frame with ⟨other | a, after⟩
    · rw [hrun] at hfailure
      obtain rfl : other = failure := Except.error.inj hfailure
      exact hwork.possible_of_run frame other (by rw [hrun])
    · rw [hrun] at hfailure
      exact (hnext a frame (by rw [hrun])).possible_of_run after failure hfailure

theorem contained_forM {xs : List α} {f : α → Work Unit}
    (h : ∀ x ∈ xs, Contained possible (f x)) : Contained possible (xs.forM f) := by
  induction xs with
  | nil => exact contained_pure ()
  | cons x xs ih =>
    have hlater := ih fun y hy => h y (List.mem_cons_of_mem _ hy)
    exact contained_bind (h x List.mem_cons_self) fun _ _ _ => hlater

end Work

namespace Command

open Work (Contained contained_pure contained_throw contained_note contained_reset contained_act
  contained_bind contained_forM)

/-! ## Failures of an addressed line -/

/-- The failures that are up to a command: those of its parameters, of its check and of its action.
-/
inductive CanRaise (c : Command) (failure : Failure) : Prop
  | parameter (p : Parameter) (hp : p ∈ c.parameters.values) (value : String) (model : Model)
    (h : ((p.parse value).run.run model).1 = .error failure)
  | validate (model : Model) (h : (c.validate.run.run model).1 = .error failure)
  | run (model : Model) (h : (c.run.run.run model).1 = .error failure)
  -- the work that the action answers with fails
  | settle (reply : Reply) (before : Model) (hreply : (c.run.run.run before).1 = .ok reply)
    (model : Model) (h : (reply.settle.run.run model).1 = .error failure)

/-- The failures of a line that is addressed to a command. -/
inductive CanFail (c : Command) : Failure → Prop
  | raised (failure : Failure) (h : c.CanRaise failure) : CanFail c failure
  | rejected : CanFail c (.command .rejected)
  -- help is asked for a parameter that is not there
  | unknownTopic (topic : String) : CanFail c (.command (.unknownTopic c.name topic))

variable {c : Command}

theorem mem_values_of_get? {key : String} {p : Parameter} (h : c.parameters.get? key = some p) :
    p ∈ c.parameters.values :=
  List.mem_map.2 ⟨(key, p), OrderedMap.mem_of_lookup h, rfl⟩

theorem mem_values_of_mem_calls {arguments : String} {call : Call}
    (h : call ∈ c.calls arguments) : call.1 ∈ c.parameters.values :=
  mem_values_of_get? (get?_of_mem_calls h)

theorem contained_makeCall {call : Call} (h : call.1 ∈ c.parameters.values) :
    Contained c.CanFail (makeCall call) :=
  contained_bind (contained_note _) fun _ _ _ => contained_act fun model failure hfailure =>
    .raised failure (.parameter call.1 h call.2.value model hfailure)

theorem contained_ensureValid (c : Command) : Contained c.CanFail c.ensureValid := by
  have hvalidate : Contained c.CanFail (Work.act c.validate) :=
    contained_act fun model failure hfailure => .raised failure (.validate model hfailure)
  refine contained_bind (contained_note _) fun _ _ _ => contained_bind hvalidate fun valid _ _ => ?_
  cases valid with
  | true => exact contained_pure ()
  | false => exact contained_throw .rejected

theorem contained_fill (c : Command) (line : String) : Contained c.CanFail (c.fill line) := by
  have hcalls : Contained c.CanFail ((c.calls (c.argumentText line)).forM makeCall) :=
    contained_forM fun call hcall => contained_makeCall (mem_values_of_mem_calls hcall)
  rw [fill_eq]
  exact contained_bind contained_reset fun _ _ _ =>
    contained_bind hcalls fun _ _ _ => contained_ensureValid c

theorem contained_perform (c : Command) : Contained c.CanFail c.perform := by
  have hrun : Contained c.CanFail (Work.act c.run) :=
    contained_act fun model failure hfailure => .raised failure (.run model hfailure)
  refine contained_bind (contained_note _) fun _ _ _ =>
    contained_bind hrun fun reply frame hreply => ?_
  rw [Work.run_act] at hreply
  exact contained_act fun model failure hfailure =>
    .raised failure (.settle reply frame.model hreply model hfailure)

theorem contained_renderHelp (c : Command) (line : String) :
    Contained c.CanFail (c.renderHelp line) := by
  simp only [renderHelp]
  split
  · exact contained_bind (contained_note _) fun _ _ _ => contained_pure _
  · split
    · exact contained_throw (.unknownTopic _)
    · exact contained_bind (contained_note _) fun _ _ _ => contained_pure _

/-- What comes of an addressed line does not depend on the events so far. It fails only with
`CanFail`: a failure of the command's own, `rejected`, or an unknown topic. -/
theorem contained_execute {line : String} (haccepts : c.accepts line = true) :
    Contained c.CanFail (c.execute line) := by
  rw [execute, ensureAddressed, if_pos haccepts, pure_bind]
  split
  · exact contained_bind (contained_renderHelp c line) fun _ _ _ => contained_pure _
  · exact contained_bind (contained_fill c line) fun _ _ _ => contained_perform c

end Command

end ChatCommands

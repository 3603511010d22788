import ChatCommands.Proofs.OrderedMaps
import ChatCommands.Proofs.LineStages
import ChatCommands.Workbench

/-!
# Values land with the owner

A command on a workbench works on its own model, while a parameter writes to the model of whichever
command it refers to. This file hands out the values of a line the second way, and shows that it
comes to the first when what the command holds refers to it (`work_handOut_eq_handAlong`).
-/

namespace ChatCommands

namespace Workbench

/-! ## What a command holds -/

def Holds (w : Workbench) (id : CommandId) (key : String) (part : ParameterId) : Prop :=
  ∃ c, w.command? id = some c ∧ c.parts.get? key = some part

/-- What the command `id` holds is there under its own name, and its `owner` is `id`. -/
def OwnsHeld (w : Workbench) (id : CommandId) : Prop :=
  ∀ key part, w.Holds id key part →
    ∃ p, w.parameters[part]? = some p ∧ p.body.name = key ∧ p.owner = some id

/-- The parameters that `resolve` finds are those behind the numbers in `entries`. -/
theorem get?_resolve {w : Workbench} {entries : List (String × ParameterId)}
    {found : OrderedMap String Parameter} {key : String} {body : Parameter}
    (h : (w.resolve entries found).get? key = some body) :
    found.get? key = some body ∨
      ∃ part p, (key, part) ∈ entries ∧ w.parameters[part]? = some p ∧ p.body = body := by
  induction entries generalizing found with
  | nil => exact .inl h
  | cons entry rest ih =>
    obtain ⟨other, part⟩ := entry
    have hrest : ∀ found, (w.resolve rest found).get? key = some body →
        found.get? key = some body ∨ ∃ part' p, (key, part') ∈ (other, part) :: rest ∧
          w.parameters[part']? = some p ∧ p.body = body := by
      intro found hfound
      refine (ih hfound).imp_right ?_
      rintro ⟨part', p, hmem, hp⟩
      exact ⟨part', p, List.mem_cons_of_mem _ hmem, hp⟩
    rw [resolve] at h
    cases hp : w.parameters[part]? with
    | none =>
      rw [hp] at h
      exact hrest found h
    | some p =>
      rw [hp] at h
      rcases hrest _ h with hinsert | hheld
      · rw [OrderedMap.get?_insert] at hinsert
        split at hinsert
        · subst other
          exact .inr ⟨part, p, List.mem_cons_self, hp, Option.some.inj hinsert⟩
        · exact .inl hinsert
      · exact .inr hheld

theorem get?_assembled {w : Workbench} {c : LiveCommand} {key : String} {body : Parameter}
    (h : (w.assembled c).parameters.get? key = some body) :
    ∃ part p, c.parts.get? key = some part ∧ w.parameters[part]? = some p ∧ p.body = body := by
  obtain hempty | ⟨part, p, hmem, hp, hbody⟩ := get?_resolve h
  · cases hempty
  · exact ⟨part, p, OrderedMap.lookup_of_mem c.parts.nodup_keys hmem, hp, hbody⟩

/-! ## A command with another model -/

def withModel (w : Workbench) (id : CommandId) (model : Model) : Workbench :=
  w.modifyCommand id fun c => { c with model }

section
variable {w : Workbench} {id : CommandId} {c : LiveCommand}

theorem command?_withModel (h : w.command? id = some c) (model : Model) :
    (w.withModel id model).command? id = some { c with model } := by
  rw [withModel, command?_modifyCommand, if_pos rfl, h, Option.map_some]

@[simp] theorem withModel_withModel (first last : Model) :
    (w.withModel id first).withModel id last = w.withModel id last := by
  simp only [withModel, modifyCommand, List.modify_modify_eq]
  congr 1
  refine congrArg (w.commands.modify id) (funext fun slot => ?_)
  cases slot <;> rfl

theorem withModel_self (h : w.command? id = some c) : w.withModel id c.model = w := by
  have hslot : w.commands[id]? = some (some c) := Option.join_eq_some_iff.1 h
  have hcommands : w.commands.modify id (Option.map fun c' => { c' with model := c.model }) =
      w.commands := by
    refine List.ext_getElem? fun i => ?_
    rw [List.getElem?_modify]
    by_cases hi : id = i
    · subst hi
      simp [hslot]
    · simp [hi]
  rw [withModel, modifyCommand, hcommands]

/-! ## Writing through a reference -/

/-- `parseWith` writes to the model of the live command that owns the parameter. -/
theorem parseWith_of_owned {part : ParameterId} {p : LiveParameter} (hc : w.command? id = some c)
    (hp : w.parameters[part]? = some p) (howner : p.owner = some id) (value : String) :
    w.parseWith part value =
      (((p.body.parse value).run.run c.model).1,
        w.withModel id ((p.body.parse value).run.run c.model).2) := by
  have hfound : w.ownerOf p = .ok (id, c) := by
    rw [ownerOf, owner?, howner, Option.bind_some, hc, Option.map_some]
  unfold parseWith Parameter.parse
  simp only [hp, hfound]
  cases p.body.convert p.body.name value with
  | error failure => exact Prod.ext rfl (withModel_self hc).symm
  | ok change => rfl

/-- Hand over one delivery after another through `parseWith`, until one is refused. -/
def handEach (w : Workbench) (id : CommandId) : List Delivery → Except Failure Unit × Workbench
  | [] => (.ok (), w)
  | delivery :: rest =>
    match (w.command? id).bind (·.parts.get? delivery.key) with
    | none => w.handEach id rest
    | some part =>
      match w.parseWith part delivery.value with
      | (.ok (), later) => later.handEach id rest
      | (.error failure, later) => (.error failure, later)

/-- `handEach` makes the calls on the model of command `id`, if the parameters that it holds refer
to it. -/
theorem handEach_withModel (hc : w.command? id = some c) {calls : List Command.Call}
    (hcalls : ∀ call ∈ calls, ∃ part p, c.parts.get? call.2.key = some part ∧
      w.parameters[part]? = some p ∧ p.body = call.1 ∧ p.owner = some id) (model : Model) :
    (w.withModel id model).handEach id (calls.map Prod.snd) =
      ((Command.carryOut calls model).1, w.withModel id (Command.carryOut calls model).2.1) := by
  induction calls generalizing model with
  | nil => rfl
  | cons call calls ih =>
    obtain ⟨body, delivery⟩ := call
    obtain ⟨part, p, hpart, hp, rfl, howner⟩ := hcalls _ List.mem_cons_self
    have hlive := command?_withModel hc model
    have hparse := parseWith_of_owned hlive hp howner delivery.value
    rw [withModel_withModel] at hparse
    rw [List.map_cons, handEach, hlive, Option.bind_some, Command.carryOut]
    simp only [hpart, hparse]
    rcases (p.body.parse delivery.value).run.run model with ⟨failure | _, later⟩
    · rfl
    · exact ih (fun call hcall => hcalls call (List.mem_cons_of_mem _ hcall)) later

end

/-- Hand out the values of a line from an empty model, each through `parseWith` of its parameter. -/
def handAlong (w : Workbench) (id : CommandId) (line : String) :
    Option (Except Failure Unit × Workbench) :=
  (w.command? id).map fun c =>
    let command := w.assembled c
    (w.withModel id ∅).handEach id
      ((command.calls (command.argumentText line)).map Prod.snd)

/-- `Command.handOut` on the command's own model and `handAlong`, which writes through the
back-references, come to the same. -/
theorem work_handOut_eq_handAlong {w : Workbench} {id : CommandId} (howns : w.OwnsHeld id)
    (line : String) :
    (w.work id [] (·.handOut line)).map (fun done => (done.1, done.2.2)) = w.handAlong id line := by
  cases hc : w.command? id with
  | none => rw [work, handAlong, hc, Option.map_none, Option.map_none, Option.map_none]
  | some c =>
    have hcalls : ∀ call ∈ (w.assembled c).calls ((w.assembled c).argumentText line),
        ∃ part p, c.parts.get? call.2.key = some part ∧ w.parameters[part]? = some p ∧
          p.body = call.1 ∧ p.owner = some id := by
      intro call hcall
      obtain ⟨part, p, hpart, hp, hbody⟩ := get?_assembled (Command.get?_of_mem_calls hcall)
      obtain ⟨p', hp', -, howner⟩ := howns _ part ⟨c, hc, hpart⟩
      obtain rfl : p' = p := Option.some.inj (hp'.symm.trans hp)
      exact ⟨part, p', hpart, hp', hbody, howner⟩
    rw [work, handAlong, hc, Option.map_some, Option.map_some, Option.map_some,
      handEach_withModel hc hcalls]
    -- handing out notes no validation and no run, so it changes the model and nothing else
    simp only [Command.run_handOut, List.nil_append, List.length_nil, List.drop_zero, ne_eq,
      reduceCtorEq, not_false_eq_true, implies_true, Command.count_delivered, Nat.add_zero]
    rfl

end Workbench

end ChatCommands

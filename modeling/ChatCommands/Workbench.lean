import ChatCommands.Command

/-!
# Commands and parameters under assembly

On a workbench, commands and parameters are made apart and then put together. A parameter belongs to
one live command at a time: the first that it is added to, as long as that command is live. The
command holds its parameters; a parameter merely refers to its command, and belongs to nobody again
once the command is dropped.
-/

namespace ChatCommands

abbrev CommandId := Nat

abbrev ParameterId := Nat

/-- A command on a workbench. -/
structure LiveCommand where
  body : Command
  -- the parameters under the names they were added by
  parts : OrderedMap String ParameterId
  model : Model
  -- how often the command has validated its model
  validations : Nat
  runs : Nat

/-- A parameter on a workbench. -/
structure LiveParameter where
  body : Parameter
  owner : Option CommandId

/-- The commands, a dropped one leaving a gap, and the parameters. -/
structure Workbench where
  commands : List (Option LiveCommand)
  parameters : List LiveParameter

namespace Workbench

def empty : Workbench := ⟨[], []⟩

/-! ## Looking -/

def command? (w : Workbench) (id : CommandId) : Option LiveCommand :=
  (w.commands[id]?).join

/-- The live command that a parameter belongs to. -/
def owner? (w : Workbench) (p : LiveParameter) : Option (CommandId × LiveCommand) :=
  p.owner.bind fun id => (w.command? id).map fun c => (id, c)

/-- The command that a parameter belongs to, or the failure `unbound`. -/
def ownerOf (w : Workbench) (p : LiveParameter) : Except Failure (CommandId × LiveCommand) :=
  match w.owner? p with
  | some owner => .ok owner
  | none => .error (.unbound p.body.name)

/-- The parameters behind the numbers, under their keys. -/
def resolve (w : Workbench) :
    List (String × ParameterId) → OrderedMap String Parameter → OrderedMap String Parameter
  | [], found => found
  | (key, id) :: rest, found =>
    match w.parameters[id]? with
    | some p => resolve w rest (found.insert key p.body)
    | none => resolve w rest found

/-- A command on the workbench as a `Command` of its own. -/
def assembled (w : Workbench) (c : LiveCommand) : Command :=
  { c.body with parameters := w.resolve c.parts.entries ∅ }

/-! ## Making and dropping -/

def addParameter (w : Workbench) (p : Parameter) : ParameterId × Workbench :=
  (w.parameters.length, { w with parameters := w.parameters ++ [⟨p, none⟩] })

/-- Put a command on the workbench, without its parameters. -/
def addBare (w : Workbench) (c : Command) : CommandId × Workbench :=
  (w.commands.length,
    { w with commands := w.commands ++ [some ⟨{ c with parameters := ∅ }, ∅, ∅, 0, 0⟩] })

def modifyCommand (w : Workbench) (id : CommandId) (f : LiveCommand → LiveCommand) : Workbench :=
  { w with commands := w.commands.modify id (Option.map f) }

def modifyParameter (w : Workbench) (id : ParameterId) (f : LiveParameter → LiveParameter) :
    Workbench :=
  { w with parameters := w.parameters.modify id f }

def drop (w : Workbench) (id : CommandId) : Workbench :=
  { w with commands := w.commands.modify id fun _ => none }

/-! ## Looking after a change -/

theorem getElem?_concat {α : Type} (xs : List α) (x : α) (i : Nat) :
    (xs ++ [x])[i]? = if i = xs.length then some x else xs[i]? := by
  rcases Nat.lt_trichotomy i xs.length with hlt | rfl | hgt
  · rw [List.getElem?_append_left hlt, if_neg (Nat.ne_of_lt hlt)]
  · rw [List.getElem?_concat_length, if_pos rfl]
  · have hout : ¬i < (xs ++ [x]).length := by simp; omega
    rw [List.getElem?_eq_none (Nat.le_of_not_lt hout), if_neg (Nat.ne_of_gt hgt),
      List.getElem?_eq_none (Nat.le_of_lt hgt)]

section
variable (w : Workbench) (id : CommandId) (part : ParameterId)

/-- `modifyCommand` changes the command `id` and no other. -/
theorem command?_modifyCommand (other : CommandId) (f : LiveCommand → LiveCommand) :
    (w.modifyCommand id f).command? other =
      if id = other then (w.command? other).map f else w.command? other := by
  rw [command?, modifyCommand, List.getElem?_modify, command?]
  by_cases h : id = other <;> rcases w.commands[other]? with _ | _ | c <;> simp [h]

theorem command?_drop (other : CommandId) :
    (w.drop id).command? other = if id = other then none else w.command? other := by
  rw [command?, drop, List.getElem?_modify, command?]
  by_cases h : id = other <;> rcases w.commands[other]? with _ | c <;> simp [h]

/-- A command that is made gets a new number, and holds nothing. -/
theorem command?_addBare (c : Command) :
    (w.addBare c).2.command? id =
      if id = w.commands.length then some ⟨{ c with parameters := ∅ }, ∅, ∅, 0, 0⟩
      else w.command? id := by
  rw [command?, addBare, getElem?_concat, command?]
  split <;> rfl

theorem getElem?_modifyParameter (other : ParameterId) (f : LiveParameter → LiveParameter) :
    (w.modifyParameter part f).parameters[other]? =
      if part = other then (w.parameters[other]?).map f else w.parameters[other]? := by
  rw [modifyParameter, List.getElem?_modify]
  by_cases h : part = other <;> simp [h]

theorem getElem?_addParameter (p : Parameter) :
    (w.addParameter p).2.parameters[part]? =
      if part = w.parameters.length then some ⟨p, none⟩ else w.parameters[part]? :=
  getElem?_concat w.parameters ⟨p, none⟩ part

end

/-! ## Binding -/

/-- Make a parameter belong to a command. If it belongs to another live one, this fails with
`alreadyBound`. -/
def bind (w : Workbench) (id : CommandId) (part : ParameterId) : Except Failure Workbench :=
  match w.parameters[part]? with
  | none => .ok w
  | some p =>
    match w.owner? p with
    | some (owner, c) =>
      if owner = id then .ok w else .error (.alreadyBound p.body.name c.body.name)
    | none => .ok (w.modifyParameter part fun p => { p with owner := some id })

/-- `bind` a parameter to a command, and add it under its name. -/
def attach (w : Workbench) (id : CommandId) (part : ParameterId) : Except Failure Workbench := do
  let w ← w.bind id part
  match w.parameters[part]? with
  | none => return w
  | some p =>
    return w.modifyCommand id fun c => { c with parts := c.parts.insert p.body.name part }

/-- Put parameters on the workbench and `attach` them to a command; the result are their numbers. -/
def attachAll (w : Workbench) (id : CommandId) :
    List Parameter → Except Failure (List ParameterId × Workbench)
  | [] => .ok ([], w)
  | p :: ps => do
    let (part, w) := w.addParameter p
    let w ← w.attach id part
    let (parts, w) ← attachAll w id ps
    return (part :: parts, w)

/-! ## Using -/

/-- The outcome of work on a command, which adds to `events`, and the workbench after it; `none` if
there is no live command `id`. -/
def work {α : Type} (w : Workbench) (id : CommandId) (events : List Event)
    (task : Command → Work α) : Option (Except Failure α × List Event × Workbench) :=
  (w.command? id).map fun c =>
    let (result, frame) := (task (w.assembled c)).run.run ⟨c.model, events⟩
    let added := frame.events.drop events.length
    let after := w.modifyCommand id fun c =>
      { c with
        model := frame.model
        validations := c.validations + added.count .validated
        runs := c.runs + added.count .ran }
    (result, frame.events, after)

/-- Have a parameter convert a text and write the result into the model of its owner. A text that
cannot be converted fails first, and a parameter without an owner only then. -/
def parseWith (w : Workbench) (part : ParameterId) (value : String) :
    Except Failure Unit × Workbench :=
  match w.parameters[part]? with
  | none => (.ok (), w)
  | some p =>
    match p.body.convert p.body.name value with
    | .error failure => (.error failure, w)
    | .ok change =>
      match w.ownerOf p with
      | .error failure => (.error failure, w)
      | .ok (owner, c) =>
        let (result, model) := change.run.run c.model
        (result, w.modifyCommand owner fun c => { c with model })

end Workbench

end ChatCommands

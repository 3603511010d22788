import ChatCommands.Proofs.OwnedWrites

/-!
# A parameter belongs to one command

A command holds its parameters, and a parameter refers to the command that it belongs to: two
records of one relation, which are kept apart and change at different times. The main statement,
`owned_by_one_command_after`, is that they agree whatever has been done on a workbench. What a live
command holds refers to that command, so no two live commands hold the same parameter, and a value
that is handed to a parameter lands in the model of the command that hands it over.

Binding a parameter comes to one of two things, by whether another live command has it
(`bind_of_free`, `bind_of_taken`). The invariant `Sound` ties what commands hold to what parameters
refer to, and this to the bindings so far; no step breaks it (`Sound.after`).
-/

namespace ChatCommands

namespace Workbench

/-! ## Steps -/

/-- Something that is done on a workbench. -/
inductive Step where
  | makeCommand (c : Command)
  | makeParameter (p : Parameter)
  | bind (id : CommandId) (part : ParameterId)
  | attach (id : CommandId) (part : ParameterId)
  | drop (id : CommandId)
  | execute (id : CommandId) (line : String)
  | parse (id : CommandId) (line : String)

def worked {α : Type} (w : Workbench) (id : CommandId) (task : Command → Work α) : Workbench :=
  ((w.work id [] task).map (·.2.2)).getD w

namespace Step

/-- Whether the command and the parameter that a step is about are there. -/
def isPossible (w : Workbench) : Step → Bool
  | makeCommand _ => true
  | makeParameter _ => true
  | bind id part => (w.command? id).isSome && (w.parameters[part]?).isSome
  | attach id part => (w.command? id).isSome && (w.parameters[part]?).isSome
  | drop id => (w.command? id).isSome
  | execute id _ => (w.command? id).isSome
  | parse id _ => (w.command? id).isSome

/-- The workbench that a step makes, or the failure with which it is refused. That a command fails
on a line is no refusal. -/
def outcome (w : Workbench) : Step → Except Failure Workbench
  | makeCommand c => .ok (w.addBare c).2
  | makeParameter p => .ok (w.addParameter p).2
  | bind id part => w.bind id part
  | attach id part => w.attach id part
  | drop id => .ok (w.drop id)
  | execute id line => .ok (w.worked id (·.execute line))
  | parse id line => .ok (w.worked id (·.parse line))

/-- The workbench after a step; a step that is refused or not possible leaves it as it is. -/
def after (w : Workbench) (step : Step) : Workbench :=
  if step.isPossible w then
    match step.outcome w with
    | .ok later => later
    | .error _ => w
  else w

/-- The step is `bind` or `attach`, of parameter `part` to command `id`. -/
def IsBinding (id : CommandId) (part : ParameterId) (step : Step) : Prop :=
  step = bind id part ∨ step = attach id part

def target? (part : ParameterId) : Step → Option CommandId
  | bind id other => if other = part then some id else none
  | attach id other => if other = part then some id else none
  | _ => none

/-- The command that a step does bind `part` to, if any. -/
def binds? (w : Workbench) (part : ParameterId) (step : Step) : Option CommandId :=
  if step.isPossible w && (step.outcome w).isOk then step.target? part else none

end Step

/-- A workbench, and for each parameter the command that it was bound to last. -/
structure Traced where
  bench : Workbench
  -- the command that a parameter was bound to last
  bound : ParameterId → Option CommandId

def Traced.after (t : Traced) (step : Step) : Traced :=
  ⟨step.after t.bench, fun part => (step.binds? t.bench part).or (t.bound part)⟩

/-- A step is refused or not possible and changes nothing, or it has an `outcome` and binds its
`target?`. -/
theorem Traced.after_cases (t : Traced) (step : Step) :
    t.after step = t ∨ ∃ later, step.isPossible t.bench = true ∧
      step.outcome t.bench = .ok later ∧
      t.after step = ⟨later, fun part => (step.target? part).or (t.bound part)⟩ := by
  unfold Traced.after Step.after Step.binds?
  cases hpossible : step.isPossible t.bench with
  | false => exact .inl rfl
  | true =>
    cases houtcome : step.outcome t.bench with
    | error failure => exact .inl rfl
    | ok later => exact .inr ⟨later, rfl, rfl, rfl⟩

/-- The steps taken from the empty workbench. -/
def traced (steps : List Step) : Traced :=
  steps.foldl Traced.after ⟨empty, fun _ => none⟩

/-- `worked` changes at most the command itself, and not what it holds. -/
theorem worked_cases {α : Type} (w : Workbench) (id : CommandId) (task : Command → Work α) :
    w.worked id task = w ∨ ∃ f : LiveCommand → LiveCommand, (∀ c, (f c).parts = c.parts) ∧
      w.worked id task = w.modifyCommand id f := by
  rw [worked, work]
  cases w.command? id with
  | none => exact .inl rfl
  | some c =>
    refine .inr ⟨_, fun c => ?_, rfl⟩
    rfl

/-! ## Binding -/

/-- No live command but `id` has the parameter. -/
def IsFreeFor (w : Workbench) (p : LiveParameter) (id : CommandId) : Prop :=
  ∀ owner c, w.owner? p = some (owner, c) → owner = id

theorem isFreeFor_or_taken (w : Workbench) (p : LiveParameter) (id : CommandId) :
    w.IsFreeFor p id ∨ ∃ owner c, w.owner? p = some (owner, c) ∧ owner ≠ id := by
  by_cases h : w.IsFreeFor p id
  · exact .inl h
  · simp only [IsFreeFor, not_forall] at h
    obtain ⟨owner, c, howner, hne⟩ := h
    exact .inr ⟨owner, c, howner, hne⟩

def rebind (w : Workbench) (id : CommandId) (part : ParameterId) : Workbench :=
  w.modifyParameter part fun p => { p with owner := some id }

section
variable {w : Workbench} {id owner : CommandId} {part : ParameterId} {p : LiveParameter}
  {c : LiveCommand}

theorem owner?_eq_some_iff :
    w.owner? p = some (id, c) ↔ p.owner = some id ∧ w.command? id = some c := by
  simp only [owner?, Option.bind_eq_some_iff, Option.map_eq_some_iff, Prod.mk.injEq]
  constructor
  · rintro ⟨_, howner, _, hc, rfl, rfl⟩
    exact ⟨howner, hc⟩
  · rintro ⟨howner, hc⟩
    exact ⟨id, howner, c, hc, rfl, rfl⟩

theorem ownerOf_eq_ok_iff : w.ownerOf p = .ok (id, c) ↔ w.owner? p = some (id, c) := by
  rw [ownerOf]
  cases w.owner? p <;> simp

theorem ownerOf_eq_error_iff {failure : Failure} :
    w.ownerOf p = .error failure ↔ failure = .unbound p.body.name ∧ w.owner? p = none := by
  rw [ownerOf]
  cases w.owner? p <;> simp [eq_comm]

theorem rebind_eq_self (hp : w.parameters[part]? = some p) (howner : p.owner = some id) :
    w.rebind id part = w := by
  have hparameters : w.parameters.modify part (fun p => { p with owner := some id }) =
      w.parameters := by
    refine List.ext_getElem? fun i => ?_
    rw [List.getElem?_modify]
    by_cases h : part = i
    · subst h
      simp [hp, ← howner]
    · simp [h]
  rw [rebind, modifyParameter, hparameters]

theorem getElem?_rebind (id : CommandId) (hp : w.parameters[part]? = some p)
    (other : ParameterId) :
    (w.rebind id part).parameters[other]? =
      if part = other then some { p with owner := some id } else w.parameters[other]? := by
  rw [rebind, getElem?_modifyParameter]
  split
  · subst part
    rw [hp, Option.map_some]
  · rfl

theorem bind_of_free (hp : w.parameters[part]? = some p) (hfree : w.IsFreeFor p id) :
    w.bind id part = .ok (w.rebind id part) := by
  unfold bind
  simp only [hp]
  cases howner : w.owner? p with
  | none => rfl
  | some entry =>
    obtain ⟨owner, c⟩ := entry
    obtain rfl := hfree owner c howner
    simp only [if_pos, rebind_eq_self hp (owner?_eq_some_iff.1 howner).1]

theorem bind_of_taken (hp : w.parameters[part]? = some p) (howner : w.owner? p = some (owner, c))
    (hne : owner ≠ id) :
    w.bind id part = .error (.alreadyBound p.body.name c.body.name) := by
  simp [bind, hp, howner, hne]

/-- `attach` of a free parameter binds it, and puts it under its name. -/
theorem attach_of_free (hp : w.parameters[part]? = some p) (hfree : w.IsFreeFor p id) :
    w.attach id part = .ok ((w.rebind id part).modifyCommand id fun c =>
      { c with parts := c.parts.insert p.body.name part }) := by
  have hrebound := getElem?_rebind id hp part
  rw [if_pos rfl] at hrebound
  simp only [attach, bind_of_free hp hfree, Bind.bind, Except.bind, hrebound]
  rfl

theorem attach_of_taken (hp : w.parameters[part]? = some p) (howner : w.owner? p = some (owner, c))
    (hne : owner ≠ id) :
    w.attach id part = .error (.alreadyBound p.body.name c.body.name) := by
  rw [attach, bind_of_taken hp howner hne]
  rfl

end

/-! ## Binding steps -/

section
variable {w : Workbench} {id : CommandId} {part : ParameterId} {p : LiveParameter} {step : Step}

theorem exists_of_isPossible (hstep : step.IsBinding id part) (h : step.isPossible w = true) :
    ∃ p, w.parameters[part]? = some p := by
  refine Option.isSome_iff_exists.1 ?_
  rcases hstep with rfl | rfl <;> exact (Bool.and_eq_true_iff.1 h).2

theorem outcome_of_free (hp : w.parameters[part]? = some p) (hfree : w.IsFreeFor p id)
    (hstep : step.IsBinding id part) : ∃ later, step.outcome w = .ok later := by
  rcases hstep with rfl | rfl
  · exact ⟨_, bind_of_free hp hfree⟩
  · exact ⟨_, attach_of_free hp hfree⟩

theorem outcome_of_taken {owner : CommandId} {c : LiveCommand} (hp : w.parameters[part]? = some p)
    (howner : w.owner? p = some (owner, c)) (hne : owner ≠ id) (hstep : step.IsBinding id part) :
    step.outcome w = .error (.alreadyBound p.body.name c.body.name) := by
  rcases hstep with rfl | rfl
  · exact bind_of_taken hp howner hne
  · exact attach_of_taken hp howner hne

theorem isFreeFor_of_outcome_eq_ok {later : Workbench} (hp : w.parameters[part]? = some p)
    (hstep : step.IsBinding id part) (h : step.outcome w = .ok later) : w.IsFreeFor p id := by
  obtain hfree | ⟨owner, c, howner, hne⟩ := w.isFreeFor_or_taken p id
  · exact hfree
  · rw [outcome_of_taken hp howner hne hstep] at h
    cases h

/-- A binding is refused exactly if another live command owns the parameter. -/
theorem outcome_eq_error_iff (hp : w.parameters[part]? = some p) (hstep : step.IsBinding id part)
    (failure : Failure) :
    step.outcome w = .error failure ↔
      ∃ owner c, w.ownerOf p = .ok (owner, c) ∧ owner ≠ id ∧
        failure = .alreadyBound p.body.name c.body.name := by
  simp only [ownerOf_eq_ok_iff]
  constructor
  · intro h
    obtain hfree | ⟨owner, c, howner, hne⟩ := w.isFreeFor_or_taken p id
    · obtain ⟨later, hlater⟩ := outcome_of_free hp hfree hstep
      rw [hlater] at h
      cases h
    · rw [outcome_of_taken hp howner hne hstep] at h
      cases h
      exact ⟨owner, c, howner, hne, rfl⟩
  · rintro ⟨owner, c, howner, hne, rfl⟩
    exact outcome_of_taken hp howner hne hstep

/-- Only a binding is refused, and with a failure of kind `runtime`. -/
theorem kind_of_outcome_eq_error {failure : Failure} (hpossible : step.isPossible w = true)
    (h : step.outcome w = .error failure) : failure.kind = .runtime := by
  have hbinding : ∃ id part, step.IsBinding id part := by
    cases step with
    | bind id part => exact ⟨id, part, .inl rfl⟩
    | attach id part => exact ⟨id, part, .inr rfl⟩
    | _ => cases h
  obtain ⟨id, part, hstep⟩ := hbinding
  obtain ⟨p, hp⟩ := exists_of_isPossible hstep hpossible
  obtain ⟨owner, c, -, -, rfl⟩ := (outcome_eq_error_iff hp hstep failure).1 h
  rfl

theorem after_of_outcome_eq_error {t : Traced} {failure : Failure}
    (h : step.outcome t.bench = .error failure) : t.after step = t := by
  obtain hkept | ⟨later, -, houtcome, -⟩ := t.after_cases step
  · exact hkept
  · rw [h] at houtcome
    cases houtcome

end

/-! ## The invariant -/

/-- What commands hold refers to them, and a parameter refers to the command that it was bound to
last. -/
structure Sound (t : Traced) : Prop where
  owns : ∀ id, t.bench.OwnsHeld id
  -- the reference of a parameter is its last binding
  bound_eq : ∀ part, (t.bench.parameters[part]?).bind (·.owner) = t.bound part

namespace Sound

section
variable {w : Workbench} {bound : ParameterId → Option CommandId} {id : CommandId}
  {part : ParameterId} {p : LiveParameter}

theorem nothing : Sound ⟨empty, fun _ => none⟩ where
  owns := by
    rintro id key part ⟨c, hc, -⟩
    cases hc
  bound_eq _ := rfl

/-- `Sound` stays if the commands come to hold less and the parameters are the same. -/
theorem mono {later : Workbench} (h : Sound ⟨w, bound⟩)
    (hparameters : later.parameters = w.parameters)
    (hholds : ∀ id key part, later.Holds id key part → w.Holds id key part) :
    Sound ⟨later, bound⟩ where
  owns id key part hheld := hparameters ▸ h.owns id key part (hholds id key part hheld)
  bound_eq part := hparameters ▸ h.bound_eq part

theorem addBare (h : Sound ⟨w, bound⟩) (c : Command) : Sound ⟨(w.addBare c).2, bound⟩ := by
  refine h.mono rfl ?_
  rintro id key part ⟨live, hlive, hpart⟩
  rw [command?_addBare] at hlive
  split at hlive
  · cases hlive
    cases hpart
  · exact ⟨live, hlive, hpart⟩

theorem drop (h : Sound ⟨w, bound⟩) (id : CommandId) : Sound ⟨w.drop id, bound⟩ := by
  refine h.mono rfl ?_
  rintro other key part ⟨live, hlive, hpart⟩
  rw [command?_drop] at hlive
  split at hlive
  · cases hlive
  · exact ⟨live, hlive, hpart⟩

theorem worked {α : Type} (h : Sound ⟨w, bound⟩) (id : CommandId) (task : Command → Work α) :
    Sound ⟨w.worked id task, bound⟩ := by
  obtain hkept | ⟨f, hparts, hworked⟩ := w.worked_cases id task
  · rw [hkept]
    exact h
  rw [hworked]
  refine h.mono rfl ?_
  rintro other key part ⟨live, hlive, hpart⟩
  rw [command?_modifyCommand] at hlive
  split at hlive
  · obtain ⟨before, hbefore, rfl⟩ := Option.map_eq_some_iff.1 hlive
    exact ⟨before, hbefore, hparts before ▸ hpart⟩
  · exact ⟨live, hlive, hpart⟩

theorem addParameter (h : Sound ⟨w, bound⟩) (body : Parameter) :
    Sound ⟨(w.addParameter body).2, bound⟩ where
  owns id key part hheld := by
    obtain ⟨p, hp, hname, howner⟩ := h.owns id key part hheld
    refine ⟨p, ?_, hname, howner⟩
    have hlt := (List.getElem?_eq_some_iff.1 hp).1
    rw [getElem?_addParameter, if_neg (Nat.ne_of_lt hlt)]
    exact hp
  bound_eq part := by
    rw [getElem?_addParameter, ← h.bound_eq part]
    split
    · subst part
      rw [List.getElem?_eq_none (Nat.le_refl _)]
      rfl
    · rfl

/-- `rebind` keeps `Sound` for a parameter that no other live command has. -/
theorem rebind (h : Sound ⟨w, bound⟩) (hp : w.parameters[part]? = some p)
    (hfree : w.IsFreeFor p id) :
    Sound ⟨w.rebind id part,
      fun other => ((Step.bind id part).target? other).or (bound other)⟩ where
  owns holder key other hheld := by
    have ⟨c, hc, _⟩ := hheld
    obtain ⟨q, hq, hname, howner⟩ := h.owns holder key other hheld
    by_cases hpart : part = other
    · subst other
      obtain rfl : q = p := Option.some.inj (hq.symm.trans hp)
      obtain rfl := hfree holder c (owner?_eq_some_iff.2 ⟨howner, hc⟩)
      exact ⟨_, (getElem?_rebind _ hp part).trans (if_pos rfl), hname, rfl⟩
    · exact ⟨q, (getElem?_rebind id hp other).trans ((if_neg hpart).trans hq), hname, howner⟩
  bound_eq other := by
    simp only [getElem?_rebind id hp, Step.target?]
    split
    · rfl
    · exact h.bound_eq other

theorem insert (h : Sound ⟨w, bound⟩) (hp : w.parameters[part]? = some p) {name : String}
    (hname : p.body.name = name) (howner : p.owner = some id) :
    Sound ⟨w.modifyCommand id fun c => { c with parts := c.parts.insert name part }, bound⟩ where
  owns holder key other hheld := by
    obtain ⟨c, hc, hpart⟩ := hheld
    rw [command?_modifyCommand] at hc
    split at hc
    · subst holder
      obtain ⟨before, hbefore, rfl⟩ := Option.map_eq_some_iff.1 hc
      rw [OrderedMap.get?_insert] at hpart
      split at hpart
      · cases hpart
        exact ⟨p, hp, hname.trans ‹_›, howner⟩
      · exact h.owns id key other ⟨before, hbefore, hpart⟩
    · exact h.owns holder key other ⟨c, hc, hpart⟩
  bound_eq := h.bound_eq

end

/-- Every step keeps `Sound`. -/
theorem after {t : Traced} (h : Sound t) (step : Step) : Sound (t.after step) := by
  obtain hkept | ⟨later, hpossible, houtcome, hafter⟩ := t.after_cases step
  · rw [hkept]
    exact h
  rw [hafter]
  cases step with
  | makeCommand c =>
    cases houtcome
    exact h.addBare c
  | makeParameter body =>
    cases houtcome
    exact h.addParameter body
  | drop id =>
    cases houtcome
    exact h.drop id
  | execute id line =>
    cases houtcome
    exact h.worked id (·.execute line)
  | parse id line =>
    cases houtcome
    exact h.worked id (·.parse line)
  | bind id part =>
    have hstep : (Step.bind id part).IsBinding id part := .inl rfl
    obtain ⟨p, hp⟩ := exists_of_isPossible hstep hpossible
    have hfree := isFreeFor_of_outcome_eq_ok hp hstep houtcome
    rw [Step.outcome, bind_of_free hp hfree] at houtcome
    cases houtcome
    exact h.rebind hp hfree
  | attach id part =>
    have hstep : (Step.attach id part).IsBinding id part := .inr rfl
    obtain ⟨p, hp⟩ := exists_of_isPossible hstep hpossible
    have hfree := isFreeFor_of_outcome_eq_ok hp hstep houtcome
    rw [Step.outcome, attach_of_free hp hfree] at houtcome
    cases houtcome
    -- the parameter refers to the command before it is put under its name there
    have hbound : (t.bench.rebind id part).parameters[part]? = some { p with owner := some id } :=
      (getElem?_rebind id hp part).trans (if_pos rfl)
    exact (h.rebind hp hfree).insert hbound rfl rfl

theorem foldl {t : Traced} (h : Sound t) (steps : List Step) :
    Sound (steps.foldl Traced.after t) := by
  induction steps generalizing t with
  | nil => exact h
  | cons step steps ih => exact ih (h.after step)

end Sound

/-! ## Ownership is exclusive -/

/-- What ownership of parameters comes to on a workbench. -/
structure Exclusive (t : Traced) : Prop where
  -- what a live command holds is there under its own name, and belongs to that very command
  held_owned : ∀ id c key part, t.bench.command? id = some c → c.parts.get? key = some part →
    ∃ p, t.bench.parameters[part]? = some p ∧ p.body.name = key ∧ t.bench.ownerOf p = .ok (id, c)
  -- no two live commands hold the same parameter, nor does one hold it under two names
  held_once : ∀ part id key id' key', t.bench.Holds id key part → t.bench.Holds id' key' part →
    id = id' ∧ key = key'
  -- the values that a live command hands out land in its own model
  writes_own : ∀ id line,
    (t.bench.work id [] (·.handOut line)).map (fun done => (done.1, done.2.2)) =
      t.bench.handAlong id line
  writes_nowhere_else : ∀ id line outcome later,
    t.bench.handAlong id line = some (outcome, later) →
    ∀ other, other ≠ id → later.command? other = t.bench.command? other
  -- a command that executes or parses a line leaves all other commands as they are
  spares_others : ∀ id line step, step = .execute id line ∨ step = .parse id line →
    ∀ other, other ≠ id → (t.after step).bench.command? other = t.bench.command? other
  -- a binding is refused exactly if the parameter belongs to another live command
  refused_iff : ∀ id part p, (t.bench.command? id).isSome = true →
    t.bench.parameters[part]? = some p → ∀ step : Step, step.IsBinding id part → ∀ failure,
    step.outcome t.bench = .error failure ↔
      ∃ owner c, t.bench.ownerOf p = .ok (owner, c) ∧ owner ≠ id ∧
        failure = .alreadyBound p.body.name c.body.name
  -- a step that is refused is a mistake of the program, and changes nothing
  refusal_keeps : ∀ step failure, step.isPossible t.bench = true →
    step.outcome t.bench = .error failure → failure.kind = .runtime ∧ t.after step = t
  -- a parameter belongs to nobody exactly if it was never bound, or if the command that it was
  -- bound to last is gone
  unbound_iff : ∀ part p, t.bench.parameters[part]? = some p →
    ∀ failure, t.bench.ownerOf p = .error failure ↔
      failure = .unbound p.body.name ∧ failure.kind = .runtime ∧
        (t.bound part = none ∨ ∃ id, t.bound part = some id ∧ t.bench.command? id = none)

section
variable {w : Workbench} {id other : CommandId}

theorem command?_worked {α : Type} (task : Command → Work α) (hne : other ≠ id) :
    (w.worked id task).command? other = w.command? other := by
  obtain hkept | ⟨f, -, hchanged⟩ := w.worked_cases id task
  · rw [hkept]
  · rw [hchanged, command?_modifyCommand, if_neg hne.symm]

theorem command?_after_line {t : Traced} {step : Step} {line : String}
    (hstep : step = .execute id line ∨ step = .parse id line) (hne : other ≠ id) :
    (t.after step).bench.command? other = t.bench.command? other := by
  obtain hkept | ⟨later, -, houtcome, hafter⟩ := t.after_cases step
  · rw [hkept]
  · rw [hafter]
    rcases hstep with rfl | rfl <;> cases houtcome
    · exact command?_worked (·.execute line) hne
    · exact command?_worked (·.parse line) hne

theorem command?_handAlong {line : String} {outcome : Except Failure Unit} {later : Workbench}
    (howns : w.OwnsHeld id) (h : w.handAlong id line = some (outcome, later)) (hne : other ≠ id) :
    later.command? other = w.command? other := by
  rw [← work_handOut_eq_handAlong howns line] at h
  obtain ⟨done, hdone, hlater⟩ := Option.map_eq_some_iff.1 h
  obtain rfl : w.worked id (·.handOut line) = later := by
    rw [worked, hdone]
    exact congrArg Prod.snd hlater
  exact command?_worked (·.handOut line) hne

end

section
variable {t : Traced} (h : Sound t)
include h

theorem Sound.owner_of_holds {id : CommandId} {c : LiveCommand} {key : String} {part : ParameterId}
    (hc : t.bench.command? id = some c) (hpart : c.parts.get? key = some part) :
    ∃ p, t.bench.parameters[part]? = some p ∧ p.body.name = key ∧
      t.bench.ownerOf p = .ok (id, c) := by
  obtain ⟨p, hp, hname, howner⟩ := h.owns id key part ⟨c, hc, hpart⟩
  exact ⟨p, hp, hname, ownerOf_eq_ok_iff.2 (owner?_eq_some_iff.2 ⟨howner, hc⟩)⟩

theorem Sound.holds_once {part : ParameterId} {id id' : CommandId} {key key' : String}
    (hheld : t.bench.Holds id key part) (hheld' : t.bench.Holds id' key' part) :
    id = id' ∧ key = key' := by
  obtain ⟨p, hp, hname, howner⟩ := h.owns id key part hheld
  obtain ⟨p', hp', hname', howner'⟩ := h.owns id' key' part hheld'
  obtain rfl : p = p' := Option.some.inj (hp.symm.trans hp')
  exact ⟨Option.some.inj (howner.symm.trans howner'), hname.symm.trans hname'⟩

theorem Sound.owner?_eq_none_iff {part : ParameterId} {p : LiveParameter}
    (hp : t.bench.parameters[part]? = some p) :
    t.bench.owner? p = none ↔
      t.bound part = none ∨ ∃ id, t.bound part = some id ∧ t.bench.command? id = none := by
  rw [← h.bound_eq part, hp, Option.bind_some, owner?]
  cases p.owner <;> simp

theorem Sound.exclusive : Exclusive t where
  held_owned _ _ _ _ hc hpart := h.owner_of_holds hc hpart
  held_once _ _ _ _ _ hheld hheld' := h.holds_once hheld hheld'
  writes_own id line := work_handOut_eq_handAlong (h.owns id) line
  writes_nowhere_else id _ _ _ hhanded _ hne := command?_handAlong (h.owns id) hhanded hne
  spares_others _ _ _ hstep _ hne := command?_after_line hstep hne
  refused_iff _ _ _ _ hp _ hstep failure := outcome_eq_error_iff hp hstep failure
  refusal_keeps _ _ hpossible hrefused :=
    ⟨kind_of_outcome_eq_error hpossible hrefused, after_of_outcome_eq_error hrefused⟩
  unbound_iff part p hp failure := by
    rw [ownerOf_eq_error_iff, h.owner?_eq_none_iff hp]
    constructor
    · rintro ⟨rfl, hgone⟩
      exact ⟨rfl, rfl, hgone⟩
    · rintro ⟨rfl, -, hgone⟩
      exact ⟨rfl, hgone⟩

end

/-- After any steps a parameter is held by at most one command, and what is written through it lands
there. -/
theorem owned_by_one_command_after (steps : List Step) : Exclusive (traced steps) :=
  (Sound.nothing.foldl steps).exclusive

/-- A parameter stays with its first command, and can be added to another once that one is dropped.
-/
example (c : Command) (p : Parameter) :
    let before := [.makeParameter p, .makeCommand c, .makeCommand c, .attach 0 0]
    (traced (before ++ [.attach 1 0])).bound 0 = some 0 ∧
      (traced (before ++ [.drop 0, .attach 1 0])).bound 0 = some 1 :=
  ⟨rfl, rfl⟩

end Workbench

end ChatCommands

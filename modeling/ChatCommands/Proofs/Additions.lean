import ChatCommands.Proofs.DeclarationOrder
import ChatCommands.Proofs.Ownership
import Mathlib.Data.List.Basic

/-!
# Parameters added again

A command may be given a parameter under a name that it has already. The new one takes the place of
the old, for help as for reading lines, whether or not it takes the whole input as the old one did.
The main statement, `help_and_reading_in_step_after`, is that both go by the additions to the
command and by nothing else, whatever has been done on a workbench: under each name the last
parameter counts, and the names stand in the order of their first additions. An addition that is
refused is none.

What a command holds is a map from names to the numbers of parameters, while help and reading use
the parameters themselves. `Recorded` ties both to the additions so far, and no step breaks it
(`Recorded.after`).
-/

namespace ChatCommands

namespace Workbench

/-! ## Additions -/

/-- A parameter that has been added to a command. -/
structure Addition where
  part : ParameterId
  body : Parameter

abbrev Additions := List Addition

namespace Additions

/-- The names that were added, in the order of their first additions. -/
def names (added : Additions) : List String := (added.map (·.body.name)).eraseDups

def last? (added : Additions) (name : String) : Option Addition :=
  (added.filter (·.body.name == name)).getLast?

def header (added : Additions) (name : String) : String :=
  ((added.last? name).map (·.body.help.header)).getD ""

/-- The listing of all parameters: a line for each name. -/
def listing (added : Additions) : String :=
  String.join (added.names.map fun name => "\t- " ++ name ++ ": " ++ added.header name ++ "\n")

/-- A word ends the value before it if the last parameter added under it does not have `wholeInput`.
-/
def isBoundary (added : Additions) (word : String) : Bool :=
  (added.last? word).any (!·.body.wholeInput)

/-- The whole argument text for each `last?` parameter with `wholeInput`, in the order of `names`.
-/
def wholeCalls (added : Additions) (arguments : String) : List Command.Call :=
  ((added.names.filterMap added.last?).filter (·.body.wholeInput)).map fun a =>
    (a.body, ⟨a.body.name, a.body.name, true, arguments⟩)

/-- A segment for the `last?` parameter under its key. -/
def callOf? (added : Additions) (s : Segment) : Option Command.Call :=
  (added.last? s.key).map fun a => (a.body, ⟨s.key, a.body.name, false, s.value⟩)

/-- The segment behind each boundary for its parameter, in the order of the text. -/
def segmentCalls (added : Additions) (arguments : String) : List Command.Call :=
  let words := Text.words arguments
  (Segment.boundaries added.isBoundary words).filterMap fun b =>
    added.callOf? (Segment.startingAt added.isBoundary words b)

/-- `wholeCalls`, and behind them `segmentCalls`. -/
def calls (added : Additions) (arguments : String) : List Command.Call :=
  added.wholeCalls arguments ++ added.segmentCalls arguments

section
variable {added : Additions} {name : String} {a : Addition}

theorem mem_of_last? (h : added.last? name = some a) : a ∈ added ∧ a.body.name = name := by
  simpa using List.mem_filter.1 (List.mem_of_getLast? h)

theorem exists_last? (h : name ∈ added.names) : ∃ a, added.last? name = some a := by
  refine Option.ne_none_iff_exists'.1 fun hnone => ?_
  rw [last?, List.getLast?_eq_none_iff, List.filter_eq_nil_iff] at hnone
  obtain ⟨a, ha, rfl⟩ := List.mem_map.1 (List.mem_eraseDups.1 h)
  exact hnone a ha (beq_self_eq_true _)

theorem name_mem_names (h : added.last? name = some a) : name ∈ added.names := by
  obtain ⟨hmem, rfl⟩ := mem_of_last? h
  exact List.mem_eraseDups.2 (List.mem_map_of_mem hmem)

theorem lastUnder_map {β : Type} (added : Additions) (name : String) (f : Addition → β) :
    OrderedMap.lastUnder name (added.map fun a => (a.body.name, f a)) =
      (added.last? name).map f := by
  simp [OrderedMap.lastUnder, last?, List.filter_map, Function.comp_def]

end

end Additions

/-! ## Steps that add -/

/-- What a step is to add to command `id`. -/
def Step.addition? (w : Workbench) (id : CommandId) : Step → Option Addition
  | attach other part =>
    if other = id then (w.parameters[part]?).map fun p => ⟨part, p.body⟩ else none
  | _ => none

/-- What a step does add to command `id`; nothing if it is refused or not possible. -/
def Step.adds? (w : Workbench) (id : CommandId) (step : Step) : Option Addition :=
  if step.isPossible w && (step.outcome w).isOk then step.addition? w id else none

/-- What `steps` from a given workbench add to command `id`. -/
def additionsFrom (id : CommandId) : Traced → List Step → Additions
  | _, [] => []
  | t, step :: steps => (step.adds? t.bench id).toList ++ additionsFrom id (t.after step) steps

/-- What `steps` from the empty workbench add to command `id`. -/
def additions (id : CommandId) (steps : List Step) : Additions :=
  additionsFrom id ⟨empty, fun _ => none⟩ steps

/-- A step changes nothing and adds nothing, or it has an `outcome` and adds its `addition?`. -/
theorem Step.adds?_cases (w : Workbench) (id : CommandId) (step : Step) :
    step.after w = w ∧ step.adds? w id = none ∨
      step.isPossible w = true ∧ step.outcome w = .ok (step.after w) ∧
        step.adds? w id = step.addition? w id := by
  unfold after adds?
  cases step.isPossible w with
  | false => exact .inl ⟨rfl, rfl⟩
  | true =>
    cases houtcome : step.outcome w with
    | error failure => exact .inl ⟨rfl, rfl⟩
    | ok later => exact .inr ⟨rfl, rfl, rfl⟩

/-! ## The record of additions -/

/-- What command `id` holds are the additions to it. -/
structure Recorded (w : Workbench) (id : CommandId) (added : Additions) : Prop where
  -- nothing has been added to a command that is still to be made
  unmade : w.commands.length ≤ id → added = []
  -- a live command holds the numbers of the parameters under their names
  parts_eq : ∀ c, w.command? id = some c →
    c.parts = OrderedMap.ofList (added.map fun a => (a.body.name, a.part))
  -- the parameters are there as they were when they were added
  present : ∀ a ∈ added, ∃ p, w.parameters[a.part]? = some p ∧ p.body = a.body

section
variable {w later : Workbench} {id : CommandId} {added : Additions}

/-- Parameters stay what they are, though they may come to refer to another command. -/
def KeepsBodies (w later : Workbench) : Prop :=
  ∀ (part : ParameterId) (p : LiveParameter), w.parameters[part]? = some p →
    ∃ q : LiveParameter, later.parameters[part]? = some q ∧ q.body = p.body

theorem keepsBodies_of_eq (h : later.parameters = w.parameters) : KeepsBodies w later :=
  fun _ p hp => ⟨p, by rw [h, hp], rfl⟩

theorem keepsBodies_addParameter (w : Workbench) (body : Parameter) :
    KeepsBodies w (w.addParameter body).2 := by
  intro part p hp
  have hlt := (List.getElem?_eq_some_iff.1 hp).1
  exact ⟨p, by rw [getElem?_addParameter, if_neg (Nat.ne_of_lt hlt), hp], rfl⟩

theorem keepsBodies_rebind (id : CommandId) {part : ParameterId} {p : LiveParameter}
    (hp : w.parameters[part]? = some p) : KeepsBodies w (w.rebind id part) := by
  intro other q hq
  rw [getElem?_rebind id hp]
  split
  · subst part
    cases hp.symm.trans hq
    exact ⟨_, rfl, rfl⟩
  · exact ⟨q, hq, rfl⟩

namespace Recorded

theorem nothing (id : CommandId) : Recorded empty id [] where
  unmade _ := rfl
  parts_eq _ hc := nomatch hc
  present _ ha := nomatch ha

theorem mono (h : Recorded w id added) (hlength : w.commands.length ≤ later.commands.length)
    (hparts : ∀ c, later.command? id = some c →
      ∃ before, w.command? id = some before ∧ c.parts = before.parts)
    (hbodies : KeepsBodies w later) : Recorded later id added where
  unmade hle := h.unmade (Nat.le_trans hlength hle)
  parts_eq c hc := by
    obtain ⟨before, hbefore, hsame⟩ := hparts c hc
    rw [hsame, h.parts_eq before hbefore]
  present a ha := by
    obtain ⟨p, hp, hbody⟩ := h.present a ha
    obtain ⟨q, hq, hkept⟩ := hbodies a.part p hp
    exact ⟨q, hq, hkept.trans hbody⟩

theorem modifyCommand (h : Recorded w id added) (other : CommandId)
    {f : LiveCommand → LiveCommand} (hf : ∀ c, other = id → (f c).parts = c.parts) :
    Recorded (w.modifyCommand other f) id added := by
  refine h.mono (by simp [Workbench.modifyCommand]) ?_ (keepsBodies_of_eq rfl)
  intro c hc
  rw [command?_modifyCommand] at hc
  split at hc
  · obtain ⟨before, hbefore, rfl⟩ := Option.map_eq_some_iff.1 hc
    exact ⟨before, hbefore, hf before ‹_›⟩
  · exact ⟨c, hc, rfl⟩

theorem addBare (h : Recorded w id added) (c : Command) : Recorded (w.addBare c).2 id added where
  unmade hle := h.unmade (Nat.le_trans (by simp [Workbench.addBare]) hle)
  parts_eq live hlive := by
    rw [command?_addBare] at hlive
    split at hlive
    · -- the command is new, so nothing has been added to it
      rw [h.unmade (Nat.le_of_eq ‹id = _›.symm)]
      cases hlive
      rfl
    · exact h.parts_eq live hlive
  present := h.present

theorem addParameter (h : Recorded w id added) (body : Parameter) :
    Recorded (w.addParameter body).2 id added :=
  h.mono (Nat.le_refl _) (fun c hc => ⟨c, hc, rfl⟩) (keepsBodies_addParameter w body)

theorem rebind (h : Recorded w id added) (other : CommandId) {part : ParameterId}
    {p : LiveParameter} (hp : w.parameters[part]? = some p) :
    Recorded (w.rebind other part) id added :=
  h.mono (Nat.le_refl _) (fun c hc => ⟨c, hc, rfl⟩) (keepsBodies_rebind other hp)

theorem drop (h : Recorded w id added) (other : CommandId) : Recorded (w.drop other) id added := by
  refine h.mono (by simp [Workbench.drop]) ?_ (keepsBodies_of_eq rfl)
  intro c hc
  rw [command?_drop] at hc
  split at hc
  · cases hc
  · exact ⟨c, hc, rfl⟩

theorem worked {α : Type} (h : Recorded w id added) (other : CommandId) (task : Command → Work α) :
    Recorded (w.worked other task) id added := by
  obtain hkept | ⟨f, hparts, hworked⟩ := w.worked_cases other task
  · rw [hkept]
    exact h
  · rw [hworked]
    exact h.modifyCommand other fun c _ => hparts c

/-- Putting a parameter under its name is one addition more. -/
theorem insert (h : Recorded w id added) (hlength : id < w.commands.length) {part : ParameterId}
    {p : LiveParameter} (hp : w.parameters[part]? = some p) {body : Parameter}
    (hbody : p.body = body) :
    Recorded (w.modifyCommand id fun c => { c with parts := c.parts.insert body.name part }) id
      (added ++ [⟨part, body⟩]) where
  unmade hle := by
    rw [Workbench.modifyCommand, List.length_modify] at hle
    exact absurd hlength (Nat.not_lt.2 hle)
  parts_eq c hc := by
    rw [command?_modifyCommand, if_pos rfl] at hc
    obtain ⟨before, hbefore, rfl⟩ := Option.map_eq_some_iff.1 hc
    rw [List.map_append, List.map_singleton, OrderedMap.ofList_append_singleton,
      ← h.parts_eq before hbefore]
  present a ha := by
    rcases List.mem_append.1 ha with ha | ha
    · exact h.present a ha
    · cases List.mem_singleton.1 ha
      exact ⟨p, hp, hbody⟩

theorem attach (h : Recorded w id added) (other : CommandId) (part : ParameterId)
    (hpossible : (Step.attach other part).isPossible w = true)
    (houtcome : w.attach other part = .ok later) :
    Recorded later id (added ++ ((Step.attach other part).addition? w id).toList) := by
  have hstep : (Step.attach other part).IsBinding other part := .inr rfl
  obtain ⟨p, hp⟩ := exists_of_isPossible hstep hpossible
  have hfree := isFreeFor_of_outcome_eq_ok hp hstep houtcome
  rw [attach_of_free hp hfree] at houtcome
  cases houtcome
  by_cases hid : other = id
  · subst hid
    obtain ⟨c, hc⟩ := Option.isSome_iff_exists.1 (Bool.and_eq_true_iff.1 hpossible).1
    have hlength := (List.getElem?_eq_some_iff.1 (Option.join_eq_some_iff.1 hc)).1
    have hbound := (getElem?_rebind other hp part).trans (if_pos rfl)
    rw [Step.addition?, if_pos rfl, hp, Option.map_some, Option.toList_some]
    exact (h.rebind other hp).insert hlength hbound rfl
  · rw [Step.addition?, if_neg hid, Option.toList_none, List.append_nil]
    exact (h.rebind other hp).modifyCommand other fun c heq => absurd heq hid

theorem append_none (h : Recorded w id added) : Recorded w id (added ++ Option.toList none) := by
  rwa [Option.toList_none, List.append_nil]

/-- Every step keeps `Recorded`, with what it adds. -/
theorem after (h : Recorded w id added) (step : Step) :
    Recorded (step.after w) id (added ++ (step.adds? w id).toList) := by
  obtain ⟨hkept, hadds⟩ | ⟨hpossible, houtcome, hadds⟩ := step.adds?_cases w id
  · rw [hkept, hadds]
    exact h.append_none
  rw [hadds]
  generalize step.after w = later at houtcome
  cases step with
  | attach other part => exact h.attach other part hpossible houtcome
  | bind other part =>
    have hstep : (Step.bind other part).IsBinding other part := .inl rfl
    obtain ⟨p, hp⟩ := exists_of_isPossible hstep hpossible
    have hfree := isFreeFor_of_outcome_eq_ok hp hstep houtcome
    rw [Step.outcome, bind_of_free hp hfree] at houtcome
    cases houtcome
    exact (h.rebind other hp).append_none
  | makeCommand c =>
    cases houtcome
    exact (h.addBare c).append_none
  | makeParameter body =>
    cases houtcome
    exact (h.addParameter body).append_none
  | drop other =>
    cases houtcome
    exact (h.drop other).append_none
  | execute other line =>
    cases houtcome
    exact (h.worked other (·.execute line)).append_none
  | parse other line =>
    cases houtcome
    exact (h.worked other (·.parse line)).append_none

theorem foldl {t : Traced} (h : Recorded t.bench id added) (steps : List Step) :
    Recorded (steps.foldl Traced.after t).bench id (added ++ additionsFrom id t steps) := by
  induction steps generalizing t added with
  | nil => rwa [additionsFrom, List.append_nil]
  | cons step steps ih =>
    rw [additionsFrom, ← List.append_assoc]
    exact ih (h.after step)

end Recorded

end

theorem recorded_traced (id : CommandId) (steps : List Step) :
    Recorded (traced steps).bench id (additions id steps) := by
  have hnothing : Recorded (Traced.bench ⟨empty, fun _ => none⟩) id [] := .nothing id
  exact hnothing.foldl steps

/-! ## The assembled command -/

theorem resolve_eq (w : Workbench) (entries : List (String × ParameterId))
    (found : OrderedMap String Parameter) :
    w.resolve entries found = found.insertAll (entries.filterMap fun entry =>
      (w.parameters[entry.2]?).map fun p => (entry.1, p.body)) := by
  induction entries generalizing found with
  | nil => rfl
  | cons entry rest ih =>
    obtain ⟨key, part⟩ := entry
    cases hp : w.parameters[part]? <;> simp [resolve, hp, ih]

theorem entries_assembled (w : Workbench) (c : LiveCommand) :
    (w.assembled c).parameters.entries = c.parts.entries.filterMap fun entry =>
      (w.parameters[entry.2]?).map fun p => (entry.1, p.body) := by
  have hkeys : (c.parts.entries.filterMap fun entry =>
      (w.parameters[entry.2]?).map fun p => (entry.1, p.body)).map Prod.fst =
        (c.parts.entries.filter fun entry => (w.parameters[entry.2]?).isSome).map Prod.fst := by
    rw [List.map_filterMap, ← List.filterMap_eq_map, List.filterMap_filter]
    refine List.filterMap_congr fun entry _ => ?_
    cases w.parameters[entry.2]? <;> rfl
  rw [assembled, resolve_eq]
  refine OrderedMap.entries_ofList ?_
  rw [hkeys]
  exact c.parts.nodup_keys.sublist (List.filter_sublist.map Prod.fst)

section
variable {w : Workbench} {id : CommandId} {c : LiveCommand} {added : Additions}
  (h : Recorded w id added) (hc : w.command? id = some c)
include h hc

namespace Recorded

theorem get?_parts (name : String) : c.parts.get? name = (added.last? name).map (·.part) := by
  rw [h.parts_eq c hc, OrderedMap.get?_ofList, added.lastUnder_map]

/-- The parameters of the assembled command are the `last?` ones, in the order of `names`. -/
theorem entries_eq : (w.assembled c).parameters.entries =
    (added.names.filterMap added.last?).map fun a => (a.body.name, a.body) := by
  have hkeys : c.parts.keys = added.names := by
    rw [h.parts_eq c hc, OrderedMap.keys_ofList, List.map_map]
    rfl
  rw [entries_assembled, OrderedMap.entries_eq_filterMap, hkeys, List.filterMap_filterMap,
    List.map_filterMap]
  refine List.filterMap_congr fun name _ => ?_
  rw [h.get?_parts hc]
  cases hlast : added.last? name with
  | none => rfl
  | some a =>
    obtain ⟨hmem, rfl⟩ := Additions.mem_of_last? hlast
    obtain ⟨p, hp, hbody⟩ := h.present a hmem
    simp [hp, hbody]

theorem get?_assembled (name : String) :
    (w.assembled c).parameters.get? name = (added.last? name).map (·.body) := by
  refine Option.ext fun body => ?_
  rw [OrderedMap.get?_eq_some_iff, h.entries_eq hc, List.mem_map, Option.map_eq_some_iff]
  simp only [List.mem_filterMap, Prod.mk.injEq]
  constructor
  · rintro ⟨a, ⟨other, -, hlast⟩, rfl, rfl⟩
    obtain ⟨-, rfl⟩ := Additions.mem_of_last? hlast
    exact ⟨a, hlast, rfl⟩
  · rintro ⟨a, hlast, rfl⟩
    exact ⟨a, ⟨name, Additions.name_mem_names hlast, hlast⟩, (Additions.mem_of_last? hlast).2, rfl⟩

/-! ### Help -/

theorem generalHelp_eq :
    (w.assembled c).generalHelp = c.body.help ++ "\n\nParameters:\n" ++ added.listing := by
  have hlines : ∀ name ∈ added.names, (added.last? name).map (fun a => Command.listingLine a.body) =
      some ("\t- " ++ name ++ ": " ++ added.header name ++ "\n") := by
    intro name hname
    obtain ⟨a, hlast⟩ := Additions.exists_last? hname
    obtain ⟨-, rfl⟩ := Additions.mem_of_last? hlast
    simp only [Additions.header, hlast, Option.map_some, Option.getD_some, Command.listingLine]
  rw [Command.generalHelp, OrderedMap.values, h.entries_eq hc, List.map_map, List.map_map,
    List.map_filterMap, Additions.listing, ← List.filterMap_eq_map_iff_forall_eq_some.2 hlines]
  rfl

/-! ### Reading lines -/

theorem taker?_assembled (word : String) : (w.assembled c).taker? word =
    ((added.last? word).map (·.body)).filter (!·.wholeInput) := by
  rw [Command.taker?, h.get?_assembled hc]

theorem isKey_assembled : (w.assembled c).isKey = added.isBoundary := by
  funext word
  rw [Command.isKey, h.taker?_assembled hc, Additions.isBoundary]
  cases added.last? word with
  | none => rfl
  | some a => cases hwhole : a.body.wholeInput <;> simp [hwhole]

theorem wholeCalls_assembled (arguments : String) :
    (w.assembled c).wholeCalls arguments = added.wholeCalls arguments := by
  rw [Command.wholeCalls, Additions.wholeCalls, h.entries_eq hc, List.filter_map, List.map_map]
  rfl

theorem callOf?_assembled {s : Segment} (hkey : added.isBoundary s.key = true) :
    (w.assembled c).callOf? s = added.callOf? s := by
  rw [Command.callOf?, h.taker?_assembled hc, Additions.callOf?]
  rw [Additions.isBoundary] at hkey
  cases hlast : added.last? s.key with
  | none => rfl
  | some a =>
    rw [hlast, Option.any_some] at hkey
    simpa using hkey

theorem segmentCalls_assembled (arguments : String) :
    (w.assembled c).segmentCalls arguments = added.segmentCalls arguments := by
  have hkeys : ∀ s ∈ Segment.ofWords added.isBoundary (Text.words arguments),
      (w.assembled c).callOf? s = added.callOf? s := fun s hs =>
    h.callOf?_assembled hc (Segment.isKey_of_mem hs)
  have hcomp : added.segmentCalls arguments =
      (Segment.ofWords added.isBoundary (Text.words arguments)).filterMap added.callOf? := by
    rw [Segment.ofWords_eq_map_startingAt, List.filterMap_map]
    rfl
  rw [Command.segmentCalls_eq, h.isKey_assembled hc, List.filterMap_congr hkeys, hcomp]

theorem calls_assembled (arguments : String) :
    (w.assembled c).calls arguments = added.calls arguments := by
  rw [Command.calls, Additions.calls, h.wholeCalls_assembled hc, h.segmentCalls_assembled hc]

end Recorded

end

/-! ## Help and reading in step -/

/-- How a live command answers and reads lines, told by the additions to it. -/
structure InStep (w : Workbench) (id : CommandId) (c : LiveCommand) (added : Additions) : Prop where
  -- under each name the command holds the very parameter that was added under it last
  holds_last : ∀ name, c.parts.get? name = (added.last? name).map (·.part)
  -- a line that asks for help on nothing in particular is answered with the listing: a line for
  -- each name, in the order of the first additions, with the header of the last parameter
  lists : ∀ rest frame, Text.contains (c.body.name ++ rest) Command.helpWord = true →
    Command.AsksFor rest "" →
    ((w.assembled c).execute (c.body.name ++ rest)).run.run frame =
      (.ok (.text (c.body.help ++ "\n\nParameters:\n" ++ added.listing)),
        ⟨frame.model, frame.events ++ [.gaveHelp c.body.name]⟩)
  -- parsing a line hands the argument text to those of the last parameters that take it, in the
  -- order of the listing, and each segment to the last parameter under its key
  parses : ∀ line, (w.assembled c).parse line = (do
    c.body.ensureAddressed line
    Work.reset
    (added.calls (c.body.argumentText line)).forM Command.makeCall
    c.body.ensureValid
    return (← get).model)
  -- each value lands where the parameter that the command holds under the key writes to
  hands_on : ∀ line,
    (w.work id [] (·.handOut line)).map (fun done => (done.1, done.2.2)) =
      some ((w.withModel id ∅).handEach id
        ((added.calls (c.body.argumentText line)).map Prod.snd))

theorem Recorded.inStep {w : Workbench} {id : CommandId} {c : LiveCommand} {added : Additions}
    (h : Recorded w id added) (howns : w.OwnsHeld id) (hc : w.command? id = some c) :
    InStep w id c added where
  holds_last := h.get?_parts hc
  lists rest frame hhelp hasks := by
    have hrun := Command.run_execute_of_asksFor (c := w.assembled c) hhelp hasks frame
    rw [if_pos rfl, Command.generalAnswer, h.generalHelp_eq hc] at hrun
    exact hrun
  parses line := by
    rw [Command.parse, Command.fill_eq, h.calls_assembled hc]
    simp only [bind_assoc]
    rfl
  hands_on line := by
    rw [work_handOut_eq_handAlong howns, handAlong, hc, Option.map_some]
    simp only [h.calls_assembled hc]
    rfl

/-- After any steps, help and reading of a live command both go by the `last?` parameter under each
name, in the order of the first additions. -/
theorem help_and_reading_in_step_after (steps : List Step) {id : CommandId} {c : LiveCommand}
    (hc : (traced steps).bench.command? id = some c) :
    InStep (traced steps).bench id c (additions id steps) :=
  (recorded_traced id steps).inStep ((Sound.nothing.foldl steps).owns id) hc

/-- A start, a note and an end are made, the end for another command. Then a parameter of the same
name that has `wholeInput` replaces the start. -/
def replacing : List Step :=
  [.makeCommand Samples.emptyModel, .makeCommand Samples.number, .makeParameter Schedule.start,
    .makeParameter Schedule.note, .makeParameter Schedule.stop,
    .makeParameter { Echo.text with name := "from" }, .attach 0 0, .attach 0 1, .attach 1 2,
    .attach 0 2, .attach 0 3]

theorem help_and_reading_in_step_of_replaced :
    let w := (traced replacing).bench
    let added := additions 0 replacing
    added.map (·.part) = [0, 1, 3] ∧
      added.listing = "\t- from: text to repeat\n\t- note: optional note\n" ∧
      (added.calls "from x note y").map (·.2) =
        [⟨"from", "from", true, "from x note y"⟩, ⟨"note", "note", false, "y"⟩] ∧
      ∃ c, w.command? 0 = some c ∧ InStep w 0 c added :=
  ⟨rfl, by decide, by decide, _, rfl, help_and_reading_in_step_after replacing rfl⟩

end Workbench

end ChatCommands

import ChatCommands.Bundled.Echo
import ChatCommands.Bundled.Schedule
import ChatCommands.Proofs.HelpTopics
import ChatCommands.Proofs.StoreFields
import ChatCommands.Samples

/-!
# The order in which parameters are declared

A command looks a word up among its parameters by name, so the order in which they were added does
not matter for that; but it goes through those that take the whole input in order. All that a line
comes to rests on the two (`ReadsAlike`). The main statement,
`declaration_order_shows_only_in_listing`, is that commands with the same parameters in another
order are told apart by no line, as long as the parameters that take the whole input keep theirs:
only the listing of all parameters shows the order, by that of its lines.
-/

namespace ChatCommands

namespace Command

/-! ## What reading a line rests on -/

/-- Two commands agree on what lines are read by. Of the order of the parameters only that of those
with `wholeInput` counts. -/
structure ReadsAlike (c d : Command) : Prop where
  name_eq : c.name = d.name
  validate_eq : c.validate = d.validate
  run_eq : c.run = d.run
  get?_eq : ∀ key, c.parameters.get? key = d.parameters.get? key
  whole_eq : c.parameters.entries.filter (·.2.wholeInput) =
    d.parameters.entries.filter (·.2.wholeInput)

section
variable {c d : Command}

theorem ReadsAlike.calls_eq (h : ReadsAlike c d) (arguments : String) :
    c.calls arguments = d.calls arguments := by
  have htaker : c.taker? = d.taker? := funext fun word => by rw [taker?, taker?, h.get?_eq]
  have hkey : c.isKey = d.isKey := funext fun word => by rw [isKey, isKey, htaker]
  have hcall : c.callOf? = d.callOf? := funext fun s => by rw [callOf?, callOf?, htaker]
  rw [calls, calls, wholeCalls, wholeCalls, h.whole_eq, segmentCalls_eq, segmentCalls_eq, hkey,
    hcall]

theorem ReadsAlike.accepts_eq (h : ReadsAlike c d) (line : String) :
    c.accepts line = d.accepts line := by
  rw [accepts, accepts, h.name_eq]

theorem ReadsAlike.ensureAddressed_eq (h : ReadsAlike c d) (line : String) :
    c.ensureAddressed line = d.ensureAddressed line := by
  rw [ensureAddressed, ensureAddressed, h.accepts_eq, h.name_eq]

theorem ReadsAlike.fill_eq (h : ReadsAlike c d) (line : String) : c.fill line = d.fill line := by
  rw [Command.fill_eq, Command.fill_eq, argumentText, argumentText, h.name_eq, h.calls_eq,
    ensureValid, ensureValid, h.validate_eq]

theorem ReadsAlike.parse_eq (h : ReadsAlike c d) (line : String) : c.parse line = d.parse line := by
  rw [parse, parse, h.ensureAddressed_eq, h.fill_eq]

theorem ReadsAlike.topic_eq (h : ReadsAlike c d) (line : String) : c.topic line = d.topic line := by
  rw [topic, topic, h.name_eq]

theorem ReadsAlike.renderHelp_eq (h : ReadsAlike c d) {line : String} (htopic : c.topic line ≠ "") :
    c.renderHelp line = d.renderHelp line := by
  rw [renderHelp, renderHelp]
  simp only [← h.topic_eq, if_neg htopic, h.get?_eq, h.name_eq]

/-- `execute` is the same unless the line asks for the listing of all parameters. -/
theorem ReadsAlike.execute_eq (h : ReadsAlike c d) {line : String}
    (hline : Text.contains line helpWord = false ∨ c.topic line ≠ "") :
    c.execute line = d.execute line := by
  rw [execute, execute, h.ensureAddressed_eq]
  cases hhelp : Text.contains line helpWord with
  | false =>
    have hperform : c.perform = d.perform := by rw [perform, perform, h.run_eq]
    simp only [h.fill_eq, hperform, Bool.false_eq_true, if_false]
  | true =>
    have htopic : c.topic line ≠ "" := hline.resolve_left (by simp [hhelp])
    simp only [h.renderHelp_eq htopic, if_true]

end

/-! ## Declaring parameters -/

/-- The command with parameters added one after another. -/
def declare (c : Command) (ps : List Parameter) : Command := ps.foldl addParameter c

theorem declare_eq (c : Command) (ps : List Parameter) :
    c.declare ps =
      { c with parameters := c.parameters.insertAll (ps.map fun p => (p.name, p)) } := by
  induction ps generalizing c with
  | nil => rfl
  | cons p ps ih =>
    have hstep : c.declare (p :: ps) = (c.addParameter p).declare ps := rfl
    rw [hstep, ih]
    rfl

theorem entries_declare {c : Command} (hc : c.parameters = ∅) {ps : List Parameter}
    (hnames : (ps.map Parameter.name).Nodup) :
    (c.declare ps).parameters.entries = ps.map fun p => (p.name, p) := by
  rw [declare_eq, hc]
  refine OrderedMap.entries_ofList ?_
  rw [List.map_map]
  exact hnames

/-- The same parameters under distinct names, with those that have `wholeInput` in the same order.
-/
structure Reordered (ps qs : List Parameter) : Prop where
  perm : ps.Perm qs
  nodup_names : (ps.map Parameter.name).Nodup
  -- those that take the whole input are in the same order
  whole_eq : ps.filter (·.wholeInput) = qs.filter (·.wholeInput)

section
variable {c d : Command} {ps qs : List Parameter}

theorem Reordered.perm_entries (h : Reordered ps qs) (hc : c.parameters = ∅)
    (hd : d.parameters = ∅) :
    (c.declare ps).parameters.entries.Perm (d.declare qs).parameters.entries := by
  have hnames : (qs.map Parameter.name).Nodup := (h.perm.map _).nodup_iff.1 h.nodup_names
  rw [entries_declare hc h.nodup_names, entries_declare hd hnames]
  exact h.perm.map _

theorem Reordered.readsAlike (h : Reordered ps qs) (hname : c.name = d.name)
    (hvalidate : c.validate = d.validate) (hrun : c.run = d.run) (hc : c.parameters = ∅)
    (hd : d.parameters = ∅) : ReadsAlike (c.declare ps) (d.declare qs) where
  name_eq := by rw [declare_eq, declare_eq, hname]
  validate_eq := by rw [declare_eq, declare_eq, hvalidate]
  run_eq := by rw [declare_eq, declare_eq, hrun]
  get?_eq := OrderedMap.get?_eq_of_perm (h.perm_entries hc hd)
  whole_eq := by
    have hnames : (qs.map Parameter.name).Nodup := (h.perm.map _).nodup_iff.1 h.nodup_names
    have hfilter (ps : List Parameter) : (ps.map fun p => (p.name, p)).filter (·.2.wholeInput) =
        (ps.filter (·.wholeInput)).map fun p => (p.name, p) := by
      rw [List.filter_map]
      rfl
    rw [entries_declare hc h.nodup_names, entries_declare hd hnames, hfilter, hfilter, h.whole_eq]

end

/-! ## Answers -/

/-- In what two commands answer alike. -/
structure AnswersAlike (c d : Command) : Prop where
  calls_eq : ∀ arguments, c.calls arguments = d.calls arguments
  parse_eq : ∀ line frame, (c.parse line).run.run frame = (d.parse line).run.run frame
  execute_eq : ∀ line frame, Text.contains line helpWord = false →
    (c.execute line).run.run frame = (d.execute line).run.run frame
  help_eq : ∀ line frame, Text.contains line helpWord = true → c.topic line ≠ "" →
    (c.execute line).run.run frame = (d.execute line).run.run frame
  -- each answers a request for general help with its own listing
  general : ∀ rest frame, Text.contains (c.name ++ rest) helpWord = true → AsksFor rest "" →
    (c.execute (c.name ++ rest)).run.run frame = c.generalAnswer frame ∧
      (d.execute (c.name ++ rest)).run.run frame = d.generalAnswer frame
  -- which differ in the order of their lines at most
  perm_listing : (c.parameters.values.map listingLine).Perm (d.parameters.values.map listingLine)

section
variable {c d : Command} {ps qs : List Parameter}

/-- If the same parameters are declared in another order, with those that have `wholeInput` in the
same one, then only the order of the lines in the listing tells the commands apart. -/
theorem declaration_order_shows_only_in_listing (h : Reordered ps qs) (hname : c.name = d.name)
    (hvalidate : c.validate = d.validate) (hrun : c.run = d.run) (hc : c.parameters = ∅)
    (hd : d.parameters = ∅) : AnswersAlike (c.declare ps) (d.declare qs) := by
  have halike := h.readsAlike hname hvalidate hrun hc hd
  constructor
  · exact halike.calls_eq
  · intro line frame
    rw [halike.parse_eq]
  · intro line frame hhelp
    rw [halike.execute_eq (.inl hhelp)]
  · intro line frame _ htopic
    rw [halike.execute_eq (.inr htopic)]
  · intro rest frame hhelp hasks
    refine ⟨by rw [run_execute_of_asksFor hhelp hasks, if_pos rfl], ?_⟩
    rw [halike.name_eq] at hhelp ⊢
    rw [run_execute_of_asksFor hhelp hasks, if_pos rfl]
  · exact ((h.perm_entries hc hd).map Prod.snd).map listingLine

end

def declared : List Parameter :=
  [Schedule.start, Echo.text, Schedule.stop] ++ [{ Echo.text with name := "all" }]

/-- The same with the start and the end in each other's place. -/
def redeclared : List Parameter :=
  [Schedule.stop, Echo.text, Schedule.start] ++ [{ Echo.text with name := "all" }]

theorem declaration_order_of_exchanged_ends :
    Reordered declared redeclared ∧ Samples.emptyModel.parameters = ∅ ∧
      AnswersAlike (Samples.emptyModel.declare declared)
        ({ Samples.emptyModel with help := "another" }.declare redeclared) := by
  have hreordered : Reordered declared redeclared :=
    ⟨(List.reverse_perm _).symm.append_right _, by decide, rfl⟩
  exact ⟨hreordered, rfl, declaration_order_shows_only_in_listing hreordered rfl rfl rfl rfl rfl⟩

end Command

end ChatCommands

import ChatCommands.Proofs.CallHistory
import ChatCommands.Proofs.Occurrences
import ChatCommands.Proofs.ParseThenRun
import ChatCommands.Proofs.SegmentRoundTrip

/-!
# What mentions help is not acted on

A line that mentions help is answered with help, so nothing of such a line reaches a parameter, the
check or the action. The mention is looked for in the line as it is written, while the values are
put together anew from its words; but a value holds no more than the line does, since neither a word
nor a space between two words can make a mention that was not there.

The main statement is `no_action_with_mention_of_help`, for one line and whatever model a command
holds. By induction it holds for all that is handed over while line after line is executed
(`withoutMention_afterAll`).
-/

namespace ChatCommands

namespace Text

variable {text part pattern : String}

theorem contains_of_isInfix (hpart : part.toList <:+: text.toList)
    (h : contains text pattern = false) : contains part pattern = false := by
  rw [Bool.eq_false_iff, ne_eq, contains_iff_isInfix] at h ⊢
  intro hpattern
  exact h (hpattern.trans hpart)

theorem contains_drop (h : contains text pattern = false) (n : Nat) :
    contains (drop text n) pattern = false := by
  apply contains_of_isInfix _ h
  rw [drop, String.toList_ofList]
  exact (List.drop_suffix n text.toList).isInfix

theorem contains_of_startsWith (hstart : startsWith text part = true)
    (h : contains text pattern = false) : contains part pattern = false := by
  apply contains_of_isInfix _ h
  rw [startsWith, List.isPrefixOf_iff_prefix] at hstart
  exact hstart.isInfix

end Text

/-- Nothing that is handed over mentions `help`: the value does not, and a key does not unless its
parameter has `wholeInput`. -/
structure Delivery.WithoutMention (delivery : Delivery) : Prop where
  value : Text.contains delivery.value Command.helpWord = false
  key : delivery.isWhole = false → Text.contains delivery.key Command.helpWord = false

namespace Command

/-- What comes of `line` is free of any mention of `help`, for a command that holds the model
`held`. -/
structure ActsWithoutMention (c : Command) (line : String) (held : Model) : Prop where
  -- the command acts on exactly the addressed lines that do not mention `help`
  acts_iff : (∃ event ∈ (startOn held (c.execute line)).2.events, event.isWork = true) ↔
    c.accepts line = true ∧ Text.contains line helpWord = false
  name : ∀ event ∈ (startOn held (c.execute line)).2.events, event.isWork = true →
    Text.contains c.name helpWord = false
  delivered : ∀ delivery, .delivered delivery ∈ (startOn held (c.execute line)).2.events →
    delivery.WithoutMention ∧
      ∃ p, c.parameters.get? delivery.key = some p ∧ p.wholeInput = delivery.isWhole
  -- a command whose name mentions `help` never acts, and keeps its model
  idle : Text.contains c.name helpWord = true →
    (∀ event ∈ (startOn held (c.execute line)).2.events, event.isWork = false) ∧
      (startOn held (c.execute line)).2.model = held
  -- a parameter whose key mentions `help` never gets a segment
  passed_over : ∀ key p, c.parameters.get? key = some p → p.wholeInput = false →
    Text.contains key helpWord = true →
      ∀ delivery, .delivered delivery ∈ (startOn held (c.execute line)).2.events →
        delivery.key ≠ key

/-! ## The calls of an argument text -/

/-- `carryOut` makes the first of the calls. -/
theorem made_prefix (calls : List Call) (model : Model) :
    (carryOut calls model).2.2 <+: calls.map Prod.snd := by
  induction calls generalizing model with
  | nil => exact List.prefix_refl _
  | cons call calls ih =>
    obtain ⟨p, delivery⟩ := call
    rw [carryOut, List.map_cons]
    rcases (p.parse delivery.value).run.run model with ⟨failure | _, after⟩
    · exact (List.prefix_cons_inj delivery).2 (List.nil_prefix)
    · exact (List.prefix_cons_inj delivery).2 (ih after)

theorem made_ne_nil {calls : List Call} {model : Model} {failure : Failure}
    (h : (carryOut calls model).1 = .error failure) : (carryOut calls model).2.2 ≠ [] := by
  cases calls with
  | nil => cases h
  | cons call calls =>
    obtain ⟨p, delivery⟩ := call
    rw [carryOut]
    rcases (p.parse delivery.value).run.run model with ⟨failure | _, after⟩
    · exact List.cons_ne_nil _ _
    · exact List.cons_ne_nil _ _

/-- The calls of an argument text without `help` are `WithoutMention`. -/
theorem withoutMention_of_mem_calls {c : Command} {arguments : String}
    (hhelp : Text.contains arguments helpWord = false) {call : Call}
    (h : call ∈ c.calls arguments) : call.2.WithoutMention := by
  rcases List.mem_append.1 h with hwhole | hsegment
  · obtain ⟨entry, -, rfl⟩ := List.mem_map.1 hwhole
    exact ⟨hhelp, nofun⟩
  · rw [segmentCalls_eq] at hsegment
    obtain ⟨s, hs, hcall⟩ := List.mem_filterMap.1 hsegment
    obtain ⟨p, -, rfl⟩ := Option.map_eq_some_iff.1 hcall
    have hwords : ∀ word ∈ s.words, Text.contains word helpWord = false := by
      intro word hword
      exact Text.contains_word (Segment.not_isKey_of_mem hs word hword).1 hhelp
    refine ⟨?_, fun _ => ?_⟩
    · show Text.contains (Text.unwords s.words) helpWord = false
      exact Text.contains_unwords (by decide) (by decide) hwords
    · exact Text.contains_word (Segment.key_mem_of_mem hs) hhelp

theorem wholeInput_of_mem_calls {c : Command} {arguments : String} {call : Call}
    (h : call ∈ c.calls arguments) : call.1.wholeInput = call.2.isWhole := by
  rcases List.mem_append.1 h with hwhole | hsegment
  · obtain ⟨entry, hentry, rfl⟩ := List.mem_map.1 hwhole
    exact (List.mem_filter.1 hentry).2
  · obtain ⟨b, -, hcall⟩ := List.mem_filterMap.1 hsegment
    obtain ⟨p, hp, rfl⟩ := Option.map_eq_some_iff.1 hcall
    simpa using (Option.filter_eq_some_iff.1 hp).2

/-! ## One line -/

section
variable {c : Command} {line : String} {held : Model}

theorem events_startOn_execute (held : Model) :
    (startOn held (c.execute line)).2.events = (start (c.execute line)).2.events := by
  rw [startOn, (asOnFresh_execute c line).run_eq]
  exact List.nil_append _

/-- Work is noted only on an addressed line that does not mention `help`. -/
theorem plain_of_isWork {event : Event}
    (h : event ∈ (startOn held (c.execute line)).2.events) (hwork : event.isWork = true) :
    c.accepts line = true ∧ Text.contains line helpWord = false := by
  by_contra hno
  have hfills : (c.accepts line && !Text.contains line helpWord) = false := by simpa using hno
  rw [events_startOn_execute] at h
  rw [(asOnFresh_execute c line).isWork_eq_false hfills event h] at hwork
  cases hwork

theorem model_startOn_execute (h : (c.accepts line && !Text.contains line helpWord) = false) :
    (startOn held (c.execute line)).2.model = held := by
  rw [startOn, (asOnFresh_execute c line).run_eq, h]
  rfl

theorem events_of_plain (haccepts : c.accepts line = true)
    (hhelp : Text.contains line helpWord = false) (held : Model) :
    (startOn held (c.execute line)).2.events = (c.filled line).2.events ∨
      (startOn held (c.execute line)).2.events = (c.filled line).2.events ++ [.ran] := by
  rw [startOn, run_execute_of_plain haccepts hhelp]
  rcases c.filled line with ⟨failure | _, after⟩
  · exact .inl rfl
  · exact .inr rfl

theorem exists_isWork_filled (c : Command) (line : String) :
    ∃ event ∈ (c.filled line).2.events, event.isWork = true := by
  unfold filled
  rcases hcarry : carryOut (c.calls (c.argumentText line)) ∅ with ⟨failure | _, model, made⟩
  · have hmade : made ≠ [] := by
      have hne := made_ne_nil (congrArg Prod.fst hcarry)
      rwa [hcarry] at hne
    obtain ⟨delivery, hdelivery⟩ := List.exists_mem_of_ne_nil made hmade
    exact ⟨.delivered delivery, List.mem_map_of_mem hdelivery, rfl⟩
  · exact ⟨.validated, List.mem_append_right _ List.mem_cons_self, rfl⟩

theorem mem_calls_of_mem_filled {delivery : Delivery}
    (h : .delivered delivery ∈ (c.filled line).2.events) :
    ∃ p, (p, delivery) ∈ c.calls (c.argumentText line) := by
  have hmade := made_prefix (c.calls (c.argumentText line)) ∅
  have hmem : delivery ∈ (carryOut (c.calls (c.argumentText line)) ∅).2.2 := by
    unfold filled at h
    split at h
    next hcarry =>
      rw [hcarry]
      simpa using h
    next hcarry =>
      rw [hcarry]
      simpa using h
  simpa using hmade.subset hmem

/-- What `execute` hands over is in the calls of the argument text. -/
theorem mem_calls_of_delivered {delivery : Delivery}
    (h : .delivered delivery ∈ (startOn held (c.execute line)).2.events) :
    ∃ p, (p, delivery) ∈ c.calls (c.argumentText line) := by
  obtain ⟨haccepts, hhelp⟩ := plain_of_isWork h rfl
  apply mem_calls_of_mem_filled
  rcases events_of_plain haccepts hhelp held with hevents | hevents
  · rwa [hevents] at h
  · rw [hevents] at h
    simpa using h

theorem withoutMention_of_delivered {delivery : Delivery}
    (h : .delivered delivery ∈ (startOn held (c.execute line)).2.events) :
    delivery.WithoutMention := by
  obtain ⟨-, hhelp⟩ := plain_of_isWork h rfl
  obtain ⟨p, hp⟩ := mem_calls_of_delivered h
  exact withoutMention_of_mem_calls (Text.contains_drop hhelp _) hp

/-- If any work is noted, the name of the command does not mention `help`. -/
theorem name_of_isWork {event : Event} (h : event ∈ (startOn held (c.execute line)).2.events)
    (hwork : event.isWork = true) : Text.contains c.name helpWord = false := by
  obtain ⟨haccepts, hhelp⟩ := plain_of_isWork h hwork
  exact Text.contains_of_startsWith haccepts hhelp

end

/-- For every command, line and model, nothing is acted on with a mention of `help`: not in the name
of the command, in a value, or in the key of a parameter that takes segments. -/
theorem no_action_with_mention_of_help (c : Command) (line : String) (held : Model) :
    ActsWithoutMention c line held where
  acts_iff := by
    constructor
    · rintro ⟨event, hevent, hwork⟩
      exact plain_of_isWork hevent hwork
    · rintro ⟨haccepts, hhelp⟩
      obtain ⟨event, hevent, hwork⟩ := c.exists_isWork_filled line
      refine ⟨event, ?_, hwork⟩
      rcases events_of_plain haccepts hhelp held with hevents | hevents
      · rwa [hevents]
      · rw [hevents]
        exact List.mem_append_left _ hevent
  name _ hevent hwork := name_of_isWork hevent hwork
  delivered delivery h := by
    obtain ⟨p, hp⟩ := mem_calls_of_delivered h
    exact ⟨withoutMention_of_delivered h, p, get?_of_mem_calls hp, wholeInput_of_mem_calls hp⟩
  idle hname := by
    have hfills : (c.accepts line && !Text.contains line helpWord) = false := by
      by_contra hplain
      have hplain : c.accepts line = true ∧ Text.contains line helpWord = false := by
        simpa using hplain
      rw [Text.contains_of_startsWith hplain.1 hplain.2] at hname
      cases hname
    refine ⟨?_, model_startOn_execute hfills⟩
    intro event hevent
    rw [events_startOn_execute] at hevent
    exact (asOnFresh_execute c line).isWork_eq_false hfills event hevent
  passed_over key p hp hregular hkey delivery h := by
    rintro rfl
    obtain ⟨q, hq⟩ := mem_calls_of_delivered h
    have hsame : p = q := Option.some.inj (hp.symm.trans (get?_of_mem_calls hq))
    rw [hsame, wholeInput_of_mem_calls hq] at hregular
    rw [(withoutMention_of_delivered h).key hregular] at hkey
    cases hkey

/-! ## Line after line -/

/-- The run of `no_action_with_mention_of_help`: line after line, nothing handed over mentions
`help`. -/
theorem withoutMention_afterAll (c : Command) (lines : List String) :
    ∀ delivery, .delivered delivery ∈ (c.afterAll (lines.map Request.execute)).events →
      Text.contains c.name helpWord = false ∧ delivery.WithoutMention := by
  induction lines using List.reverseRecOn with
  | nil => exact nofun
  | append_singleton lines line ih =>
    intro delivery h
    rw [List.map_append, List.map_singleton, afterAll_append_singleton,
      (asOnFresh_work c _).run_eq] at h
    rcases List.mem_append.1 h with hearlier | hlast
    · exact ih delivery hearlier
    · have hline : .delivered delivery ∈ (startOn ∅ (c.execute line)).2.events := by
        rw [Request.work, start, run_run_bind_pure] at hlast
        exact hlast
      exact ⟨name_of_isWork hline rfl, withoutMention_of_delivered hline⟩

end Command

end ChatCommands

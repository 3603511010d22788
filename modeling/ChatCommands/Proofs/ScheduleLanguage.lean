import ChatCommands.Bundled.Schedule
import ChatCommands.Proofs.OrderedMaps
import ChatCommands.Proofs.Segmentation

/-!
# The language of the schedule command

Which lines the schedule command accepts, how it refuses the others, and what it answers. All is
said by the segments of a line: the first end of a window that cannot be read is what a line is
refused for; of the others the last start and the last end count, and they have to be a window.

`execute_eq_answer` says that the answer depends on the segments alone, and the main statement,
`execute_iff`, what the answer is.
-/

namespace ChatCommands

namespace Schedule

/-! ## The segments of a line -/

/-- Whether a word is one of `from`, `to` and `note`. -/
def isName (word : String) : Bool := word == "from" || word == "to" || word == "note"

/-- The segments of the argument text, cut at `Segment.boundaries`. -/
def segments (line : String) : List Segment :=
  let words := Text.words (command.argumentText line)
  (Segment.boundaries isName words).map (Segment.startingAt isName words)

/-- The values of the segments with key `key`, in the order of the text. -/
def valuesOf (key : String) (segments : List Segment) : List String :=
  (segments.filter (·.key == key)).map Segment.value

/-- A `from` or `to` segment whose value is empty, or that `DateTime.ofIso?` does not read. -/
def IsFaulty (s : Segment) : Prop :=
  (s.key = "from" ∨ s.key = "to") ∧ (s.value = "" ∨ DateTime.ofIso? s.value = none)

instance : DecidablePred IsFaulty := fun _ => inferInstanceAs (Decidable (_ ∧ _))

def fault (s : Segment) : CommandFailure :=
  if s.value = "" then .emptyValue s.key else .notADate s.key s.value

/-! ## What is stored -/

/-- The moment of the last segment with key `key`. -/
def lastMoment (key : String) (segments : List Segment) : Option DateTime :=
  (valuesOf key segments).getLast?.bind DateTime.ofIso?

/-- The value of a segment as it is stored: a note as text, an end as the moment that `ofIso?`
reads. -/
def valueOf (s : Segment) : Value :=
  if s.key = "note" then .text s.value
  else
    match DateTime.ofIso? s.value with
    | some t => .moment t
    | none => .null

/-- What is stored under `key` in the end, for a window from `start` to `stop`. -/
def storedValue (start stop : DateTime) (segments : List Segment) (key : String) : Value :=
  if key = "from" then .moment start
  else if key = "to" then .moment stop
  else .text ((valuesOf "note" segments).getLastD "")

/-- The entries of the answer: the keys in the order of their first segments, each with
`storedValue`, and `scheduled` behind them. -/
def answerEntries (start stop : DateTime) (segments : List Segment) : List (String × Value) :=
  (segments.map Segment.key).eraseDups.map
    (fun key => (key, storedValue start stop segments key)) ++ [("scheduled", .bool true)]

/-- The answer to a line with the given segments. The leftmost `IsFaulty` one is refused; otherwise
the last start and the last end have to be a window. -/
def answer (segments : List Segment) : Except Failure Value :=
  match segments.find? (IsFaulty ·), lastMoment "from" segments, lastMoment "to" segments with
  | some s, _, _ => .error (.command (fault s))
  | none, some start, some stop =>
    if isWindow start stop then .ok (.map (answerEntries start stop segments))
    else .error (.command .rejected)
  | none, _, _ => .error (.command .rejected)

/-! ## The parameters -/

theorem parse_dateTimeParameter (name header detail value : String) (model : Model) :
    ((dateTimeParameter name header detail).parse value).run.run model =
      if value = "" then (.error (.command (.emptyValue name)), model)
      else
        match DateTime.ofIso? value with
        | none => (.error (.command (.notADate name value)), model)
        | some t => (.ok (), model.insert name (.moment t)) := by
  by_cases hvalue : value = ""
  · simp [Parameter.parse, dateTimeParameter, hvalue]
    rfl
  · cases ht : DateTime.ofIso? value <;>
      simp [Parameter.parse, dateTimeParameter, hvalue, ht] <;> rfl

theorem parse_noteParameter (name header detail value : String) (model : Model) :
    ((noteParameter name header detail).parse value).run.run model =
      (.ok (), model.insert "note" (.text value)) := rfl

theorem taker?_command (word : String) :
    command.taker? word =
      if word = "from" then some start
      else if word = "to" then some stop
      else if word = "note" then some note else none := by
  have hstart : start.name = "from" := rfl
  have hstop : stop.name = "to" := rfl
  have hnote : note.name = "note" := rfl
  simp only [Command.taker?, command, OrderedMap.get?_insert, hstart, hstop, hnote]
  by_cases h₁ : word = "from"
  · subst h₁
    rfl
  · by_cases h₂ : word = "to"
    · subst h₂
      rfl
    · by_cases h₃ : word = "note"
      · subst h₃
        rfl
      · simp [h₁, h₂, h₃, Ne.symm h₁, Ne.symm h₂, Ne.symm h₃, OrderedMap.empty, OrderedMap.get?,
          OrderedMap.lookup]

theorem isKey_command : command.isKey = isName := by
  funext word
  rw [Command.isKey, taker?_command]
  by_cases h₁ : word = "from" <;> by_cases h₂ : word = "to" <;> by_cases h₃ : word = "note" <;>
    simp [isName, h₁, h₂, h₃]

/-- Each segment has a parameter, which stores `valueOf s` under the key unless `s` is faulty. -/
theorem exists_taker {s : Segment} (h : isName s.key = true) :
    ∃ p, command.taker? s.key = some p ∧ ∀ model : Model, (p.parse s.value).run.run model =
      if IsFaulty s then (.error (.command (fault s)), model)
      else (.ok (), model.insert s.key (valueOf s)) := by
  rw [taker?_command]
  have hend (p : Parameter) (header detail : String) (hkey : s.key = "from" ∨ s.key = "to")
      (hp : p = dateTimeParameter s.key header detail) (model : Model) :
      (p.parse s.value).run.run model =
        if IsFaulty s then (.error (.command (fault s)), model)
        else (.ok (), model.insert s.key (valueOf s)) := by
    have hnote : s.key ≠ "note" := by rcases hkey with hkey | hkey <;> simp [hkey]
    rw [hp, parse_dateTimeParameter]
    by_cases hvalue : s.value = ""
    · simp [IsFaulty, fault, hkey, hvalue]
    · cases ht : DateTime.ofIso? s.value <;>
        simp [IsFaulty, fault, valueOf, hkey, hvalue, ht, hnote]
  simp only [isName, Bool.or_eq_true, beq_iff_eq] at h
  rcases h with (h | h) | h
  · exact ⟨start, by simp [h], hend start _ _ (.inl h) (by rw [h]; rfl)⟩
  · exact ⟨stop, by simp [h], hend stop _ _ (.inr h) (by rw [h]; rfl)⟩
  · refine ⟨note, by simp [h], fun model => ?_⟩
    simp [note, parse_noteParameter, IsFaulty, valueOf, h]

/-! ## Filling the model -/

def written (segments : List Segment) : List (String × Value) :=
  segments.map fun s => (s.key, valueOf s)

/-- A faulty segment ends `carryOut`; any other writes its entry before the next. -/
theorem carryOut_cons {s : Segment} (hname : isName s.key = true) (segments : List Segment)
    (model : Model) :
    let later := Command.carryOut (segments.filterMap command.callOf?)
      (model.insert s.key (valueOf s))
    let all := Command.carryOut ((s :: segments).filterMap command.callOf?) model
    if IsFaulty s then all.1 = .error (.command (fault s))
    else all.1 = later.1 ∧ all.2.1 = later.2.1 := by
  obtain ⟨p, htaker, hparse⟩ := exists_taker hname
  have hcall : command.callOf? s = some (p, ⟨s.key, p.name, false, s.value⟩) := by
    simp [Command.callOf?, htaker]
  rw [List.filterMap_cons, hcall]
  by_cases hfaulty : IsFaulty s <;> simp [Command.carryOut, hparse, hfaulty]

theorem carryOut_of_find? {segments : List Segment} (hnames : ∀ s ∈ segments, isName s.key = true)
    {s : Segment} (hfind : segments.find? (IsFaulty ·) = some s) (model : Model) :
    (Command.carryOut (segments.filterMap command.callOf?) model).1 =
      .error (.command (fault s)) := by
  induction segments generalizing model with
  | nil => simp at hfind
  | cons t segments ih =>
    have hcons := carryOut_cons (hnames t (by simp)) segments model
    rw [List.find?_cons] at hfind
    by_cases hfaulty : IsFaulty t
    · simp_all
    · simp only [hfaulty, if_false] at hcons
      rw [hcons.1]
      exact ih (fun u hu => hnames u (List.mem_cons_of_mem _ hu)) (by simpa [hfaulty] using hfind) _

theorem carryOut_of_good {segments : List Segment} (hnames : ∀ s ∈ segments, isName s.key = true)
    (hgood : ∀ s ∈ segments, ¬IsFaulty s) (model : Model) :
    let all := Command.carryOut (segments.filterMap command.callOf?) model
    all.1 = .ok () ∧ all.2.1 = model.insertAll (written segments) := by
  induction segments generalizing model with
  | nil => exact ⟨rfl, rfl⟩
  | cons s segments ih =>
    have hcons := carryOut_cons (hnames s (by simp)) segments model
    have hlater := ih (fun t ht => hnames t (List.mem_cons_of_mem _ ht))
      (fun t ht => hgood t (List.mem_cons_of_mem _ ht)) (model.insert s.key (valueOf s))
    simp only [hgood s (by simp), if_false] at hcons
    exact ⟨hcons.1.trans hlater.1, hcons.2.trans hlater.2⟩

theorem map_fst_written (segments : List Segment) :
    (written segments).map Prod.fst = segments.map Segment.key := by
  simp [written, Function.comp_def]

def lastWith (key : String) (segments : List Segment) : Option Segment :=
  (segments.filter (·.key == key)).getLast?

theorem getLast?_valuesOf (key : String) (segments : List Segment) :
    (valuesOf key segments).getLast? = (lastWith key segments).map Segment.value := by
  rw [valuesOf, List.getLast?_map, lastWith]

theorem lastWith_eq_some {key : String} {segments : List Segment} {s : Segment}
    (h : lastWith key segments = some s) : s ∈ segments ∧ s.key = key := by
  simpa using List.mem_filter.1 (List.mem_of_getLast? h)

theorem lastWith_eq_none {key : String} {segments : List Segment}
    (h : lastWith key segments = none) : key ∉ segments.map Segment.key := by
  rw [lastWith, List.getLast?_eq_none_iff, List.filter_eq_nil_iff] at h
  rw [List.mem_map]
  rintro ⟨s, hs, rfl⟩
  exact h s hs (by simp)

/-- `lastUnder` among the written entries is the value of the last segment with the key. -/
theorem lastUnder_written (key : String) (segments : List Segment) :
    OrderedMap.lastUnder key (written segments) = (lastWith key segments).map valueOf := by
  simp [OrderedMap.lastUnder, written, lastWith, List.filter_map, Function.comp_def]

/-- The model that the segments fill. -/
def filled (segments : List Segment) : Model := OrderedMap.ofList (written segments)

theorem insertAll_written (segments : List Segment) :
    OrderedMap.insertAll ∅ (written segments) = filled segments := rfl

theorem keys_filled (segments : List Segment) :
    (filled segments).keys = (segments.map Segment.key).eraseDups := by
  rw [filled, OrderedMap.keys_ofList, map_fst_written]

theorem get?_filled (segments : List Segment) (key : String) :
    (filled segments).get? key = (lastWith key segments).map valueOf := by
  rw [filled, OrderedMap.get?_ofList, lastUnder_written]

/-- Under `from` and `to` the filled model holds the `lastMoment`. -/
theorem get?_filled_end {segments : List Segment} (hgood : ∀ s ∈ segments, ¬IsFaulty s)
    {key : String} (hkey : key = "from" ∨ key = "to") :
    (filled segments).get? key = (lastMoment key segments).map Value.moment := by
  rw [get?_filled, lastMoment, getLast?_valuesOf]
  cases h : lastWith key segments with
  | none => rfl
  | some s =>
    obtain ⟨hmem, rfl⟩ := lastWith_eq_some h
    have hnote : s.key ≠ "note" := by rcases hkey with hkey | hkey <;> simp [hkey]
    cases ht : DateTime.ofIso? s.value with
    | none => exact absurd ⟨hkey, .inr ht⟩ (hgood s hmem)
    | some t => simp [valueOf, hnote, ht]

theorem get?_filled_note {segments : List Segment} (h : "note" ∈ segments.map Segment.key) :
    (filled segments).get? "note" = some (.text ((valuesOf "note" segments).getLastD "")) := by
  rw [get?_filled, List.getLastD_eq_getLast?, getLast?_valuesOf]
  cases hlast : lastWith "note" segments with
  | none => exact absurd h (lastWith_eq_none hlast)
  | some s => simp [valueOf, (lastWith_eq_some hlast).2]

/-- If both ends are there, the entries of the filled model are those of `answerEntries` without the
mark. -/
theorem entries_filled {segments : List Segment} (hnames : ∀ s ∈ segments, isName s.key = true)
    (hgood : ∀ s ∈ segments, ¬IsFaulty s) {start stop : DateTime}
    (hstart : lastMoment "from" segments = some start)
    (hstop : lastMoment "to" segments = some stop) :
    (filled segments).entries =
      (segments.map Segment.key).eraseDups.map
        fun key => (key, storedValue start stop segments key) := by
  rw [← keys_filled]
  refine OrderedMap.entries_eq_map fun key hkey => ?_
  rw [keys_filled, List.mem_eraseDups] at hkey
  obtain ⟨s, hs, rfl⟩ := List.mem_map.1 hkey
  have hname := hnames s hs
  simp only [isName, Bool.or_eq_true, beq_iff_eq] at hname
  rcases hname with (hfrom | hto) | hnote
  · rw [get?_filled_end hgood (.inl hfrom), hfrom, hstart]
    rfl
  · rw [get?_filled_end hgood (.inr hto), hto, hstop]
    rfl
  · rw [hnote] at hkey ⊢
    rw [get?_filled_note hkey]
    rfl

/-- Whether the last start and the last end are a window. -/
def holdsWindow (segments : List Segment) : Bool :=
  match lastMoment "from" segments, lastMoment "to" segments with
  | some start, some stop => isWindow start stop
  | _, _ => false

theorem isValid_filled {segments : List Segment} (hgood : ∀ s ∈ segments, ¬IsFaulty s) :
    isValid (filled segments) = .ok (holdsWindow segments) := by
  rw [isValid, get?_filled_end hgood (.inl rfl), get?_filled_end hgood (.inr rfl), holdsWindow]
  cases lastMoment "from" segments <;> cases lastMoment "to" segments <;> rfl

/-! ## Executing -/

theorem wholeCalls_command (arguments : String) : command.wholeCalls arguments = [] := rfl

theorem calls_command (line : String) :
    command.calls (command.argumentText line) = (segments line).filterMap command.callOf? := by
  simp only [Command.calls, wholeCalls_command, List.nil_append, Command.segmentCalls,
    isKey_command, segments, List.filterMap_map, Function.comp_def]

theorem segments_eq_ofWords (line : String) :
    segments line = Segment.ofWords isName (Text.words (command.argumentText line)) :=
  (Segment.ofWords_eq_map_startingAt _ _).symm

theorem isName_of_mem_segments {line : String} {s : Segment} (h : s ∈ segments line) :
    isName s.key = true :=
  Segment.isKey_of_mem (segments_eq_ofWords line ▸ h)

theorem scheduled_not_mem {segments : List Segment} (hnames : ∀ s ∈ segments, isName s.key = true) :
    "scheduled" ∉ (filled segments).keys := by
  rw [keys_filled, List.mem_eraseDups, List.mem_map]
  rintro ⟨s, hs, hkey⟩
  have hname := hnames s hs
  rw [hkey] at hname
  revert hname
  decide

theorem entries_insert_scheduled {segments : List Segment}
    (hnames : ∀ s ∈ segments, isName s.key = true) (hgood : ∀ s ∈ segments, ¬IsFaulty s)
    {start stop : DateTime} (hstart : lastMoment "from" segments = some start)
    (hstop : lastMoment "to" segments = some stop) :
    ((filled segments).insert "scheduled" (.bool true)).entries =
      answerEntries start stop segments := by
  rw [OrderedMap.entries_insert_of_not_mem (scheduled_not_mem hnames),
    entries_filled hnames hgood hstart hstop]
  rfl

theorem run_validate (model : Model) :
    command.validate.run.run model = (isValid model, model) := by
  simp only [command, run_run_bind, run_run_get]
  cases isValid model <;> rfl

/-- The check of the filled model answers `holdsWindow`. -/
theorem run_ensureValid {segments : List Segment} (hgood : ∀ s ∈ segments, ¬IsFaulty s)
    (events : List Event) :
    command.ensureValid.run.run ⟨filled segments, events⟩ =
      (if holdsWindow segments then .ok () else .error (.command .rejected),
        ⟨filled segments, events ++ [.validated]⟩) := by
  rw [Command.ensureValid, run_run_bind, Work.run_note]
  simp only [run_run_bind, Work.run_act, run_validate, isValid_filled hgood]
  cases holdsWindow segments <;> rfl

/-- The action inserts `scheduled` and answers with the model. -/
theorem run_perform (frame : Frame) :
    (command.perform.run.run frame).1 =
      .ok (.ofModel (frame.model.insert "scheduled" (.bool true))) := rfl

/-- `carryOut` on the calls of the segments, the check and the action together come to `answer`. -/
theorem run_segments {segments : List Segment} (hnames : ∀ s ∈ segments, isName s.key = true) :
    ((do
      (segments.filterMap command.callOf?).forM Command.makeCall
      command.ensureValid
      command.perform : Work Value).run.run ⟨∅, []⟩).1 = answer segments := by
  rw [run_run_bind, Command.run_forM_makeCall]
  cases hfind : segments.find? (IsFaulty ·) with
  | some s =>
    -- the calls end at the leftmost faulty segment
    have hcalls := carryOut_of_find? hnames hfind ∅
    generalize Command.carryOut (segments.filterMap command.callOf?) ∅ = all at hcalls ⊢
    obtain ⟨outcome, model, made⟩ := all
    subst hcalls
    simp [answer, hfind]
  | none =>
    -- all calls are made, and validation decides
    have hgood : ∀ s ∈ segments, ¬IsFaulty s := by simpa using List.find?_eq_none.1 hfind
    have hcalls := carryOut_of_good hnames hgood ∅
    rw [insertAll_written] at hcalls
    generalize Command.carryOut (segments.filterMap command.callOf?) ∅ = all at hcalls ⊢
    obtain ⟨outcome, model, made⟩ := all
    obtain ⟨rfl, rfl⟩ := hcalls
    simp only [List.nil_append, run_run_bind, run_ensureValid hgood]
    cases hstart : lastMoment "from" segments with
    | none => simp [answer, holdsWindow, hfind, hstart]
    | some start =>
      cases hstop : lastMoment "to" segments with
      | none => simp [answer, holdsWindow, hfind, hstart, hstop]
      | some stop =>
        have hentries := entries_insert_scheduled hnames hgood hstart hstop
        have hholds : holdsWindow segments = isWindow start stop := by
          simp [holdsWindow, hstart, hstop]
        cases hwindow : isWindow start stop with
        | false => simp [answer, hfind, hstart, hstop, hholds, hwindow]
        | true =>
          simp [answer, hfind, hstart, hstop, hholds, hwindow, run_perform, Value.ofModel]
          exact hentries

/-- The outcome of a line that does not mention `help` is the `answer` to its segments. -/
theorem execute_eq_answer {line : String} (haddressed : command.accepts line = true)
    (hhelp : Text.contains line Command.helpWord = false) :
    (Command.start (command.execute line)).1 = answer (segments line) := by
  have hexecute : command.execute line = (do command.fill line; command.perform) := by
    simp [Command.execute, Command.ensureAddressed, haddressed, hhelp]
  rw [← run_segments fun s hs => isName_of_mem_segments hs, Command.start, hexecute,
    Command.fill_eq, calls_command]
  simp only [bind_assoc]
  rw [run_run_bind, Work.run_reset]

/-! ## The language -/

theorem answer_of_leftmost {before after : List Segment} {s : Segment}
    (hbefore : ∀ t ∈ before, ¬IsFaulty t) (hs : IsFaulty s) :
    answer (before ++ s :: after) = .error (.command (fault s)) := by
  have hnone : before.find? (IsFaulty ·) = none := by simpa using hbefore
  have hfind : (before ++ s :: after).find? (IsFaulty ·) = some s := by
    rw [List.find?_append, hnone, List.find?_cons]
    simp [hs]
  rw [answer, hfind]

theorem isWindow_iff (start stop : DateTime) :
    isWindow start stop = true ↔ start.isAware = stop.isAware ∧ start.instant < stop.instant := by
  by_cases h : start.isAware = stop.isAware <;> simp [isWindow, DateTime.before?, h]

theorem kind_fault (s : Segment) : (fault s).kind = .parse := by
  unfold fault
  split <;> rfl

theorem lastMoment_eq_none_iff {segments : List Segment} (hgood : ∀ s ∈ segments, ¬IsFaulty s)
    {key : String} (hkey : key = "from" ∨ key = "to") :
    lastMoment key segments = none ↔ valuesOf key segments = [] := by
  rw [← List.getLast?_eq_none_iff, lastMoment, getLast?_valuesOf]
  cases h : lastWith key segments with
  | none => simp
  | some s =>
    obtain ⟨hmem, rfl⟩ := lastWith_eq_some h
    have hreads : DateTime.ofIso? s.value ≠ none := fun ht => hgood s hmem ⟨hkey, .inr ht⟩
    simpa using hreads

theorem mem_valuesOf {key value : String} {segments : List Segment} :
    value ∈ valuesOf key segments ↔ ∃ s ∈ segments, s.key = key ∧ s.value = value := by
  simp [valuesOf, and_assoc]

theorem exists_faulty_iff (segments : List Segment) :
    (∃ s ∈ segments, IsFaulty s) ↔
      ∃ value ∈ valuesOf "from" segments ++ valuesOf "to" segments,
        value = "" ∨ DateTime.ofIso? value = none := by
  constructor
  · rintro ⟨s, hs, hkey | hkey, hvalue⟩
    · exact ⟨s.value, List.mem_append_left _ (mem_valuesOf.2 ⟨s, hs, hkey, rfl⟩), hvalue⟩
    · exact ⟨s.value, List.mem_append_right _ (mem_valuesOf.2 ⟨s, hs, hkey, rfl⟩), hvalue⟩
  · rintro ⟨value, hmem, hvalue⟩
    rcases List.mem_append.1 hmem with hmem | hmem
    · obtain ⟨s, hs, hkey, rfl⟩ := mem_valuesOf.1 hmem
      exact ⟨s, hs, .inl hkey, hvalue⟩
    · obtain ⟨s, hs, hkey, rfl⟩ := mem_valuesOf.1 hmem
      exact ⟨s, hs, .inr hkey, hvalue⟩

/-- An end has no segment, or the last moments of the two ends differ in `isAware`, or the start is
not before the end. -/
def LacksWindow (segments : List Segment) : Prop :=
  valuesOf "from" segments = [] ∨ valuesOf "to" segments = [] ∨
    ∃ start stop, lastMoment "from" segments = some start ∧ lastMoment "to" segments = some stop ∧
      (start.isAware ≠ stop.isAware ∨ ¬start.instant < stop.instant)

theorem lacksWindow_of_not_isWindow {segments : List Segment} {start stop : DateTime}
    (hstart : lastMoment "from" segments = some start)
    (hstop : lastMoment "to" segments = some stop)
    (h : isWindow start stop = false) : LacksWindow segments := by
  refine .inr (.inr ⟨start, stop, hstart, hstop, ?_⟩)
  rw [← Bool.not_eq_true, isWindow_iff, Decidable.not_and_iff_not_or_not] at h
  exact h

theorem not_lacksWindow {segments : List Segment} {start stop : DateTime}
    (hstart : lastMoment "from" segments = some start)
    (hstop : lastMoment "to" segments = some stop)
    (h : isWindow start stop = true) : ¬LacksWindow segments := by
  obtain ⟨haware, hbefore⟩ := (isWindow_iff start stop).1 h
  rintro (hfrom | hto | ⟨s, t, hs, ht, hne | hnot⟩)
  · simp [lastMoment, hfrom] at hstart
  · simp [lastMoment, hto] at hstop
  · simp_all
  · simp_all

/-- The three outcomes of `answer`: a fault, `rejected`, or the entries of a model. -/
theorem answer_cases (segments : List Segment) :
    (∃ s ∈ segments, IsFaulty s ∧ answer segments = .error (.command (fault s))) ∨
    ((∀ s ∈ segments, ¬IsFaulty s) ∧ LacksWindow segments ∧
      answer segments = .error (.command .rejected)) ∨
    ((∀ s ∈ segments, ¬IsFaulty s) ∧ ¬LacksWindow segments ∧
      ∃ start stop, lastMoment "from" segments = some start ∧
        lastMoment "to" segments = some stop ∧ isWindow start stop = true ∧
        answer segments = .ok (.map (answerEntries start stop segments))) := by
  cases hfind : segments.find? (IsFaulty ·) with
  | some s =>
    refine .inl ⟨s, List.mem_of_find?_eq_some hfind, ?_, by rw [answer, hfind]⟩
    simpa using List.find?_some hfind
  | none =>
    have hgood : ∀ s ∈ segments, ¬IsFaulty s := by simpa using List.find?_eq_none.1 hfind
    refine .inr ?_
    cases hstart : lastMoment "from" segments with
    | none =>
      have hlacks : LacksWindow segments :=
        .inl ((lastMoment_eq_none_iff hgood (.inl rfl)).1 hstart)
      exact .inl ⟨hgood, hlacks, by rw [answer, hfind, hstart]⟩
    | some start =>
      cases hstop : lastMoment "to" segments with
      | none =>
        have hlacks : LacksWindow segments :=
          .inr (.inl ((lastMoment_eq_none_iff hgood (.inr rfl)).1 hstop))
        exact .inl ⟨hgood, hlacks, by rw [answer, hfind, hstart, hstop]⟩
      | some stop =>
        cases hwindow : isWindow start stop with
        | false =>
          exact .inl ⟨hgood, lacksWindow_of_not_isWindow hstart hstop hwindow,
            by simp [answer, hfind, hstart, hstop, hwindow]⟩
        | true =>
          exact .inr ⟨hgood, not_lacksWindow hstart hstop hwindow, start, stop, rfl, rfl, hwindow,
            by simp [answer, hfind, hstart, hstop, hwindow]⟩

theorem answer_unreadable_iff (segments : List Segment) :
    (∃ failure, answer segments = .error failure ∧ failure.kind = .parse) ↔
      ∃ s ∈ segments, IsFaulty s := by
  rcases answer_cases segments with
    ⟨s, hs, hfaulty, h⟩ | ⟨hgood, _, h⟩ | ⟨hgood, _, start, stop, _, _, _, h⟩
  · exact ⟨fun _ => ⟨s, hs, hfaulty⟩, fun _ => ⟨_, h, kind_fault s⟩⟩
  · refine ⟨?_, fun ⟨s, hs, hfaulty⟩ => absurd hfaulty (hgood s hs)⟩
    rintro ⟨failure, herror, hkind⟩
    rw [h] at herror
    cases herror
    cases hkind
  · refine ⟨?_, fun ⟨s, hs, hfaulty⟩ => absurd hfaulty (hgood s hs)⟩
    rintro ⟨failure, herror, _⟩
    rw [h] at herror
    cases herror

theorem answer_rejected_iff (segments : List Segment) :
    (∃ failure, answer segments = .error failure ∧ failure.kind = .validation) ↔
      (∀ s ∈ segments, ¬IsFaulty s) ∧ LacksWindow segments := by
  rcases answer_cases segments with
    ⟨s, hs, hfaulty, h⟩ | ⟨hgood, hlacks, h⟩ | ⟨_, hnot, start, stop, _, _, _, h⟩
  · refine ⟨?_, fun ⟨hgood, _⟩ => absurd hfaulty (hgood s hs)⟩
    rintro ⟨failure, herror, hkind⟩
    rw [h] at herror
    cases herror
    rw [Failure.kind, kind_fault] at hkind
    cases hkind
  · exact ⟨fun _ => ⟨hgood, hlacks⟩, fun _ => ⟨_, h, rfl⟩⟩
  · refine ⟨?_, fun ⟨_, hlacks⟩ => absurd hlacks hnot⟩
    rintro ⟨failure, herror, _⟩
    rw [h] at herror
    cases herror

theorem answer_eq_ok_iff (segments : List Segment) (value : Value) :
    answer segments = .ok value ↔ (∀ s ∈ segments, ¬IsFaulty s) ∧
      ∃ start stop, lastMoment "from" segments = some start ∧
        lastMoment "to" segments = some stop ∧ start.isAware = stop.isAware ∧
        start.instant < stop.instant ∧ value = .map (answerEntries start stop segments) := by
  rcases answer_cases segments with
    ⟨s, hs, hfaulty, h⟩ | ⟨_, hlacks, h⟩ | ⟨hgood, _, start, stop, hstart, hstop, hwindow, h⟩
  · exact ⟨fun hok => by simp [h] at hok, fun ⟨hgood, _⟩ => absurd hfaulty (hgood s hs)⟩
  · refine ⟨fun hok => by simp [h] at hok, ?_⟩
    rintro ⟨_, start, stop, hstart, hstop, haware, hbefore, _⟩
    exact absurd hlacks
      (not_lacksWindow hstart hstop ((isWindow_iff start stop).2 ⟨haware, hbefore⟩))
  · obtain ⟨haware, hbefore⟩ := (isWindow_iff start stop).1 hwindow
    rw [h]
    constructor
    · intro hok
      cases hok
      exact ⟨hgood, start, stop, hstart, hstop, haware, hbefore, rfl⟩
    · rintro ⟨_, start', stop', hstart', hstop', _, _, rfl⟩
      cases hstart.symm.trans hstart'
      cases hstop.symm.trans hstop'
      rfl

/-- What `execute` comes to on an addressed line that does not mention `help`. It fails with a parse
error exactly if some segment is `IsFaulty`, namely that of the leftmost one. Otherwise it fails
with `rejected` exactly if the line `LacksWindow`. Otherwise it answers `answerEntries`: the last
start, the last end and the last note, each key at its first place, and `scheduled`. -/
theorem execute_iff {line : String} (haddressed : command.accepts line = true)
    (hhelp : Text.contains line Command.helpWord = false) :
    let outcome := (Command.start (command.execute line)).1
    let parts := segments line
    ((∃ failure, outcome = .error failure ∧ failure.kind = .parse) ↔
      ∃ value ∈ valuesOf "from" parts ++ valuesOf "to" parts,
        value = "" ∨ DateTime.ofIso? value = none) ∧
    (∀ before s after, parts = before ++ s :: after → (∀ t ∈ before, ¬IsFaulty t) → IsFaulty s →
      outcome = .error (.command (fault s))) ∧
    ((∃ failure, outcome = .error failure ∧ failure.kind = .validation) ↔
      (∀ s ∈ parts, ¬IsFaulty s) ∧ LacksWindow parts) ∧
    (∀ value, outcome = .ok value ↔ (∀ s ∈ parts, ¬IsFaulty s) ∧
      ∃ start stop, lastMoment "from" parts = some start ∧ lastMoment "to" parts = some stop ∧
        start.isAware = stop.isAware ∧ start.instant < stop.instant ∧
        value = .map (answerEntries start stop parts)) ∧
    (∀ failure, outcome = .error failure → failure.kind = .parse ∨ failure.kind = .validation) := by
  intro outcome parts
  -- from here on the line matters by its segments alone
  have houtcome : outcome = answer parts := execute_eq_answer haddressed hhelp
  clear_value outcome parts
  subst houtcome
  refine ⟨?_, ?_, answer_rejected_iff parts, answer_eq_ok_iff parts, ?_⟩
  · rw [answer_unreadable_iff, exists_faulty_iff]
  · rintro before s after rfl hbefore hs
    exact answer_of_leftmost hbefore hs
  · intro failure herror
    rcases answer_cases parts with ⟨s, _, _, h⟩ | ⟨_, _, h⟩ | ⟨_, _, start, stop, _, _, _, h⟩
    · cases h.symm.trans herror
      exact .inl (kind_fault s)
    · cases h.symm.trans herror
      exact .inr rfl
    · cases h.symm.trans herror

/-- Here the first `to` is written over, and the start is a second before the end in another offset.
-/
theorem execute_of_repeated_end :
    let line := "schedule to 2023-01-01 note x from 2024-01-02T08:59:59Z to 2024-01-02T10:00+01:00"
    let start : DateTime := ⟨⟨2024, 1, 2, by decide⟩, ⟨8, 59, 59, 0, by decide⟩, some .utc⟩
    let stop : DateTime :=
      ⟨⟨2024, 1, 2, by decide⟩, ⟨10, 0, 0, 0, by decide⟩, some ⟨3600000000, by decide⟩⟩
    command.accepts line = true ∧ Text.contains line Command.helpWord = false ∧
      (Command.start (command.execute line)).1 =
        .ok (.map [("to", .moment stop), ("note", .text "x"), ("from", .moment start),
          ("scheduled", .bool true)]) := by
  intro line start stop
  have haddressed : command.accepts line = true := by decide
  have hhelp : Text.contains line Command.helpWord = false := by decide
  have hsegments : segments line = [⟨"to", ["2023-01-01"]⟩, ⟨"note", ["x"]⟩,
      ⟨"from", ["2024-01-02T08:59:59Z"]⟩, ⟨"to", ["2024-01-02T10:00+01:00"]⟩] := by decide
  have hok := (execute_iff haddressed hhelp).2.2.2.1
  refine ⟨haddressed, hhelp, (hok _).2 ?_⟩
  rw [hsegments]
  exact ⟨by decide, start, stop, by decide, by decide, by decide, by decide, rfl⟩

end Schedule

end ChatCommands

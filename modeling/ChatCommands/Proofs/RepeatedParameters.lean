import ChatCommands.Blueprint
import ChatCommands.Proofs.ParseThenRun
import ChatCommands.Proofs.SegmentRoundTrip
import ChatCommands.Samples

/-!
# Parameters that are given again

A line may give the same parameter more than once. For a command whose parameters store the texts
that they are given, this file says what the model is then: a name stands where it was first given,
and has the value that it was last given (`HoldsLastValues`). The values are stored as the line is
read, so the proof goes through the entries that the segments of the words make, one after another;
what is left of them is the order of the first entries with the values of the last ones.

The main statement is `last_value_wins_in_first_place`; besides what the model holds it says that
nothing is left of a value that is given anew later.
-/

namespace ChatCommands

/-! ## Names and values in a list of words -/

/-- `value` stands behind the last `name` among the words, and goes on up to the next name or to the
end. -/
inductive IsLastValue (isName : String → Bool) (words : List String) (name : String)
    (value : List String) : Prop
  | mk {front behind : List String} (hwords : words = front ++ name :: (value ++ behind))
    (hlast : name ∉ value ++ behind) (hvalue : ∀ word ∈ value, isName word = false)
    (hend : ∀ next ∈ behind.head?, isName next = true)

/-- `model` holds the last value of every name that is given, at the place where the name is given
first. -/
structure HoldsLastValues (isName : String → Bool) (words : List String) (model : Model) : Prop
    where
  mem_keys_iff : ∀ name, name ∈ model.keys ↔ name ∈ words ∧ isName name = true
  ordered : model.keys.Pairwise fun name other => words.idxOf name < words.idxOf other
  get?_eq : ∀ name ∈ model.keys, ∃ value, IsLastValue isName words name value ∧
    model.get? name = some (.text (Text.unwords value))

/-- The words differ in at most one value, and the name of that value is given again later. -/
inductive DifferEarlier (isName : String → Bool) : List String → List String → Prop
  -- the value before and after the change, and the words around
  | mk {front old new behind : List String} {name : String} (hname : isName name = true)
    (hold : ∀ word ∈ old, isName word = false) (hnew : ∀ word ∈ new, isName word = false)
    (hagain : name ∈ behind) :
    DifferEarlier isName (front ++ name :: (old ++ behind)) (front ++ name :: (new ++ behind))

section
variable {isName : String → Bool} {words : List String} {name : String}

theorem exists_last_place (h : name ∈ words) :
    ∃ front rest, words = front ++ name :: rest ∧ name ∉ rest := by
  induction words using List.reverseRecOn with
  | nil => cases h
  | append_singleton words word ih =>
    by_cases hword : word = name
    · exact ⟨words, [], by rw [hword], List.not_mem_nil⟩
    · have hmem : name ∈ words := by simpa [Ne.symm hword] using h
      obtain ⟨front, rest, rfl, hrest⟩ := ih hmem
      refine ⟨front, rest ++ [word], by simp, ?_⟩
      simpa [hrest] using Ne.symm hword

theorem eq_of_last_places {front front' rest rest' : List String}
    (h : front ++ name :: rest = front' ++ name :: rest') (hrest : name ∉ rest)
    (hrest' : name ∉ rest') : rest = rest' := by
  rcases List.append_eq_append_iff.1 h with ⟨gap, -, hgap⟩ | ⟨gap, -, hgap⟩
  · cases gap with
    | nil => exact (List.cons.inj hgap).2
    | cons word gap =>
      obtain ⟨-, rfl⟩ := List.cons.inj hgap
      exact absurd (by simp) hrest
  · cases gap with
    | nil => exact (List.cons.inj hgap).2.symm
    | cons word gap =>
      obtain ⟨-, rfl⟩ := List.cons.inj hgap
      exact absurd (by simp) hrest'

theorem takeWhile_value {value behind : List String} (hvalue : ∀ word ∈ value, isName word = false)
    (hend : ∀ next ∈ behind.head?, isName next = true) :
    (value ++ behind).takeWhile (!isName ·) = value := by
  rw [List.takeWhile_append_of_pos fun word hword => by simp [hvalue word hword]]
  cases behind with
  | nil => simp
  | cons next behind =>
    have hnext := hend next rfl
    simp [hnext]

theorem exists_isLastValue (isName : String → Bool) (h : name ∈ words) :
    ∃ value, IsLastValue isName words name value := by
  obtain ⟨front, rest, hwords, hrest⟩ := exists_last_place h
  have hcut := List.takeWhile_append_dropWhile (p := (!isName ·)) (l := rest)
  rw [← hcut] at hwords hrest
  refine ⟨rest.takeWhile (!isName ·), .mk hwords hrest ?_ ?_⟩
  · intro word hword
    have hall := List.all_eq_true.1 (List.all_takeWhile (l := rest) (p := (!isName ·))) word hword
    simpa using hall
  · intro next hnext
    have hhead := List.head?_dropWhile_not (!isName ·) rest
    rw [Option.mem_def.1 hnext] at hhead
    simpa using hhead

theorem IsLastValue.unique {value other : List String} (h : IsLastValue isName words name value)
    (hother : IsLastValue isName words name other) : value = other := by
  obtain ⟨hwords, hlast, hvalue, hend⟩ := h
  obtain ⟨hwords', hlast', hvalue', hend'⟩ := hother
  have hrest := eq_of_last_places (hwords.symm.trans hwords') hlast hlast'
  rw [← takeWhile_value hvalue hend, hrest, takeWhile_value hvalue' hend']

/-- The names among the words are in the order of their first places. -/
theorem pairwise_eraseDups_filter (isName : String → Bool) (words : List String) :
    (words.filter isName).eraseDups.Pairwise
      fun name other => words.idxOf name < words.idxOf other := by
  induction words using List.reverseRecOn with
  | nil => exact List.Pairwise.nil
  | append_singleton words word ih =>
    have hmem : ∀ name ∈ (words.filter isName).eraseDups, name ∈ words := by
      intro name hname
      exact (List.mem_filter.1 (List.mem_eraseDups.1 hname)).1
    have hplace : ∀ name ∈ words, (words ++ [word]).idxOf name = words.idxOf name :=
      fun name hname => List.idxOf_append_of_mem hname
    -- one more word leaves the earlier places as they are
    have hearlier : (words.filter isName).eraseDups.Pairwise
        fun name other => (words ++ [word]).idxOf name < (words ++ [word]).idxOf other := by
      apply ih.imp_of_mem
      intro name other hname hother hlt
      rwa [hplace name (hmem name hname), hplace other (hmem other hother)]
    cases hword : isName word with
    | false => simpa [List.filter_append, hword] using hearlier
    | true =>
      rw [List.filter_append, List.filter_singleton, hword, cond_true,
        OrderedMap.eraseDups_append_singleton]
      split
      next => exact hearlier
      next hnew =>
        have hnot : word ∉ words := fun hin =>
          hnew (List.mem_eraseDups.2 (List.mem_filter.2 ⟨hin, hword⟩))
        rw [List.pairwise_append]
        refine ⟨hearlier, List.pairwise_singleton _ _, ?_⟩
        intro name hname other hother
        rw [List.mem_singleton.1 hother, hplace name (hmem name hname),
          List.idxOf_append_of_notMem hnot]
        have hlt := List.idxOf_lt_length_of_mem (hmem name hname)
        omega

end

/-! ## The segments of words with repetitions -/

namespace Segment

variable {isName : String → Bool}

/-- The keys of the segments are the names among the words. -/
theorem map_key_ofWords (isName : String → Bool) (words : List String) :
    (ofWords isName words).map key = words.filter isName := by
  induction words with
  | nil => rfl
  | cons word words ih =>
    cases hword : isName word with
    | false => rw [ofWords_cons_word words hword, ih, List.filter_cons_of_neg (by simp [hword])]
    | true =>
      rw [ofWords_cons_key words hword, List.map_cons, ih, List.filter_cons_of_pos hword]

/-- A name ends the segments of the words before it. -/
theorem ofWords_append_name {name : String} (hname : isName name = true)
    (front rest : List String) :
    ofWords isName (front ++ name :: rest) =
      ofWords isName front ++ ofWords isName (name :: rest) := by
  have hsplit : split isName (front ++ name :: rest) =
      ((split isName front).1, ofWords isName front ++ ofWords isName (name :: rest)) := by
    induction front with
    | nil => simp [split, ofWords, hname]
    | cons word front ih =>
      rw [List.cons_append, split, ih]
      cases hword : isName word <;> simp [split, ofWords, hword]
  rw [ofWords, hsplit]

/-- Words behind a name that are no names belong to the segment of the name. -/
theorem ofWords_name_append {name : String} (hname : isName name = true) {value : List String}
    (hvalue : ∀ word ∈ value, isName word = false) (behind : List String) :
    ofWords isName (name :: (value ++ behind)) =
      ⟨name, value ++ (split isName behind).1⟩ :: ofWords isName behind := by
  rw [ofWords_cons_key _ hname, ofWords, split_append hvalue]
  rfl

end Segment

/-! ## What is left of the segments -/

def Segment.entry (s : Segment) : String × Value := (s.key, .text s.value)

/-- The model that the segments of some words make, one after another. -/
def lastValues (isName : String → Bool) (words : List String) : Model :=
  OrderedMap.ofList ((Segment.ofWords isName words).map Segment.entry)

section
variable {isName : String → Bool} {words : List String}

theorem map_fst_entry (isName : String → Bool) (words : List String) :
    ((Segment.ofWords isName words).map Segment.entry).map Prod.fst = words.filter isName := by
  have hkeys : Prod.fst ∘ Segment.entry = Segment.key := rfl
  rw [List.map_map, hkeys, Segment.map_key_ofWords]

theorem keys_lastValues (isName : String → Bool) (words : List String) :
    (lastValues isName words).keys = (words.filter isName).eraseDups := by
  rw [lastValues, OrderedMap.keys_ofList, map_fst_entry]

theorem get?_lastValues {name : String} {value : List String} (hname : isName name = true)
    (h : IsLastValue isName words name value) :
    (lastValues isName words).get? name = some (.text (Text.unwords value)) := by
  obtain ⟨rfl, hlast, hvalue, hend⟩ := h
  rename_i front behind
  have hnothing : (Segment.split isName behind).1 = [] := by
    rw [Segment.split_fst, ← List.nil_append behind]
    exact takeWhile_value (List.forall_mem_nil _) hend
  rw [lastValues, OrderedMap.get?_ofList, Segment.ofWords_append_name hname,
    Segment.ofWords_name_append hname hvalue, hnothing, List.append_nil, List.map_append,
    List.map_cons]
  apply OrderedMap.lastUnder_append_cons
  -- no later segment has the name, which does not occur any more
  rw [map_fst_entry]
  intro hlater
  exact hlast (List.mem_append_right _ (List.mem_filter.1 hlater).1)

/-- `lastValues` has the last value of every name, in the order of the first places. -/
theorem holdsLastValues_lastValues (isName : String → Bool) (words : List String) :
    HoldsLastValues isName words (lastValues isName words) where
  mem_keys_iff name := by
    rw [keys_lastValues, List.mem_eraseDups, List.mem_filter]
  ordered := by
    rw [keys_lastValues]
    exact pairwise_eraseDups_filter isName words
  get?_eq name hname := by
    rw [keys_lastValues, List.mem_eraseDups, List.mem_filter] at hname
    obtain ⟨value, hvalue⟩ := exists_isLastValue isName hname.1
    exact ⟨value, hvalue, get?_lastValues hname.2 hvalue⟩

theorem HoldsLastValues.unique {m n : Model} (hm : HoldsLastValues isName words m)
    (hn : HoldsLastValues isName words n) : m = n := by
  have hmem : ∀ name, name ∈ m.keys ↔ name ∈ n.keys :=
    fun name => (hm.mem_keys_iff name).trans (hn.mem_keys_iff name).symm
  have hperm : m.keys.Perm n.keys := (List.perm_ext_iff_of_nodup m.nodup_keys n.nodup_keys).2 hmem
  have hkeys : m.keys = n.keys := by
    apply hperm.eq_of_pairwise _ hm.ordered hn.ordered
    intro name other _ _ hlt hgt
    omega
  apply OrderedMap.ext_get? hkeys
  intro name hname
  obtain ⟨value, hvalue, hget⟩ := hm.get?_eq name hname
  obtain ⟨other, hother, hget'⟩ := hn.get?_eq name ((hmem name).1 hname)
  rw [hget, hget', hvalue.unique hother]

/-- Nothing is left of a value whose name is given again later. -/
theorem lastValues_eq_of_differEarlier {others : List String}
    (h : DifferEarlier isName words others) :
    lastValues isName words = lastValues isName others := by
  cases h with
  | @mk front old new behind name hname hold hnew hagain =>
    have hlater : name ∈ ((Segment.ofWords isName behind).map Segment.entry).map Prod.fst := by
      rw [map_fst_entry]
      exact List.mem_filter.2 ⟨hagain, hname⟩
    have hentries : ∀ value : List String, (∀ word ∈ value, isName word = false) →
        (Segment.ofWords isName (front ++ name :: (value ++ behind))).map Segment.entry =
          (Segment.ofWords isName front).map Segment.entry ++
            (name, .text (Text.unwords (value ++ (Segment.split isName behind).1))) ::
              (Segment.ofWords isName behind).map Segment.entry := by
      intro value hvalue
      rw [Segment.ofWords_append_name hname, Segment.ofWords_name_append hname hvalue,
        List.map_append, List.map_cons]
      rfl
    rw [lastValues, lastValues, hentries old hold, hentries new hnew]
    apply OrderedMap.ext_get?
    · simp only [OrderedMap.keys_ofList, List.map_append, List.map_cons]
    · intro key _
      rw [OrderedMap.get?_ofList, OrderedMap.get?_ofList]
      exact OrderedMap.lastUnder_replace hlater key _ _

end

namespace Command

/-! ## Commands that store what they are given -/

/-- A parameter that is held under its name, takes the words behind it, and stores them as a text.
-/
structure StoresText (name : String) (p : Parameter) : Prop where
  name_eq : p.name = name
  regular : p.wholeInput = false
  stores : ∀ value model,
    (p.parse value).run.run model = (.ok (), model.insert p.name (.text value))

/-- All parameters of the command are `StoresText`. -/
def StoresTexts (c : Command) : Prop :=
  ∀ name p, c.parameters.get? name = some p → StoresText name p

/-- What comes of a line for a command that `StoresTexts`, with the model that the line fills. -/
structure LastValueWins (c : Command) (line : String) (held model : Model) : Prop where
  -- the model holds the last value of every name, in the order of the first places
  holds : HoldsLastValues c.parameters.contains (Text.words (c.argumentText line)) model
  only : ∀ other, HoldsLastValues c.parameters.contains (Text.words (c.argumentText line)) other →
    other = model
  -- if the check accepts the model, parsing answers with it as the check leaves it, and the
  -- command then holds it
  parsed : ∀ after, c.validate.run.run model = (.ok true, after) →
    (startOn held (c.parse line)).1 = .ok after ∧ (startOn held (c.parse line)).2.model = after
  -- a line that differs in a value that is given anew later is parsed to the same model
  no_trace : ∀ other, c.accepts other = true →
    DifferEarlier c.parameters.contains (Text.words (c.argumentText line))
      (Text.words (c.argumentText other)) →
    (startOn held (c.parse other)).1 = (startOn held (c.parse line)).1 ∧
      (startOn held (c.parse other)).2.model = (startOn held (c.parse line)).2.model

namespace StoresTexts

variable {c : Command} (hc : c.StoresTexts)
include hc

theorem taker?_eq (word : String) : c.taker? word = c.parameters.get? word := by
  unfold taker?
  cases hget : c.parameters.get? word with
  | none => rfl
  | some p =>
    have hregular := (hc word p hget).regular
    simp [hregular]

theorem isKey_eq : c.isKey = c.parameters.contains := by
  funext word
  rw [isKey, hc.taker?_eq, OrderedMap.contains]

theorem wholeCalls_eq (arguments : String) : c.wholeCalls arguments = [] := by
  have hnone : c.parameters.entries.filter (·.2.wholeInput) = [] := by
    apply List.filter_eq_nil_iff.2
    intro entry hentry
    have hget : c.parameters.get? entry.1 = some entry.2 :=
      OrderedMap.lookup_of_mem c.parameters.nodup_keys hentry
    have hregular := (hc _ _ hget).regular
    simp [hregular]
  rw [wholeCalls, hnone, List.map_nil]

/-- A segment is handed to its parameter, which stores `Segment.entry`. -/
theorem carryOut_cons {s : Segment} (hkey : c.isKey s.key = true) (segments : List Segment)
    (model : Model) :
    let entry := s.entry
    let later := carryOut (segments.filterMap c.callOf?) (model.insert entry.1 entry.2)
    let all := carryOut ((s :: segments).filterMap c.callOf?) model
    all.1 = later.1 ∧ all.2.1 = later.2.1 := by
  obtain ⟨p, hp⟩ := Option.isSome_iff_exists.1 hkey
  have hget : c.parameters.get? s.key = some p := by rwa [hc.taker?_eq] at hp
  have hcall : c.callOf? s = some (p, ⟨s.key, p.name, false, s.value⟩) := by rw [callOf?, hp]; rfl
  have hstore := (hc s.key p hget).stores s.value model
  rw [(hc s.key p hget).name_eq] at hstore
  simp only [List.filterMap_cons, hcall, carryOut, hstore]
  exact ⟨rfl, rfl⟩

theorem carryOut_segments {segments : List Segment}
    (hkeys : ∀ s ∈ segments, c.isKey s.key = true) (model : Model) :
    let all := carryOut (segments.filterMap c.callOf?) model
    all.1 = .ok () ∧ all.2.1 = model.insertAll (segments.map Segment.entry) := by
  induction segments generalizing model with
  | nil => exact ⟨rfl, rfl⟩
  | cons s segments ih =>
    have hstep := hc.carryOut_cons (hkeys s (by simp)) segments model
    have hlater := ih (fun t ht => hkeys t (List.mem_cons_of_mem _ ht))
      (model.insert s.entry.1 s.entry.2)
    exact ⟨hstep.1.trans hlater.1, hstep.2.trans hlater.2⟩

/-- No call of a line fails, and the calls leave `lastValues`. -/
theorem carryOut_calls (arguments : String) :
    ∃ made, carryOut (c.calls arguments) ∅ =
      (.ok (), lastValues c.parameters.contains (Text.words arguments), made) := by
  have hcalls : c.calls arguments =
      (Segment.ofWords c.isKey (Text.words arguments)).filterMap c.callOf? := by
    rw [calls, hc.wholeCalls_eq, segmentCalls_eq, List.nil_append]
  have hkeys : ∀ s ∈ Segment.ofWords c.isKey (Text.words arguments), c.isKey s.key = true :=
    fun s hs => Segment.isKey_of_mem hs
  obtain ⟨houtcome, hmodel⟩ := hc.carryOut_segments hkeys ∅
  rw [← hcalls] at houtcome hmodel
  refine ⟨(carryOut (c.calls arguments) ∅).2.2, ?_⟩
  rw [lastValues, OrderedMap.ofList, ← hc.isKey_eq, ← houtcome, ← hmodel]

theorem filled_eq (line : String) :
    let checked := c.validate.run.run
      (lastValues c.parameters.contains (Text.words (c.argumentText line)))
    ∃ events, c.filled line = (verdict checked.1, ⟨checked.2, events⟩) := by
  obtain ⟨made, hcarry⟩ := hc.carryOut_calls (c.argumentText line)
  refine ⟨made.map .delivered ++ [.validated], ?_⟩
  rw [filled, hcarry]

/-- `parse` depends on the last values alone. -/
theorem startOn_parse {line : String} (haccepts : c.accepts line = true) (held : Model) :
    let checked := c.validate.run.run
      (lastValues c.parameters.contains (Text.words (c.argumentText line)))
    (startOn held (c.parse line)).1 = (verdict checked.1).map (fun _ => checked.2) ∧
      (startOn held (c.parse line)).2.model = checked.2 := by
  obtain ⟨events, hfilled⟩ := hc.filled_eq line
  rw [startOn, run_parse_of_accepts haccepts, hfilled]
  exact ⟨rfl, rfl⟩

end StoresTexts

/-! ## Parameters that store texts -/

/-- A parameter that stores the text that it is given. -/
def textParameter (name : String) : Parameter :=
  ⟨ParameterKind.text.label, name, false, ⟨name, ""⟩, ParameterKind.text.convert⟩

theorem StoresTexts.addParameter {c : Command} (hc : c.StoresTexts) (name : String) :
    (c.addParameter (textParameter name)).StoresTexts := by
  intro other p hp
  rw [Command.addParameter, OrderedMap.get?_insert] at hp
  split at hp
  next heq =>
    obtain rfl := Option.some.inj hp
    exact ⟨heq, rfl, fun _ _ => rfl⟩
  next => exact hc other p hp

theorem storesTexts_of_empty {c : Command} (h : c.parameters = ∅) : c.StoresTexts := by
  intro name p hp
  rw [h, OrderedMap.get?_empty] at hp
  cases hp

def notebook : Command :=
  (Samples.emptyModel.addParameter (textParameter "note")).addParameter (textParameter "from")

theorem storesTexts_notebook : notebook.StoresTexts :=
  ((storesTexts_of_empty rfl).addParameter "note").addParameter "from"

/-! ## Lines that give parameters again -/

/-- On a command that `StoresTexts` the last value of every name wins, and the name keeps its first
place. -/
theorem last_value_wins_in_first_place {c : Command} (hc : c.StoresTexts) {line : String}
    (haccepts : c.accepts line = true) (held : Model) :
    ∃ model, LastValueWins c line held model := by
  have hholds := holdsLastValues_lastValues c.parameters.contains
    (Text.words (c.argumentText line))
  obtain ⟨houtcome, hmodel⟩ := hc.startOn_parse haccepts held
  refine ⟨_, hholds, fun other hother => hother.unique hholds, ?_, ?_⟩
  · intro after hvalid
    rw [houtcome, hmodel, hvalid]
    exact ⟨rfl, rfl⟩
  · intro other hother hdiffer
    obtain ⟨houtcome', hmodel'⟩ := hc.startOn_parse hother held
    rw [lastValues_eq_of_differEarlier hdiffer] at houtcome hmodel
    rw [houtcome, hmodel, houtcome', hmodel']
    exact ⟨rfl, rfl⟩

/-- Two parameters are given in turn, one of them again. -/
theorem last_value_wins_of_notebook :
    notebook.StoresTexts ∧ notebook.accepts "empty note a b from x note c" = true ∧
      ∃ model, LastValueWins notebook "empty note a b from x note c" ∅ model :=
  ⟨storesTexts_notebook, by decide,
    last_value_wins_in_first_place storesTexts_notebook (by decide) ∅⟩

example : (startOn ∅ (notebook.parse "empty note a b from x note c")).2.model.entries =
    [("note", .text "c"), ("from", .text "x")] := by
  cbv

end Command

end ChatCommands

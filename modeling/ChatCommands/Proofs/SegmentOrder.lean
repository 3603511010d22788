import ChatCommands.Proofs.Occurrences
import ChatCommands.Proofs.ScheduleLanguage

/-!
# The order of segments

A line of the schedule command may give its segments in any order, as long as it gives each name
only once. The main statement, `alike_of_perm`, is that two lines with the same segments in
different orders come to the same: both are answered, with models that hold the same under every
key, or both cannot be read, or both are rejected.

The answer to a line depends on the order only within the segments of one name (`SameByKey`).
-/

namespace ChatCommands

namespace Schedule

/-! ## Lines that give segments -/

/-- Segments that a line can give in any order: each of the names occurs at most once as a key, and
the words are no names and do not mention `help`. -/
structure Separate (segments : List Segment) : Prop where
  isName_key : ∀ s ∈ segments, isName s.key = true
  nodup_keys : (segments.map Segment.key).Nodup
  not_isName : ∀ s ∈ segments, ∀ word ∈ s.words, isName word = false
  no_help : ∀ s ∈ segments, ∀ word ∈ s.words, Text.contains word Command.helpWord = false

/-- `line` is addressed, and its words are the name and then, for each segment, the key and the
words. Any blanks may stand between them. -/
structure Gives (line : String) (segments : List Segment) : Prop where
  addressed : command.accepts line = true
  words_eq : Text.words line = command.name :: segments.flatMap fun s => s.key :: s.words

/-- Whether two outcomes are alike. -/
inductive Alike : Except Failure Value → Except Failure Value → Prop where
  -- both are models, which hold the same under every key
  | answered {m n : Model} (h : ∀ key, m.get? key = n.get? key) :
      Alike (.ok (.ofModel m)) (.ok (.ofModel n))
  | unreadable {failure other : Failure} (h : failure.kind = .parse) (h' : other.kind = .parse) :
      Alike (.error failure) (.error other)
  | rejected {failure other : Failure} (h : failure.kind = .validation)
      (h' : other.kind = .validation) : Alike (.error failure) (.error other)

theorem gives_unwords {segments : List Segment} (hkeys : ∀ s ∈ segments, Text.IsWord s.key)
    (hwords : ∀ s ∈ segments, ∀ word ∈ s.words, Text.IsWord word) :
    Gives (Text.unwords (command.name :: segments.flatMap fun s => s.key :: s.words)) segments where
  addressed := command.accepts_unwords _
  words_eq := by
    refine Text.words_unwords_of_isWord fun word hword => ?_
    rcases List.mem_cons.1 hword with rfl | hword
    · decide
    · obtain ⟨s, hs, hmem⟩ := List.mem_flatMap.1 hword
      rcases List.mem_cons.1 hmem with rfl | hmem
      · exact hkeys s hs
      · exact hwords s hs word hmem

/-! ### The segments of the lines -/

/-- The segments of a line are those that it gives. -/
theorem Gives.segments_eq {line : String} {given : List Segment} (hline : Gives line given)
    (hnames : ∀ s ∈ given, isName s.key = true)
    (hwords : ∀ s ∈ given, ∀ word ∈ s.words, isName word = false) : segments line = given := by
  have hrest : Text.words (command.argumentText line) = given.flatMap fun s => s.key :: s.words :=
    Command.words_argumentText_of_words (by decide) hline.addressed hline.words_eq
  rw [segments_eq_ofWords, hrest, Segment.ofWords_flatMap hnames hwords]

/-- A line mentions `help` only if a word of its segments does. -/
theorem Gives.no_help {line : String} {given : List Segment} (hline : Gives line given)
    (h : Separate given) : Text.contains line Command.helpWord = false := by
  have hkeys : ∀ key ∈ ["from", "to", "note"], Text.contains key Command.helpWord = false := by
    decide
  rw [Bool.eq_false_iff, ne_eq, Text.contains_iff_exists_word (by decide), hline.words_eq]
  rintro ⟨word, hword, hpart⟩
  suffices Text.contains word Command.helpWord = false by
    rw [this] at hpart
    cases hpart
  rcases List.mem_cons.1 hword with rfl | hword
  · decide
  · obtain ⟨s, hs, hmem⟩ := List.mem_flatMap.1 hword
    rcases List.mem_cons.1 hmem with rfl | hmem
    · exact hkeys s.key (by simpa [isName, or_assoc] using h.isName_key s hs)
    · exact h.no_help s hs word hmem

theorem Separate.perm {segments others : List Segment} (h : Separate segments)
    (hperm : segments.Perm others) : Separate others where
  isName_key s hs := h.isName_key s (hperm.mem_iff.2 hs)
  nodup_keys := (hperm.map _).nodup_iff.1 h.nodup_keys
  not_isName s hs := h.not_isName s (hperm.mem_iff.2 hs)
  no_help s hs := h.no_help s (hperm.mem_iff.2 hs)

/-! ## What the answer depends on -/

/-- Under every key both lists have the same segments, in the same order. -/
def SameByKey (segments others : List Segment) : Prop :=
  ∀ key, segments.filter (·.key == key) = others.filter (·.key == key)

/-- A permutation of segments with distinct keys is `SameByKey`. -/
theorem sameByKey_of_perm {segments others : List Segment}
    (hnodup : (segments.map Segment.key).Nodup) (hperm : segments.Perm others) :
    SameByKey segments others := by
  intro key
  -- no two segments have the key, so their order under it is no matter
  have hone {parts : List Segment} (h : (parts.map Segment.key).Nodup) :
      (parts.filter (·.key == key)).Pairwise fun _ _ => False := by
    have hne : (parts.filter (·.key == key)).Pairwise fun s t => s.key ≠ t.key :=
      (List.pairwise_map.1 h).filter _
    refine hne.imp_of_mem fun {s t} hs ht hdistinct => hdistinct ?_
    have hs' := (List.mem_filter.1 hs).2
    have ht' := (List.mem_filter.1 ht).2
    exact (beq_iff_eq.1 hs').trans (beq_iff_eq.1 ht').symm
  exact List.Perm.eq_of_pairwise (fun _ _ _ _ hfalse _ => hfalse.elim) (hone hnodup)
    (hone ((hperm.map _).nodup_iff.1 hnodup)) (hperm.filter _)

namespace SameByKey

variable {segments others : List Segment} (h : SameByKey segments others)
include h

theorem mem_iff (s : Segment) : s ∈ segments ↔ s ∈ others := by
  have hmem (parts : List Segment) : s ∈ parts ↔ s ∈ parts.filter (·.key == s.key) := by simp
  rw [hmem segments, hmem others, h s.key]

theorem valuesOf_eq (key : String) : valuesOf key segments = valuesOf key others := by
  rw [valuesOf, valuesOf, h key]

theorem lastMoment_eq (key : String) : lastMoment key segments = lastMoment key others := by
  rw [lastMoment, lastMoment, h.valuesOf_eq]

theorem get?_filled_eq (key : String) : (filled segments).get? key = (filled others).get? key := by
  rw [get?_filled, get?_filled, lastWith, lastWith, h key]

theorem lacksWindow_iff : LacksWindow segments ↔ LacksWindow others := by
  simp only [LacksWindow, h.valuesOf_eq, h.lastMoment_eq]

/-- `answer` comes to the same for segments that are `SameByKey`. -/
theorem alike (hnames : ∀ s ∈ segments, isName s.key = true) :
    Alike (answer segments) (answer others) := by
  rcases answer_cases segments with ⟨s, hs, hfaulty, -⟩ | ⟨hgood, hlacks, -⟩ |
    ⟨hgood, hholds, start, stop, hstart, hstop, hwindow, hanswer⟩
  · have hleft := (answer_unreadable_iff segments).2 ⟨s, hs, hfaulty⟩
    have hright := (answer_unreadable_iff others).2 ⟨s, (h.mem_iff s).1 hs, hfaulty⟩
    obtain ⟨failure, hfailure, hkind⟩ := hleft
    obtain ⟨other, hother, hkind'⟩ := hright
    rw [hfailure, hother]
    exact .unreadable hkind hkind'
  · have hleft := (answer_rejected_iff segments).2 ⟨hgood, hlacks⟩
    have hright := (answer_rejected_iff others).2
      ⟨fun s hs => hgood s ((h.mem_iff s).2 hs), h.lacksWindow_iff.1 hlacks⟩
    obtain ⟨failure, hfailure, hkind⟩ := hleft
    obtain ⟨other, hother, hkind'⟩ := hright
    rw [hfailure, hother]
    exact .rejected hkind hkind'
  · obtain ⟨haware, hbefore⟩ := (isWindow_iff start stop).1 hwindow
    have hnames' : ∀ s ∈ others, isName s.key = true := fun s hs => hnames s ((h.mem_iff s).2 hs)
    have hgood' : ∀ s ∈ others, ¬IsFaulty s := fun s hs => hgood s ((h.mem_iff s).2 hs)
    have hstart' := (h.lastMoment_eq "from").symm.trans hstart
    have hstop' := (h.lastMoment_eq "to").symm.trans hstop
    have hanswer' := (answer_eq_ok_iff others _).2
      ⟨hgood', start, stop, hstart', hstop', haware, hbefore, rfl⟩
    rw [hanswer, hanswer', ← entries_insert_scheduled hnames hgood hstart hstop,
      ← entries_insert_scheduled hnames' hgood' hstart' hstop']
    refine .answered fun key => ?_
    rw [OrderedMap.get?_insert, OrderedMap.get?_insert, h.get?_filled_eq]

end SameByKey

/-! ## The order of segments -/

/-- Lines that give a permutation of the same `Separate` segments have outcomes that are `Alike`. -/
theorem alike_of_perm {segments others : List Segment} (h : Separate segments)
    (hperm : segments.Perm others) {line other : String} (hline : Gives line segments)
    (hother : Gives other others) :
    Alike (Command.start (command.execute line)).1 (Command.start (command.execute other)).1 := by
  have h' := h.perm hperm
  rw [execute_eq_answer hline.addressed (hline.no_help h),
    execute_eq_answer hother.addressed (hother.no_help h'),
    hline.segments_eq h.isName_key h.not_isName, hother.segments_eq h'.isName_key h'.not_isName]
  exact (sameByKey_of_perm h.nodup_keys hperm).alike h.isName_key

/-- Here the line in the other order has other blanks, too. -/
theorem alike_of_exchanged_ends :
    let start : Segment := ⟨"from", ["2024-01-02T08:59:59Z"]⟩
    let note : Segment := ⟨"note", ["two", "words"]⟩
    let stop : Segment := ⟨"to", ["2024-01-02T10:00+01:00"]⟩
    let line := Text.unwords
      (command.name :: [start, note, stop].flatMap fun s => s.key :: s.words)
    let other :=
      "schedule\tto 2024-01-02T10:00+01:00  note two\u3000words from 2024-01-02T08:59:59Z\n"
    Separate [start, note, stop] ∧ [start, note, stop].Perm [stop, note, start] ∧
      Gives line [start, note, stop] ∧ Gives other [stop, note, start] ∧
      Alike (Command.start (command.execute line)).1 (Command.start (command.execute other)).1 := by
  intro start note stop line other
  have hseparate : Separate [start, note, stop] :=
    ⟨by decide, by decide, by decide, by decide⟩
  have hperm : [start, note, stop].Perm [stop, note, start] := (List.reverse_perm _).symm
  have hline : Gives line [start, note, stop] := gives_unwords (by decide) (by decide)
  have hother : Gives other [stop, note, start] := ⟨by decide, by decide⟩
  exact ⟨hseparate, hperm, hline, hother, alike_of_perm hseparate hperm hline hother⟩

end Schedule

end ChatCommands

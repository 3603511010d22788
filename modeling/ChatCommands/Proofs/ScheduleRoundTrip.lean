import ChatCommands.Proofs.IsoRoundTrip
import ChatCommands.Proofs.Occurrences
import ChatCommands.Proofs.ScheduleLanguage
import Mathlib.Data.List.Nodup

/-!
# Answers of the schedule command written back

An answer of the schedule command can be written down as a line, each value behind its key. The line
means the same: the command answers it with the same entries in the same order.

The values of an answer are *plain*: they are words with single spaces between them, and neither the
name of a parameter nor the word that asks for help stands in them. For a moment that is because of
the few characters of its written form, for a note because it was read from a segment. So each value
is all there is between its key and the next, and no line of plain values is taken for a request.
-/

namespace ChatCommands

namespace Schedule

/-! ## The canonical line -/

/-- A value as a line gives it: a moment by `iso`, anything else as it is displayed. -/
def writtenValue : Value → String
  | .moment t => t.iso
  | value => value.display

/-- All entries but `scheduled`. -/
def given (entries : List (String × Value)) : List (String × Value) :=
  entries.filter (·.1 ≠ "scheduled")

/-- The line that gives entries in their order, each value behind its key. -/
def canonicalLine (entries : List (String × Value)) : String :=
  Text.unwords (command.name :: (given entries).flatMap
    fun entry => [entry.1, writtenValue entry.2])

/-! ## Plain values -/

/-- A value that a line can give as it is: words with single spaces between them, none of them a
name of a parameter, and without `help`. -/
structure IsPlain (value : String) : Prop where
  -- the words with single spaces between them are the value
  unwords_words : Text.unwords (Text.words value) = value
  no_name : ∀ word ∈ Text.words value, isName word = false
  no_help : Text.contains value Command.helpWord = false

/-- The characters of written moments. -/
def isoCharacters : List Char := "0123456789-:.+T".toList

theorem fixedDigits_subset (width n : Nat) : Chars.fixedDigits 10 width n ⊆ isoCharacters := by
  induction width generalizing n with
  | zero => exact List.nil_subset _
  | succ width ih =>
    have hdigits : ∀ d < 10, Nat.digitChar d ∈ isoCharacters := by decide
    have hlast := hdigits (n % 10) (Nat.mod_lt n (by decide))
    exact List.append_subset.2 ⟨ih _, List.cons_subset.2 ⟨hlast, List.nil_subset _⟩⟩

theorem colonPair_subset (n : Nat) : DateTime.colonPair n ⊆ isoCharacters :=
  List.cons_subset.2 ⟨by decide, fixedDigits_subset 2 n⟩

theorem writeFraction_subset (m : Nat) : DateTime.writeFraction m ⊆ isoCharacters := by
  unfold DateTime.writeFraction
  split
  · exact List.nil_subset _
  · exact List.cons_subset.2 ⟨by decide, fixedDigits_subset 6 m⟩

theorem writeOffset_subset (offset : Offset) : DateTime.writeOffset offset ⊆ isoCharacters := by
  have hsign : (if offset.microseconds < 0 then '-' else '+') ∈ isoCharacters := by
    split <;> decide
  simp only [DateTime.writeOffset, List.append_subset, List.cons_subset]
  refine ⟨⟨⟨hsign, fixedDigits_subset _ _⟩, colonPair_subset _⟩, ?_⟩
  split
  · exact List.nil_subset _
  · exact List.append_subset.2 ⟨colonPair_subset _, writeFraction_subset _⟩

theorem write_subset (separator : Char) (t : DateTime) :
    DateTime.write separator t ⊆ separator :: isoCharacters := by
  have hrest {cs : List Char} (h : cs ⊆ isoCharacters) : cs ⊆ separator :: isoCharacters :=
    List.subset_cons_of_subset _ h
  have hdash : '-' ∈ separator :: isoCharacters := hrest (by decide) (List.mem_singleton_self '-')
  simp only [DateTime.write, DateTime.writeDate, DateTime.writeClock, List.append_subset,
    List.cons_subset, hdash, List.mem_cons_self, hrest (fixedDigits_subset _ _),
    hrest (colonPair_subset _), hrest (writeFraction_subset _), true_and, and_self]
  split
  · exact List.nil_subset _
  · exact hrest (writeOffset_subset _)

theorem mem_isoCharacters {t : DateTime} {c : Char} (h : c ∈ t.iso.toList) : c ∈ isoCharacters := by
  rw [DateTime.iso, String.toList_ofList] at h
  rcases List.mem_cons.1 (write_subset 'T' t h) with rfl | hmem
  · decide
  · exact hmem

theorem isWord_iso (t : DateTime) : Text.IsWord t.iso := by
  refine ⟨?_, fun c hc => ?_⟩
  · rw [DateTime.iso, String.toList_ofList]
    simp [DateTime.write, DateTime.writeDate]
  · have hall : isoCharacters.all (!isBlank ·) = true := by decide
    simpa using List.all_eq_true.1 hall c (mem_isoCharacters hc)

theorem iso_ne_empty (t : DateTime) : t.iso ≠ "" := by
  intro h
  exact (isWord_iso t).1 (by rw [h]; rfl)

/-- A pattern with a character that is not in `isoCharacters` stands in no written moment. -/
theorem not_infix_iso {pattern : String} {c : Char} (hc : c ∈ pattern.toList)
    (hother : c ∉ isoCharacters) (t : DateTime) : ¬pattern.toList <:+: t.iso.toList :=
  fun hpart => hother (mem_isoCharacters (hpart.subset hc))

theorem isPlain_iso (t : DateTime) : IsPlain t.iso := by
  have hwords : Text.words t.iso = [t.iso] := Text.words_of_isWord (isWord_iso t)
  have hname {name : String} {c : Char} (hc : c ∈ name.toList) (hother : c ∉ isoCharacters) :
      (t.iso == name) = false := by
    rw [beq_eq_false_iff_ne]
    rintro heq
    exact not_infix_iso hc hother t (heq ▸ List.infix_refl _)
  refine ⟨by rw [hwords]; simp [Text.unwords], fun word hword => ?_, ?_⟩
  · -- each name has an `o`, and a written moment has none
    rw [hwords, List.mem_singleton] at hword
    subst hword
    rw [isName, hname (c := 'o') (by decide) (by decide), hname (c := 'o') (by decide) (by decide),
      hname (c := 'o') (by decide) (by decide)]
    rfl
  · rw [Bool.eq_false_iff, ne_eq, Text.contains_iff_isInfix]
    exact not_infix_iso (c := 'h') (by decide) (by decide) t

/-- The value of a segment is plain, if the line does not mention `help`. -/
theorem isPlain_value {line : String} (hhelp : Text.contains line Command.helpWord = false)
    {s : Segment} (hs : s ∈ segments line) : IsPlain s.value := by
  have hmem := Segment.not_isKey_of_mem (segments_eq_ofWords line ▸ hs)
  have hisWord : ∀ word ∈ s.words, Text.IsWord word :=
    fun word hword => Text.isWord_of_mem_words (hmem word hword).1
  have hvalue : s.value = Text.unwords s.words := rfl
  have hwords : Text.words s.value = s.words := by
    rw [hvalue, Text.words_unwords_of_isWord hisWord]
  -- what is not in the line is not in the argument text at its end
  have harguments : Text.contains (command.argumentText line) Command.helpWord = false := by
    rw [Bool.eq_false_iff, ne_eq, Text.contains_iff_isInfix] at hhelp ⊢
    rw [Command.argumentText, Text.drop, String.toList_ofList]
    exact fun hpart => hhelp (hpart.trans (List.drop_suffix _ _).isInfix)
  refine ⟨by rw [hwords, hvalue], fun word hword => ?_, ?_⟩
  · rw [hwords] at hword
    exact (hmem word hword).2
  · -- putting single spaces for other blanks does not make up a word
    rw [hvalue]
    exact Text.contains_unwords (by decide) (by decide) fun word hword =>
      Text.contains_word (hmem word hword).1 harguments

/-! ## The segments of the canonical line -/

/-- The segments that `canonicalLine` is read as. -/
def segmentsOf (entries : List (String × Value)) : List Segment :=
  entries.map fun entry => ⟨entry.1, Text.words (writtenValue entry.2)⟩

theorem isWord_of_isName {key : String} (h : isName key = true) : Text.IsWord key := by
  have hall : ∀ key ∈ ["from", "to", "note"],
      key.toList ≠ [] ∧ key.toList.all (!isBlank ·) = true := by decide
  obtain ⟨hne, hblank⟩ := hall key (by simpa [isName, or_assoc] using h)
  refine ⟨hne, fun c hc => ?_⟩
  simpa using List.all_eq_true.1 hblank c hc

section
variable {entries : List (String × Value)} (hnames : ∀ entry ∈ given entries, isName entry.1 = true)
  (hplain : ∀ entry ∈ given entries, IsPlain (writtenValue entry.2))
include hnames hplain

theorem segments_canonicalLine : segments (canonicalLine entries) = segmentsOf (given entries) := by
  -- a key is a single word, so the words of the line are those of the segments written out
  have hwords : ((given entries).flatMap fun entry => [entry.1, writtenValue entry.2]).flatMap
      Text.words = (segmentsOf (given entries)).flatMap fun s => s.key :: s.words := by
    rw [segmentsOf, List.flatMap_assoc, List.flatMap_map]
    refine congrArg List.flatten (List.map_congr_left fun entry hentry => ?_)
    simp [Text.words_of_isWord (isWord_of_isName (hnames entry hentry))]
  rw [segments_eq_ofWords, canonicalLine, Command.words_argumentText_unwords, hwords]
  refine Segment.ofWords_flatMap (fun s hs => ?_) (fun s hs => ?_)
  · obtain ⟨entry, hentry, rfl⟩ := List.mem_map.1 hs
    exact hnames entry hentry
  · obtain ⟨entry, hentry, rfl⟩ := List.mem_map.1 hs
    exact (hplain entry hentry).no_name

theorem not_help_canonicalLine :
    Text.contains (canonicalLine entries) Command.helpWord = false := by
  refine Text.contains_unwords (by decide) (by decide) fun text htext => ?_
  rcases List.mem_cons.1 htext with rfl | htext
  · decide
  · obtain ⟨entry, hentry, hmem⟩ := List.mem_flatMap.1 htext
    have hkeys : ∀ key ∈ ["from", "to", "note"], Text.contains key Command.helpWord = false := by
      decide
    simp only [List.mem_cons, List.not_mem_nil, or_false] at hmem
    rcases hmem with rfl | rfl
    · exact hkeys entry.1 (by simpa [isName, or_assoc] using hnames entry hentry)
    · exact (hplain entry hentry).no_help

end

theorem accepts_canonicalLine (entries : List (String × Value)) :
    command.accepts (canonicalLine entries) = true :=
  Command.accepts_unwords command _

/-! ## The answer to the canonical line -/

theorem nodup_keys (segments : List Segment) : (segments.map Segment.key).eraseDups.Nodup := by
  rw [← keys_filled]
  exact (filled segments).nodup_keys

theorem eraseDups_eq_self {keys : List String} (h : keys.Nodup) : keys.eraseDups = keys := by
  induction keys with
  | nil => rfl
  | cons key keys ih =>
    obtain ⟨hkey, hkeys⟩ := List.nodup_cons.1 h
    have hfilter : (keys.filter fun other => !other == key) = keys := by
      rw [List.filter_eq_self]
      intro other hother
      have hne : other ≠ key := fun heq => hkey (heq ▸ hother)
      simpa using hne
    rw [List.eraseDups_cons, hfilter, ih hkeys]

/-- The keys of the given entries are the keys of the segments, at their first places. -/
theorem given_answerEntries {segments : List Segment} (hnames : ∀ s ∈ segments, isName s.key = true)
    (start stop : DateTime) :
    given (answerEntries start stop segments) =
      (segments.map Segment.key).eraseDups.map
        fun key => (key, storedValue start stop segments key) := by
  rw [given, answerEntries, List.filter_append, List.filter_eq_self.2]
  · simp
  · intro entry hentry
    obtain ⟨key, hkey, rfl⟩ := List.mem_map.1 hentry
    rw [← keys_filled] at hkey
    rw [decide_eq_true_eq]
    rintro rfl
    exact scheduled_not_mem hnames hkey

theorem keys_segmentsOf (keys : List String) (value : String → Value) :
    (segmentsOf (keys.map fun key => (key, value key))).map Segment.key = keys := by
  simp [segmentsOf, Function.comp_def]

/-- In `canonicalLine` each key has one segment. -/
theorem valuesOf_segmentsOf {keys : List String} (h : keys.Nodup) (value : String → Value)
    {key : String} (hkey : key ∈ keys) :
    valuesOf key (segmentsOf (keys.map fun key => (key, value key))) =
      [Text.unwords (Text.words (writtenValue (value key)))] := by
  have hfilter : keys.filter (· == key) = [key] := by
    rw [List.filter_beq, List.count_eq_one_of_mem h hkey, List.replicate_one]
  rw [valuesOf, segmentsOf, List.map_map, List.filter_map, List.map_map]
  simp only [Function.comp_def, hfilter]
  rfl

theorem isPlain_storedValue {line : String} (hhelp : Text.contains line Command.helpWord = false)
    (start stop : DateTime) {key : String} (hkey : key ∈ (segments line).map Segment.key) :
    IsPlain (writtenValue (storedValue start stop (segments line) key)) := by
  unfold storedValue
  split
  · exact isPlain_iso start
  · split
    · exact isPlain_iso stop
    · rename_i hfrom hto
      obtain ⟨s, hs, rfl⟩ := List.mem_map.1 hkey
      have hname := isName_of_mem_segments hs
      have hnote : s.key = "note" := by simpa [isName, hfrom, hto] using hname
      rw [List.getLastD_eq_getLast?, getLast?_valuesOf]
      cases hlast : lastWith "note" (segments line) with
      | none => exact absurd (hnote ▸ List.mem_map_of_mem hs) (lastWith_eq_none hlast)
      | some last =>
        show IsPlain last.value
        exact isPlain_value hhelp (lastWith_eq_some hlast).1

theorem lastMoment_eq_some {key : String} {segments : List Segment} {t : DateTime}
    (h : lastMoment key segments = some t) : key ∈ segments.map Segment.key ∧ t.Readable := by
  rw [lastMoment, getLast?_valuesOf] at h
  cases hlast : lastWith key segments with
  | none => simp [hlast] at h
  | some s =>
    obtain ⟨hs, rfl⟩ := lastWith_eq_some hlast
    rw [hlast] at h
    exact ⟨List.mem_map_of_mem hs, DateTime.readable_of_ofIso? h⟩

section
variable {segments : List Segment} {start stop : DateTime}
  (hnames : ∀ s ∈ segments, isName s.key = true)
  (hplain : ∀ key ∈ segments.map Segment.key,
    IsPlain (writtenValue (storedValue start stop segments key)))
include hnames hplain

/-- Each key has in `canonicalLine` the value that is stored under it. -/
theorem valuesOf_canonical {key : String} (hkey : key ∈ segments.map Segment.key) :
    valuesOf key (segmentsOf (given (answerEntries start stop segments))) =
      [writtenValue (storedValue start stop segments key)] := by
  have hmem : key ∈ (segments.map Segment.key).eraseDups := List.mem_eraseDups.2 hkey
  rw [given_answerEntries hnames, valuesOf_segmentsOf (nodup_keys segments) _ hmem,
    (hplain key hkey).unwords_words]

/-- `canonicalLine` stores what the line stored. -/
theorem answerEntries_canonical :
    answerEntries start stop (segmentsOf (given (answerEntries start stop segments))) =
      answerEntries start stop segments := by
  have hkeys : (segmentsOf (given (answerEntries start stop segments))).map Segment.key =
      (segments.map Segment.key).eraseDups := by
    rw [given_answerEntries hnames, keys_segmentsOf]
  have hstored : ∀ key ∈ (segments.map Segment.key).eraseDups,
      (key, storedValue start stop
        (segmentsOf (given (answerEntries start stop segments))) key) =
      (key, storedValue start stop segments key) := by
    intro key hmem
    have hkey := List.mem_eraseDups.1 hmem
    obtain ⟨s, hs, rfl⟩ := List.mem_map.1 hkey
    have hname := hnames s hs
    by_cases hfrom : s.key = "from"
    · simp [storedValue, hfrom]
    · by_cases hto : s.key = "to"
      · simp [storedValue, hto]
      · have hnote : s.key = "note" := by simpa [isName, hfrom, hto] using hname
        rw [hnote] at hkey ⊢
        have hvalue := valuesOf_canonical hnames hplain hkey
        simp only [storedValue] at hvalue ⊢
        rw [hvalue]
        rfl
  rw [answerEntries, hkeys, eraseDups_eq_self (nodup_keys segments), List.map_congr_left hstored]
  rfl

theorem answer_canonical (hstart : lastMoment "from" segments = some start)
    (hstop : lastMoment "to" segments = some stop) (haware : start.isAware = stop.isAware)
    (hbefore : start.instant < stop.instant) :
    answer (segmentsOf (given (answerEntries start stop segments))) =
      .ok (.map (answerEntries start stop segments)) := by
  obtain ⟨hfrom, hstartReadable⟩ := lastMoment_eq_some hstart
  obtain ⟨hto, hstopReadable⟩ := lastMoment_eq_some hstop
  have hstartRead : DateTime.ofIso? start.iso = some start := DateTime.ofIso?_iso hstartReadable
  have hstopRead : DateTime.ofIso? stop.iso = some stop := DateTime.ofIso?_iso hstopReadable
  have hstarts : valuesOf "from" (segmentsOf (given (answerEntries start stop segments))) =
      [start.iso] := valuesOf_canonical hnames hplain hfrom
  have hstops : valuesOf "to" (segmentsOf (given (answerEntries start stop segments))) =
      [stop.iso] := valuesOf_canonical hnames hplain hto
  have hentries := answerEntries_canonical hnames hplain
  generalize segmentsOf (given (answerEntries start stop segments)) = canonical at *
  -- the only values of ends are the two written moments, and both are read
  have hgood : ∀ s ∈ canonical, ¬IsFaulty s := by
    intro s hs hfaulty
    obtain ⟨value, hvalue, hwrong⟩ := (exists_faulty_iff canonical).1 ⟨s, hs, hfaulty⟩
    rw [hstarts, hstops, List.singleton_append, List.mem_cons, List.mem_singleton] at hvalue
    have hread : value ≠ "" ∧ DateTime.ofIso? value ≠ none := by
      rcases hvalue with hvalue | hvalue
      · rw [hvalue, hstartRead]
        exact ⟨iso_ne_empty start, Option.some_ne_none start⟩
      · rw [hvalue, hstopRead]
        exact ⟨iso_ne_empty stop, Option.some_ne_none stop⟩
    exact hwrong.elim hread.1 hread.2
  refine (answer_eq_ok_iff canonical _).2 ⟨hgood, start, stop, ?_, ?_, haware, hbefore, ?_⟩
  · rw [lastMoment, hstarts, List.getLast?_singleton, Option.bind_some, hstartRead]
  · rw [lastMoment, hstops, List.getLast?_singleton, Option.bind_some, hstopRead]
  · exact congrArg Value.map hentries.symm

end

/-! ## The round trip -/

/-- `execute` answers the canonical line of some `answerEntries` with just these entries. -/
theorem execute_canonicalLine_of_answer {segments : List Segment} {entries : List (String × Value)}
    (hnames : ∀ s ∈ segments, isName s.key = true)
    (hplain : ∀ start stop, ∀ key ∈ segments.map Segment.key,
      IsPlain (writtenValue (storedValue start stop segments key)))
    (h : answer segments = .ok (.map entries)) :
    Text.contains (canonicalLine entries) Command.helpWord = false ∧
      (Command.start (command.execute (canonicalLine entries))).1 = .ok (.map entries) := by
  obtain ⟨-, start, stop, hstart, hstop, haware, hbefore, heq⟩ := (answer_eq_ok_iff _ _).1 h
  obtain rfl : entries = answerEntries start stop segments := Value.map.inj heq
  have hgiven : ∀ entry ∈ given (answerEntries start stop segments),
      isName entry.1 = true ∧ IsPlain (writtenValue entry.2) := by
    intro entry hentry
    rw [given_answerEntries hnames] at hentry
    obtain ⟨key, hmem, rfl⟩ := List.mem_map.1 hentry
    have hkey := List.mem_eraseDups.1 hmem
    obtain ⟨s, hs, rfl⟩ := List.mem_map.1 hkey
    exact ⟨hnames s hs, hplain start stop s.key hkey⟩
  have hhelp := not_help_canonicalLine (fun entry hentry => (hgiven entry hentry).1)
    (fun entry hentry => (hgiven entry hentry).2)
  have hsegments := segments_canonicalLine (fun entry hentry => (hgiven entry hentry).1)
    (fun entry hentry => (hgiven entry hentry).2)
  refine ⟨hhelp, ?_⟩
  rw [execute_eq_answer (accepts_canonicalLine _) hhelp, hsegments,
    answer_canonical hnames (hplain start stop) hstart hstop haware hbefore]

/-- A line that is answered with entries is addressed and does not mention `help`. -/
theorem addressed_of_execute {line : String} {entries : List (String × Value)}
    (h : (Command.start (command.execute line)).1 = .ok (.map entries)) :
    command.accepts line = true ∧ Text.contains line Command.helpWord = false := by
  rw [Command.start, Command.execute, Command.ensureAddressed] at h
  cases haddressed : command.accepts line with
  | false => simp [haddressed] at h
  | true =>
    refine ⟨rfl, ?_⟩
    rw [Bool.eq_false_iff]
    intro hhelp
    -- help is a text or fails, and neither is a map
    simp only [haddressed, hhelp, if_true, run_run_bind, run_run_pure] at h
    generalize (command.renderHelp line).run.run ⟨∅, []⟩ = rendered at h
    rcases rendered with ⟨failure | text, frame⟩
    · simp at h
    · simp at h

/-- `execute` answers the canonical line of an answer with the same entries in the same order,
whatever the first line looked like. -/
theorem execute_canonicalLine {line : String} {entries : List (String × Value)}
    (h : (Command.start (command.execute line)).1 = .ok (.map entries)) :
    Text.contains (canonicalLine entries) Command.helpWord = false ∧
      (Command.start (command.execute (canonicalLine entries))).1 = .ok (.map entries) := by
  obtain ⟨haddressed, hhelp⟩ := addressed_of_execute h
  rw [execute_eq_answer haddressed hhelp] at h
  exact execute_canonicalLine_of_answer (fun s hs => isName_of_mem_segments hs)
    (fun start stop key hkey => isPlain_storedValue hhelp start stop hkey) h

/-- Here the line has a week date, a zone of sixty minutes, a fraction, an offset of half a second
more than half a minute, and a note of two words. -/
theorem execute_canonicalLine_of_spellings :
    let line := "schedule x to 2023W10 note  two\twords from 20240102T0800+0160 " ++
      "to 2024-W01-3x10:00:00,25-00:00:30.5"
    let start : DateTime :=
      ⟨⟨2024, 1, 2, by decide⟩, ⟨8, 0, 0, 0, by decide⟩, some ⟨7200000000, by decide⟩⟩
    let stop : DateTime :=
      ⟨⟨2024, 1, 3, by decide⟩, ⟨10, 0, 0, 250000, by decide⟩, some ⟨-30500000, by decide⟩⟩
    let entries : List (String × Value) :=
      [("to", .moment stop), ("note", .text "two words"), ("from", .moment start),
        ("scheduled", .bool true)]
    (Command.start (command.execute line)).1 = .ok (.map entries) ∧
      canonicalLine entries = "schedule to 2024-01-03T10:00:00.250000-00:00:30.500000 " ++
        "note two words from 2024-01-02T08:00:00+02:00" ∧
      Text.contains (canonicalLine entries) Command.helpWord = false ∧
      (Command.start (command.execute (canonicalLine entries))).1 = .ok (.map entries) := by
  intro line start stop entries
  have haddressed : command.accepts line = true := by decide
  have hhelp : Text.contains line Command.helpWord = false := by decide
  have hsegments : segments line = [⟨"to", ["2023W10"]⟩, ⟨"note", ["two", "words"]⟩,
      ⟨"from", ["20240102T0800+0160"]⟩, ⟨"to", ["2024-W01-3x10:00:00,25-00:00:30.5"]⟩] := by decide
  have h : (Command.start (command.execute line)).1 = .ok (.map entries) := by
    rw [execute_eq_answer haddressed hhelp, hsegments, answer_eq_ok_iff]
    exact ⟨by decide, start, stop, by decide, by decide +kernel, by decide, by decide, rfl⟩
  exact ⟨h, by decide, execute_canonicalLine h⟩

end Schedule

end ChatCommands

import ChatCommands.Proofs.Conversation
import ChatCommands.Proofs.LineStages
import ChatCommands.Proofs.ScheduleRoundTrip

/-!
# The default commands answer every line

With the default settings a line is answered by the schedule command or by the echo command, or
refused. This file goes through what may come of it (`isAnswer_response`): there is no failure but
those that are meant for the user.

The answer is then shown, and this may fail: the cells of a table are read as markup, and the table
of a window has a cell with the note (`bracket_of_isUnreadable`). So a call ends with success or
failure and a conversation ends with the input or with the leave of the user, unless a note has a
bracket that the console cannot read (`default_answers_or_unreadable`, `crash_of_bracket_in_note`).
-/

namespace ChatCommands

/-! ## The echo command -/

namespace Echo

theorem calls_command (arguments : String) :
    command.calls arguments = [(text, ⟨"text", "text", true, arguments⟩)] := by
  have hnone (word : String) : command.taker? word = none := by
    rw [Command.taker?, Option.filter_eq_none_iff]
    intro p hp
    obtain ⟨entry, hentry, rfl⟩ := List.mem_map.1 (Command.mem_values_of_get? hp)
    obtain rfl : entry = ("text", text) := List.mem_singleton.1 hentry
    decide
  have hsegments : command.segmentCalls arguments = [] := by
    refine List.filterMap_eq_nil_iff.2 fun b _ => ?_
    rw [Command.callOf?, hnone, Option.map_none]
  rw [Command.calls, hsegments]
  rfl

/-- `echo` answers the text behind its name and one more character. -/
theorem execute_command {line : String} (haccepts : command.accepts line = true)
    (hhelp : Text.contains line Command.helpWord = false) :
    (Command.start (command.execute line)).1 = .ok (.text (Text.drop line 5)) := by
  rw [Command.start, Command.run_execute_of_plain haccepts hhelp, Command.filled, calls_command]
  rfl

end Echo

/-! ## The schedule command -/

namespace Schedule

variable (start stop : DateTime) {segments : List Segment}

theorem mem_answerEntries {key : String} {moment : DateTime}
    (hlast : lastMoment key segments = some moment) :
    (key, storedValue start stop segments key) ∈ answerEntries start stop segments := by
  have hkey : key ∈ (segments.map Segment.key).eraseDups := by
    rw [List.mem_eraseDups]
    obtain ⟨value, hvalue, -⟩ := Option.bind_eq_some_iff.1 hlast
    obtain ⟨s, hs, hkey, -⟩ := mem_valuesOf.1 (List.mem_of_getLast? hvalue)
    exact List.mem_map.2 ⟨s, hs, hkey⟩
  exact List.mem_append_left _ (List.mem_map.2 ⟨key, hkey, rfl⟩)

theorem storedValue_from : storedValue start stop segments "from" = .moment start := if_pos rfl

theorem storedValue_to : storedValue start stop segments "to" = .moment stop :=
  (if_neg (by decide)).trans (if_pos rfl)

/-- The entries of an answer are the two ends, the mark, and at most a note without `help`. -/
theorem answerEntries_cases {line : String} {entry : String × Value}
    (hentry : entry ∈ answerEntries start stop (Schedule.segments line)) :
    entry = ("from", .moment start) ∨ entry = ("to", .moment stop) ∨
      entry = ("scheduled", .bool true) ∨ ∃ note, entry = ("note", .text note) := by
  rw [answerEntries, List.mem_append] at hentry
  rcases hentry with hentry | hmark
  · obtain ⟨key, hkey, rfl⟩ := List.mem_map.1 hentry
    rw [List.mem_eraseDups] at hkey
    obtain ⟨s, hs, rfl⟩ := List.mem_map.1 hkey
    have hname := isName_of_mem_segments hs
    simp only [isName, Bool.or_eq_true, beq_iff_eq] at hname
    rcases hname with (hfrom | hto) | hnote
    · exact .inl (by rw [hfrom, storedValue_from])
    · exact .inr (.inl (by rw [hto, storedValue_to]))
    · refine .inr (.inr (.inr ⟨(valuesOf "note" (Schedule.segments line)).getLastD "", ?_⟩))
      rw [hnote, storedValue, if_neg (by decide), if_neg (by decide)]
  · exact .inr (.inr (.inl (List.mem_singleton.1 hmark)))

theorem bracket_not_mem_display (t : DateTime) : '[' ∉ (Value.moment t).display.toList := by
  intro hbracket
  rw [Value.display, Value.inner, DateTime.display, String.toList_ofList] at hbracket
  · exact absurd (write_subset ' ' t hbracket) (by decide)
  · exact nofun

end Schedule

/-! ## Answers -/

namespace Router

def defaultCommands : List Command := [Schedule.command, Echo.command]

def defaultProducts : List Product := defaultCommands.map .command

/-- What may come of a line with the default commands. -/
inductive IsAnswer (line : String) : Except Failure Value → Prop
  | generalHelp (c : Command) (hc : c ∈ defaultCommands) (haccepts : c.accepts line = true)
    (hhelp : Text.contains line Command.helpWord = true) :
    IsAnswer line (.ok (.text c.generalHelp))
  | parameterHelp (c : Command) (hc : c ∈ defaultCommands) (haccepts : c.accepts line = true)
    (hhelp : Text.contains line Command.helpWord = true) (p : Parameter)
    (hp : c.parameters.get? (c.topic line) = some p) :
    IsAnswer line (.ok (.text (Command.parameterHelp p)))
  -- a text that is repeated: all behind the name and one more character
  | echoed (haccepts : Echo.command.accepts line = true)
    (hhelp : Text.contains line Command.helpWord = false) :
    IsAnswer line (.ok (.text (Text.drop line 5)))
  -- a window that is scheduled, with its ends and the mark, and at most a note besides
  | scheduled (haccepts : Schedule.command.accepts line = true)
    (hhelp : Text.contains line Command.helpWord = false) (start stop : DateTime)
    (hwindow : Schedule.isWindow start stop = true) (entries : List (String × Value))
    (hstart : ("from", .moment start) ∈ entries) (hstop : ("to", .moment stop) ∈ entries)
    (hmark : ("scheduled", .bool true) ∈ entries)
    (hentries : ∀ entry ∈ entries, entry = ("from", .moment start) ∨ entry = ("to", .moment stop) ∨
      entry = ("scheduled", .bool true) ∨ ∃ note, entry = ("note", .text note)) :
    IsAnswer line (.ok (.map entries))
  -- a line that cannot be read, or whose values do not go together
  | refused (failure : Failure) (hkind : failure.kind = .parse ∨ failure.kind = .validation) :
    IsAnswer line (.error failure)

variable {line : String}

theorem isAnswer_of_help {c : Command} (hc : c ∈ defaultCommands) (haccepts : c.accepts line = true)
    (hhelp : Text.contains line Command.helpWord = true) :
    IsAnswer line (Command.start (c.execute line)).1 := by
  have hrun : (Command.start (c.execute line)).1 =
      (Command.start (c.renderHelp line)).1.map .text := by
    rw [Command.start, Command.execute_of_help haccepts hhelp, run_run_bind_pure, Command.start]
  rw [hrun]
  rcases c.renderHelp_cases line with hgeneral | ⟨p, hp, htopic⟩ | hunknown
  · rw [hgeneral]
    exact .generalHelp c hc haccepts hhelp
  · rw [htopic]
    exact .parameterHelp c hc haccepts hhelp p hp
  · rw [hunknown]
    exact .refused _ (.inl rfl)

theorem isAnswer_of_schedule (haccepts : Schedule.command.accepts line = true)
    (hhelp : Text.contains line Command.helpWord = false) :
    IsAnswer line (Command.start (Schedule.command.execute line)).1 := by
  rw [Schedule.execute_eq_answer haccepts hhelp]
  rcases Schedule.answer_cases (Schedule.segments line) with
    ⟨s, -, -, hanswer⟩ | ⟨-, -, hanswer⟩ | ⟨-, -, start, stop, hstart, hstop, hwindow, hanswer⟩
  · rw [hanswer]
    exact .refused _ (.inl (Schedule.kind_fault s))
  · rw [hanswer]
    exact .refused _ (.inr rfl)
  · have hfrom := Schedule.mem_answerEntries start stop hstart
    have hto := Schedule.mem_answerEntries start stop hstop
    rw [Schedule.storedValue_from] at hfrom
    rw [Schedule.storedValue_to] at hto
    rw [hanswer]
    exact .scheduled haccepts hhelp start stop hwindow _ hfrom hto
      (List.mem_append_right _ (List.mem_singleton_self _))
      fun _ => Schedule.answerEntries_cases start stop

/-- Every line is answered in one of the ways of `IsAnswer`. -/
theorem isAnswer_response (line : String) :
    IsAnswer line (response defaultProducts line).1 := by
  rw [response]
  cases hfind : defaultProducts.find? (·.settles line) with
  | none => exact .refused _ (.inl rfl)
  | some p =>
    obtain ⟨c, hc, rfl⟩ := List.mem_map.1 (List.mem_of_find?_eq_some hfind)
    have hsettles := List.find?_some hfind
    have haccepts : c.accepts line = true := hsettles
    cases hhelp : Text.contains line Command.helpWord with
    | true => exact isAnswer_of_help hc haccepts hhelp
    | false =>
      rcases List.mem_cons.1 hc with rfl | hecho
      · exact isAnswer_of_schedule haccepts hhelp
      · obtain rfl := List.mem_singleton.1 hecho
        simp only [Echo.execute_command haccepts hhelp]
        exact .echoed haccepts hhelp

theorem IsAnswer.isForUser {failure : Failure} (hanswer : IsAnswer line (.error failure)) :
    failure.isForUser = true := by
  cases hanswer with
  | refused _ hkind => rcases hkind with hkind | hkind <;> rw [Failure.isForUser, hkind] <;> rfl

/-! ## After any lines -/

/-- The site after lines have been dispatched. -/
def afterAll (site : Site) (past : List String) : Site :=
  past.foldl (fun site line => ((dispatch line).run.run site).2) site

theorem Offers.afterAll {products : List Product} {site : Site}
    (hoffers : Offers products site.router) (past : List String) :
    Offers products (Router.afterAll site past).router := by
  induction past generalizing site with
  | nil => exact hoffers
  | cons line past ih =>
    obtain ⟨router, hdispatch, -, hrouter⟩ := hoffers.run_dispatch line
    have hnext : Offers products ((dispatch line).run.run site).2.router := by
      rw [hdispatch]
      exact hrouter
    exact ih hnext

end Router

/-! ## Answers that cannot be read -/

namespace Shown

/-- `readTexts` of a table are its columns, its cells and its title. -/
theorem mem_readTexts_table {title : Option String} {columns : List String}
    {rows : List (List String)} {text : String}
    (htext : text ∈ (table title columns rows).readTexts) :
    text ∈ columns ∨ (∃ row ∈ rows, text ∈ row) ∨ title = some text := by
  rw [readTexts, List.mem_append, List.mem_flatMap] at htext
  rcases htext with ⟨⟨column, i⟩, hcolumn, htext⟩ | htitle
  · rcases List.mem_cons.1 htext with rfl | hcell
    · exact .inl (List.fst_mem_of_mem_zipIdx hcolumn)
    · obtain ⟨row, hrow, hcell⟩ := List.mem_filterMap.1 hcell
      exact .inr (.inl ⟨row, hrow, List.mem_of_getElem? hcell⟩)
  · exact .inr (.inr (Option.mem_toList.1 htitle))

end Shown

namespace Shell

open CommandLine
open Router (defaultProducts IsAnswer isAnswer_response response)

/-- The answer to the line is a table that the console cannot read. -/
def IsUnreadable (console : Console) (line : String) : Prop :=
  ∃ entries detail, (response defaultProducts line).1 = .ok (.map entries) ∧
    console.faultOf (.ofValue (.map entries)) = some detail

variable {console : Console} {line : String}

/-- Such an answer is a window with a note, and the note has a bracket. -/
theorem bracket_of_isUnreadable (h : IsUnreadable console line) :
    ∃ entries note, (response defaultProducts line).1 = .ok (.map entries) ∧
      ("note", .text note) ∈ entries ∧ '[' ∈ note.toList := by
  obtain ⟨entries, detail, hresponse, hfault⟩ := h
  have hanswer := isAnswer_response line
  rw [hresponse] at hanswer
  refine ⟨entries, ?_⟩
  by_contra hnone
  push Not at hnone
  have hplain : console.faultOf (.ofValue (.map entries)) = none := by
    refine console.faultOf_of_plain fun text htext hbracket => ?_
    rcases Shown.mem_readTexts_table htext with hcolumn | ⟨row, hrow, hcell⟩ | htitle
    · rcases List.mem_pair.1 hcolumn with rfl | rfl <;> exact absurd hbracket (by decide)
    · obtain ⟨entry, hentry, rfl⟩ := List.mem_map.1 hrow
      cases hanswer with
      | scheduled _ _ start stop _ _ _ _ _ hentries =>
        obtain ⟨key, value⟩ := entry
        have hkey : '[' ∉ key.toList := by
          rcases hentries _ hentry with h | h | h | ⟨note, h⟩ <;> cases h <;> decide
        have hvalue : '[' ∉ value.display.toList := by
          rcases hentries _ hentry with h | h | h | ⟨note, h⟩ <;> cases h
          · exact Schedule.bracket_not_mem_display start
          · exact Schedule.bracket_not_mem_display stop
          · decide
          · exact hnone note hresponse hentry
        rcases List.mem_pair.1 hcell with rfl | rfl
        · exact hkey hbracket
        · exact hvalue hbracket
    · cases htitle
  rw [hplain] at hfault
  cases hfault

/-- `answer` shows exactly one item, and ends with success or failure, unless the line
`IsUnreadable`. -/
theorem exists_report_default (h : ¬IsUnreadable console line) :
    ∃ code item, code ≠ .misuse ∧
      report console (response defaultProducts line).1 = (.ok code, [item]) := by
  have hanswer := isAnswer_response line
  cases hresult : (response defaultProducts line).1 with
  | ok value =>
    cases hfault : console.faultOf (.ofValue value) with
    | none => exact ⟨.success, .ofValue value, by decide, by simp [report, hfault]⟩
    | some detail =>
      -- a text is not read, so the value is a table
      rw [hresult] at hanswer
      cases hanswer with
      | generalHelp => cases hfault
      | parameterHelp => cases hfault
      | echoed => cases hfault
      | scheduled => exact absurd ⟨_, detail, hresult, hfault⟩ h
  | error failure =>
    rw [hresult] at hanswer
    exact ⟨.failure, .ofFailure failure, by decide, if_pos hanswer.isForUser⟩

theorem exists_report_of_isUnreadable (h : IsUnreadable console line) :
    ∃ detail, report console (response defaultProducts line).1 = (.error (.markup detail), []) := by
  obtain ⟨entries, detail, hresponse, hfault⟩ := h
  exact ⟨detail, by rw [hresponse]; simp [report, hfault]⟩

/-- The lines of a conversation that are answered, if none of them fails. -/
def spoken (lines : List String) : List String :=
  ((lines.map Text.trim).takeWhile fun line => !takesLeave line).filter (· ≠ "")

/-- The farewell that ends a conversation in which no line fails. -/
def farewellOf (lines : List String) : Shown :=
  if (lines.map Text.trim).any takesLeave then .farewell else .farewellAtEnd

section
variable {calls : String → Ending} {lines : List String}
  (hcalls : ∀ line ∈ spoken lines, (calls line).2.1 = none)
include hcalls

theorem stops_eq_false {before after : List String} (hlines : lines.map Text.trim = before ++ after)
    (hbefore : ∀ line ∈ before, takesLeave line = false) :
    ∀ line ∈ before, stops calls line = false := by
  intro line hline
  by_cases hblank : line = ""
  · simp [stops, hblank]
  · have hspoken : line ∈ spoken lines := by
      rw [spoken, hlines,
        List.takeWhile_append_of_pos fun line hline => by simp [hbefore line hline]]
      exact List.mem_filter.2 ⟨List.mem_append_left _ hline, by simpa using hblank⟩
    simp [stops, hbefore line hline, hcalls line hspoken]

/-- A conversation in which no line fails answers what is `spoken`, and ends with `farewellOf`. -/
theorem answered_eq_spoken :
    answered calls lines = spoken lines ∧
      lastOf calls lines = (.success, none, [farewellOf lines]) := by
  cases hleave : (lines.map Text.trim).find? takesLeave with
  | none =>
    have hnever : ∀ line ∈ lines.map Text.trim, takesLeave line = false := fun line hline => by
      simpa using List.find?_eq_none.1 hleave line hline
    have hgoes := stops_eq_false hcalls (List.append_nil _).symm hnever
    have hany : (lines.map Text.trim).any takesLeave = false :=
      List.any_eq_false.2 (List.find?_eq_none.1 hleave)
    refine ⟨?_, ?_⟩
    · rw [answered, spoken, List.takeWhile_eq_self_iff.2 fun line hline => by
        simp [hgoes line hline], List.takeWhile_eq_self_iff.2 fun line hline => by
        simp [hnever line hline]]
    · rw [lastOf, stopOf, List.find?_eq_none.2 fun line hline => by simp [hgoes line hline],
        farewellOf, hany]
      rfl
  | some line =>
    -- the first line with which the user takes leave is the one that stops the conversation
    obtain ⟨hline, before, after, hlines, hbefore⟩ := List.find?_eq_some_iff_append.1 hleave
    have hbefore : ∀ line ∈ before, takesLeave line = false := fun line hline => by
      simpa using hbefore line hline
    have hgoes := stops_eq_false hcalls hlines hbefore
    have hstops : stops calls line = true := stops_of_takesLeave hline
    have hany : (lines.map Text.trim).any takesLeave = true :=
      List.any_eq_true.2 ⟨line, List.mem_of_find?_eq_some hleave, hline⟩
    refine ⟨?_, ?_⟩
    · rw [answered, spoken, hlines,
        List.takeWhile_append_of_pos fun line hline => by simp [hgoes line hline],
        List.takeWhile_append_of_pos fun line hline => by simp [hbefore line hline],
        List.takeWhile_cons_of_neg (by simp [hstops]), List.takeWhile_cons_of_neg (by simp [hline])]
    · have hnone : before.find? (stops calls) = none :=
        List.find?_eq_none.2 fun line hline => by simp [hgoes line hline]
      rw [lastOf, stopOf, hlines, List.find?_append, hnone, Option.none_or,
        List.find?_cons_of_pos hstops, farewellOf, hany]
      exact if_pos hline

end

section
variable {calls : String → Ending} {item : String → Shown} {lines : List String}

theorem flatMap_shown (hcalls : ∀ line ∈ lines, ∃ code, calls line = (code, none, [item line])) :
    lines.flatMap (fun line => (calls line).2.2) = lines.map item := by
  rw [List.map_eq_flatMap]
  refine List.flatMap_congr fun line hline => ?_
  obtain ⟨code, hcall⟩ := hcalls line hline
  rw [hcall]

variable {names : List String} (hgreets : console.faultOf (.greeting names) = none)
include hgreets

theorem joined_of_answers
    (hcalls : ∀ line ∈ spoken lines, ∃ code, calls line = (code, none, [item line])) :
    joined calls console names lines =
      (.success, none, .greeting names :: (spoken lines).map item ++ [farewellOf lines]) := by
  have hsucceed : ∀ line ∈ spoken lines, (calls line).2.1 = none := by
    intro line hline
    obtain ⟨code, hcall⟩ := hcalls line hline
    rw [hcall]
  obtain ⟨hanswered, hlast⟩ := answered_eq_spoken hsucceed
  simp only [joined, hgreets, hanswered, hlast, flatMap_shown hcalls]

/-- A conversation in which the call of `line` fails, and none before it. -/
theorem joined_of_failure {before after : List String} {line : String} {failure : Failure}
    (hcalls : ∀ line ∈ spoken before, ∃ code, calls line = (code, none, [item line]))
    (hstay : ∀ line ∈ before.map Text.trim, takesLeave line = false)
    (hleave : takesLeave (Text.trim line) = false) (hblank : Text.trim line ≠ "")
    (hfails : calls (Text.trim line) = (.failure, some failure, [])) :
    joined calls console names (before ++ line :: after) =
      (.failure, some failure, .greeting names :: (spoken before).map item) := by
  have hsucceed : ∀ line ∈ spoken before, (calls line).2.1 = none := by
    intro line hline
    obtain ⟨code, hcall⟩ := hcalls line hline
    rw [hcall]
  have hstops : stops calls (Text.trim line) = true := by simp [stops, hblank, hfails]
  have hgoes := stops_eq_false hsucceed (List.append_nil _).symm hstay
  have hspoken : spoken before = (before.map Text.trim).filter (· ≠ "") := by
    rw [spoken, List.takeWhile_eq_self_iff.2 fun line hline => by simp [hstay line hline]]
  rw [joined, hgreets, lastOf, stopOf_append_of_stops hgoes hstops,
    answered_append_of_stops hgoes hstops, ← hspoken]
  simp only [hleave, Bool.false_eq_true, if_false, hfails, flatMap_shown hcalls, List.append_nil]

end

/-! ## The verdict on a line with the default commands -/

/-- A line whose answer can be read has an item of its own. -/
theorem exists_items (console : Console) : ∃ item : String → Shown,
    ∀ line, ¬IsUnreadable console line →
      ∃ code, verdict console defaultProducts line = (code, none, [item line]) := by
  have hitem (line : String) : ∃ item, ¬IsUnreadable console line →
      ∃ code, verdict console defaultProducts line = (code, none, [item]) := by
    by_cases hread : IsUnreadable console line
    · exact ⟨.farewell, fun h => absurd hread h⟩
    · obtain ⟨code, item, -, hreport⟩ := exists_report_default hread
      exact ⟨item, fun _ => ⟨code, by rw [verdict, hreport, endingOf]⟩⟩
  choose item hitem using hitem
  exact ⟨item, hitem⟩

theorem verdict_of_isUnreadable (h : IsUnreadable console line) :
    ∃ detail, verdict console defaultProducts line = (.failure, some (.markup detail), []) := by
  obtain ⟨detail, hreport⟩ := exists_report_of_isUnreadable h
  exact ⟨detail, by rw [verdict, hreport, endingOf]⟩

theorem ne_blank_of_isUnreadable (h : IsUnreadable console line) : line ≠ "" := by
  rintro rfl
  obtain ⟨_, _, hresponse, -⟩ := h
  cases hresponse

end Shell

namespace CommandLine

open Shell (spoken farewellOf IsUnreadable)
open Router (defaultProducts IsAnswer afterAll dispatch response)

/-- What is known of a router with the default commands on a console. -/
structure AnswersOrUnreadable (console : Console) (h : Host) (site : Site) : Prop where
  -- after any lines `dispatch` comes to one of the answers of `IsAnswer`
  isAnswer_dispatch : ∀ past line, IsAnswer line ((dispatch line).run.run (afterAll site past)).1
  bracket_of_isUnreadable : ∀ line, IsUnreadable console line →
    ∃ entries note, (response defaultProducts line).1 = .ok (.map entries) ∧
      ("note", .text note) ∈ entries ∧ '[' ∈ note.toList
  -- `answer` shows exactly one item and ends with success or failure, if the item can be read
  answer : ∀ past line shown, ¬IsUnreadable console line → ∃ code item later, code ≠ .misuse ∧
    (Shell.answer line).run.run ⟨afterAll site past, console, shown⟩ = (.ok code, later) ∧
      later.shown = shown ++ [item]
  -- if it cannot, `answer` shows nothing and fails
  answer_unreadable : ∀ past line shown, IsUnreadable console line → ∃ detail later,
    (Shell.answer line).run.run ⟨afterAll site past, console, shown⟩ =
      (.error (.markup detail), later) ∧ later.shown = shown
  -- a conversation without such a line shows one item for each line that is not blank, and goes on
  -- to the leave of the user or the end of the input
  converse : ∀ readers location lines, Settings.loadWith readers h.files location = .ok .default →
    (∀ line ∈ spoken lines, ¬IsUnreadable console line) →
      ∃ item : String → Shown,
        (performAt Catalogue.program readers console .converse location lines h).1 =
          (.success, none, .greeting ["schedule", "echo"] :: (spoken lines).map item ++
            [farewellOf lines])
  -- a conversation ends at the first such line, with the failure of `answer`
  converse_unreadable : ∀ readers location before line after,
    Settings.loadWith readers h.files location = .ok .default →
    (∀ line ∈ before.map Text.trim, Shell.takesLeave line = false) →
    (∀ line ∈ spoken before, ¬IsUnreadable console line) →
    Shell.takesLeave (Text.trim line) = false → IsUnreadable console (Text.trim line) →
      ∃ (item : String → Shown) (detail : String),
        (performAt Catalogue.program readers console .converse location
            (before ++ line :: after) h).1 =
          (.failure, some (.markup detail),
            .greeting ["schedule", "echo"] :: (spoken before).map item)

theorem productsAt_default :
    Catalogue.program.productsAt Settings.default.commands = .ok defaultProducts := by rfl

theorem exists_open_default (h : Host) :
    ∃ router opened, (Settings.default.openRouter Catalogue.program).run.run h =
        (.ok router, opened) ∧ router.Offers defaultProducts ∧
      router.registry = some ⟨h.stores.length, Settings.default.registry.keyPrefix⟩ := by
  -- the registry is in memory, so that the commands are taken up
  have hopen : Settings.default.registry.openRegistry.run.run h =
      (.ok ⟨h.stores.length, Settings.default.registry.keyPrefix⟩,
        ({ h with stores := h.stores ++ [.memory Memory.empty] } : Host).noted
          (.opened h.stores.length)) := rfl
  have hmemory : (⟨h.stores.length, Settings.default.registry.keyPrefix⟩ : Registry).InMemory
      (({ h with stores := h.stores ++ [.memory Memory.empty] } : Host).noted
        (.opened h.stores.length)) :=
    ⟨Memory.empty, by simp [Host.content?, Host.noted, Host.contentOf]⟩
  obtain ⟨taken, hrun⟩ := @Settings.exists_run_registerAll_of_inMemory _ _ _
    ⟨Router.empty (some ⟨h.stores.length, Settings.default.registry.keyPrefix⟩), _⟩ _
    rfl hmemory productsAt_default
  have htaken : Settings.TakesUp Catalogue.program .default h (.ok (), taken) :=
    ⟨_, _, hopen, hrun⟩
  have hopening := Settings.default.opening_openRouter Catalogue.program h
  cases hrun : (Settings.default.openRouter Catalogue.program).run.run h with
  | mk result opened =>
    rw [hrun] at hopening
    simp only at hopening
    generalize opened.standing = standing at hopening
    cases hopening with
    | refused _ hbackend _ _ => cases hbackend
    | closed _ _ hfails _ => cases htaken.unique hfails
    | leftOpen _ _ hfails _ => cases htaken.unique hfails
    | built products _ _ hproducts _ =>
      obtain rfl : defaultProducts = products :=
        Except.ok.inj (productsAt_default.symm.trans hproducts)
      exact ⟨_, opened, rfl, Router.offers_map_routeOf _ _, rfl⟩

/-- On every host the default settings open a router on which every line is answered or refused.
Exactly one item is shown of it, unless the line `IsUnreadable`: then the table of a window cannot
be shown. -/
theorem default_answers_or_unreadable (console : Console) (h : Host) :
    ∃ router opened, (Settings.default.openRouter Catalogue.program).run.run h =
        (.ok router, opened) ∧ AnswersOrUnreadable console h ⟨router, opened⟩ := by
  obtain ⟨router, opened, hrun, hoffers, hregistry⟩ := exists_open_default h
  have hanswer (past : List String) (line : String) (shown : List Shown) :=
    @Shell.run_answer _ ⟨afterAll ⟨router, opened⟩ past, console, shown⟩
      (hoffers.afterAll past) line
  have hconverse (readers : Readers) (location : Location) (lines : List String)
      (hload : Settings.loadWith readers h.files location = .ok .default) :
      (performAt Catalogue.program readers console .converse location lines h).1 =
        joined (Shell.verdict console defaultProducts) console ["schedule", "echo"] lines := by
    have hopen : (openRouter Catalogue.program readers location).run.run h =
        (.ok router, opened) := by
      rw [run_openRouter, hload, ← hrun]
    obtain ⟨later, hend, -⟩ :=
      exists_performAt_converse hopen hoffers hoffers.names_eq hregistry lines
    rw [hend]
    rfl
  have hgreets : console.faultOf (.greeting ["schedule", "echo"]) = none :=
    console.faultOf_greeting_of_plain (by decide)
  obtain ⟨item, hitem⟩ := Shell.exists_items console
  refine ⟨router, opened, hrun, fun past line => ?_, fun line => Shell.bracket_of_isUnreadable,
    fun past line shown hread => ?_, fun past line shown hunread => ?_,
    fun readers location lines hload hread => ⟨item, ?_⟩,
    fun readers location before line after hload hstay hread hleave hunread => ?_⟩
  · have hafter : Router.Offers defaultProducts (afterAll ⟨router, opened⟩ past).router :=
      hoffers.afterAll past
    obtain ⟨after, hdispatch, -⟩ := hafter.run_dispatch line
    rw [hdispatch]
    exact Router.isAnswer_response line
  · obtain ⟨later, hrun, hlater⟩ := hanswer past line shown
    obtain ⟨code, item, hcode, hreport⟩ := Shell.exists_report_default hread
    rw [hreport] at hrun hlater
    exact ⟨code, item, later, hcode, hrun, hlater.shown_eq⟩
  · obtain ⟨later, hrun, hlater⟩ := hanswer past line shown
    obtain ⟨detail, hreport⟩ := Shell.exists_report_of_isUnreadable hunread
    rw [hreport] at hrun hlater
    exact ⟨detail, later, hrun, hlater.shown_eq.trans (List.append_nil _)⟩
  · rw [hconverse readers location lines hload]
    exact Shell.joined_of_answers hgreets fun line hline => hitem line (hread line hline)
  · obtain ⟨detail, hfails⟩ := Shell.verdict_of_isUnreadable hunread
    refine ⟨item, detail, ?_⟩
    rw [hconverse readers location _ hload]
    exact Shell.joined_of_failure hgreets (fun line hline => hitem line (hread line hline)) hstay
      hleave (Shell.ne_blank_of_isUnreadable hunread) hfails

def taggedNote : String := "schedule from 2024-01-01 to 2024-01-02 note [/foo]"

/-- The window is scheduled, but its table cannot be shown. Both a call and a conversation with the
default settings end with that. -/
theorem crash_of_bracket_in_note :
    let machine : Machine :=
      ⟨FileTree.empty, .none, .bundled, Console.withoutTag "[/foo]" (by decide)⟩
    let crash := Failure.markup "closing tag '[/foo]' at position 0 doesn't match any open tag"
    let call := run Catalogue.program machine .initial ["exec", taggedNote] ""
    let conversation := run Catalogue.program machine .initial ["repl"]
      (taggedNote ++ "\necho still here\nexit\n")
    (call.failure = some crash ∧ call.shown = []) ∧
      conversation.failure = some crash ∧
        conversation.shown = [.greeting ["schedule", "echo"]] := by
  decide +kernel

end CommandLine

end ChatCommands

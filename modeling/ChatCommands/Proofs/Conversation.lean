import ChatCommands.Proofs.Answering

/-!
# A conversation is a sequence of calls

A conversation answers one line after another with one router, while a call answers a single line
with a router of its own. This file proves that the conversation shows what the calls show, in
order, and ends where a call would end with a failure, if the user does not take leave before
(`converse_joins_calls`).

There is one way to end before the first line: the greeting lists the names of the commands and is
read as markup, so the console may be unable to read it for a bracket in a name. Calls do not greet,
and are not concerned (`greeting_ends_conversation`).
-/

namespace ChatCommands

namespace CommandLine

/-- The ending of a call that answers one line. -/
def call (catalogue : Catalogue) (readers : Readers) (console : Console) (location : Location)
    (h : Host) (line : String) : Ending :=
  (performAt catalogue readers console (.exec line) location [] h).1

/-! ## Joining calls -/

section
variable (calls : String → Ending)

/-- A conversation stops at the line: the user takes leave, or the call fails. -/
def stops (line : String) : Bool :=
  line ≠ "" && (Shell.takesLeave line || (calls line).2.1.isSome)

def stopOf (lines : List String) : Option String := (lines.map Text.trim).find? (stops calls)

/-- The lines that are answered before the conversation stops. -/
def answered (lines : List String) : List String :=
  ((lines.map Text.trim).takeWhile fun line => !stops calls line).filter (· ≠ "")

/-- The lines that are handled: `answered`, and the one whose call fails. -/
def handled (lines : List String) : List String :=
  answered calls lines ++ (stopOf calls lines).toList.filter fun line => !Shell.takesLeave line

/-- How a conversation ends: with the input, with the leave of the user, or as a call does. -/
def lastOf (lines : List String) : Ending :=
  match stopOf calls lines with
  | none => (.success, none, [.farewellAtEnd])
  | some line => if Shell.takesLeave line then (.success, none, [.farewell]) else calls line

/-- The calls for the lines, joined behind the greeting. If the console cannot read the greeting,
that is all. -/
def joined (console : Console) (names lines : List String) : Ending :=
  match console.faultOf (.greeting names) with
  | some detail => (.failure, some (.markup detail), [])
  | none => ((lastOf calls lines).1, (lastOf calls lines).2.1,
    .greeting names :: (answered calls lines).flatMap (fun line => (calls line).2.2) ++
      (lastOf calls lines).2.2)

/-- The lines that are handled behind a greeting; none if the console cannot read it. -/
def heard (console : Console) (names lines : List String) : List String :=
  if console.faultOf (.greeting names) = none then handled calls lines else []

variable {calls} {line : String} {lines : List String}

theorem stops_of_takesLeave (h : Shell.takesLeave line = true) : stops calls line = true := by
  have hne : line ≠ "" := by
    rintro rfl
    revert h
    decide
  simp [stops, hne, h]

theorem stopOf_cons_of_stops (h : stops calls (Text.trim line) = true) :
    stopOf calls (line :: lines) = some (Text.trim line) := by
  rw [stopOf, List.map_cons, List.find?_cons_of_pos h]

theorem stopOf_cons_of_not (h : stops calls (Text.trim line) = false) :
    stopOf calls (line :: lines) = stopOf calls lines := by
  rw [stopOf, List.map_cons, List.find?_cons_of_neg (by simp [h]), stopOf]

theorem answered_cons_of_stops (h : stops calls (Text.trim line) = true) :
    answered calls (line :: lines) = [] := by
  rw [answered, List.map_cons, List.takeWhile_cons_of_neg (by simp [h]), List.filter_nil]

theorem answered_cons_of_blank (h : Text.trim line = "") :
    answered calls (line :: lines) = answered calls lines := by
  simp [answered, h, stops]

theorem answered_cons_of_not (h : stops calls (Text.trim line) = false)
    (hne : Text.trim line ≠ "") :
    answered calls (line :: lines) = Text.trim line :: answered calls lines := by
  simp [answered, h, hne]

theorem lastOf_cons_of_takesLeave (h : Shell.takesLeave (Text.trim line) = true) :
    lastOf calls (line :: lines) = (.success, none, [.farewell]) := by
  rw [lastOf, stopOf_cons_of_stops (stops_of_takesLeave h)]
  exact if_pos h

theorem lastOf_cons_of_fails (hstops : stops calls (Text.trim line) = true)
    (hleave : ¬ Shell.takesLeave (Text.trim line) = true) :
    lastOf calls (line :: lines) = calls (Text.trim line) := by
  rw [lastOf, stopOf_cons_of_stops hstops]
  exact if_neg hleave

theorem lastOf_cons_of_not (h : stops calls (Text.trim line) = false) :
    lastOf calls (line :: lines) = lastOf calls lines := by
  rw [lastOf, stopOf_cons_of_not h, lastOf]

theorem stopOf_append_of_stops {before after : List String}
    (hgoes : ∀ line ∈ before.map Text.trim, stops calls line = false)
    (hstops : stops calls (Text.trim line) = true) :
    stopOf calls (before ++ line :: after) = some (Text.trim line) := by
  have hnone : (before.map Text.trim).find? (stops calls) = none :=
    List.find?_eq_none.2 fun line hline => by simp [hgoes line hline]
  rw [stopOf, List.map_append, List.find?_append, hnone, List.map_cons,
    List.find?_cons_of_pos hstops]
  rfl

theorem answered_append_of_stops {before after : List String}
    (hgoes : ∀ line ∈ before.map Text.trim, stops calls line = false)
    (hstops : stops calls (Text.trim line) = true) :
    answered calls (before ++ line :: after) = (before.map Text.trim).filter (· ≠ "") := by
  rw [answered, List.map_append, List.takeWhile_append_of_pos fun line hline => by
    simp [hgoes line hline], List.map_cons, List.takeWhile_cons_of_neg (by simp [hstops]),
    List.append_nil]

theorem handled_cons_of_takesLeave (h : Shell.takesLeave (Text.trim line) = true) :
    handled calls (line :: lines) = [] := by
  have hstops : stops calls (Text.trim line) = true := stops_of_takesLeave h
  simp [handled, answered_cons_of_stops hstops, stopOf_cons_of_stops hstops, h]

theorem handled_cons_of_fails (hstops : stops calls (Text.trim line) = true)
    (hleave : ¬ Shell.takesLeave (Text.trim line) = true) :
    handled calls (line :: lines) = [Text.trim line] := by
  simp [handled, answered_cons_of_stops hstops, stopOf_cons_of_stops hstops, hleave]

theorem handled_cons_of_blank (h : Text.trim line = "") :
    handled calls (line :: lines) = handled calls lines := by
  rw [handled, answered_cons_of_blank h, stopOf_cons_of_not (by simp [stops, h]), handled]

theorem handled_cons_of_not (h : stops calls (Text.trim line) = false)
    (hne : Text.trim line ≠ "") :
    handled calls (line :: lines) = Text.trim line :: handled calls lines := by
  rw [handled, answered_cons_of_not h hne, stopOf_cons_of_not h, List.cons_append, handled]

end

end CommandLine

namespace Shell

open CommandLine
open Router (Offers response)

/-- The ending of a call that answers a line with `products`. -/
def verdict (console : Console) (products : List Product) (line : String) : Ending :=
  endingOf (report console (response products line).1).1
    (report console (response products line).1).2

def outcomeOf (ending : Ending) : Except Failure Unit :=
  match ending.2.1 with
  | none => .ok ()
  | some failure => .error failure

variable {console : Console} {products : List Product} {shell : Shell}

/-- A call shows one item and ends without a failure, or shows nothing and ends with one. -/
theorem verdict_cases (console : Console) (products : List Product) (line : String) :
    (∃ value, verdict console products line = (.success, none, [.ofValue value])) ∨
      (∃ failure, failure.isForUser = true ∧
        verdict console products line = (.failure, none, [.ofFailure failure])) ∨
      ∃ failure, failure.isForUser = false ∧
        verdict console products line = (.failure, some failure, []) := by
  rw [verdict]
  cases (response products line).1 with
  | ok value =>
    cases hfault : console.faultOf (.ofValue value) with
    | none => exact .inl ⟨value, by simp [report, hfault, endingOf]⟩
    | some detail => exact .inr (.inr ⟨.markup detail, rfl, by simp [report, hfault, endingOf]⟩)
  | error failure =>
    cases huser : failure.isForUser with
    | true => exact .inr (.inl ⟨failure, huser, by simp [report, huser, endingOf]⟩)
    | false => exact .inr (.inr ⟨failure, huser, by simp [report, huser, endingOf]⟩)

theorem endingOf_outcomeOf_lastOf (lines : List String) (shown : List Shown) :
    endingOf ((outcomeOf (lastOf (verdict console products) lines)).map fun _ => .success) shown =
      ((lastOf (verdict console products) lines).1, (lastOf (verdict console products) lines).2.1,
        shown) := by
  rw [lastOf]
  cases hstop : stopOf (verdict console products) lines with
  | none => rfl
  | some line =>
    by_cases hleave : takesLeave line = true
    · simp only [if_pos hleave]
      rfl
    · simp only [if_neg hleave]
      -- a line at which the conversation stops without leave is one whose call fails
      have hstops : stops (verdict console products) line = true := List.find?_some hstop
      rcases verdict_cases console products line with ⟨value, hcase⟩ | ⟨failure, -, hcase⟩ |
        ⟨failure, -, hcase⟩
      · simp [stops, hleave, hcase] at hstops
      · simp [stops, hleave, hcase] at hstops
      · rw [hcase]
        rfl

theorem endingOf_outcomeOf_joined (names lines : List String) :
    endingOf ((outcomeOf (joined (verdict console products) console names lines)).map
        fun _ => .success) (joined (verdict console products) console names lines).2.2 =
      joined (verdict console products) console names lines := by
  rw [joined]
  cases console.faultOf (.greeting names) with
  | some detail => rfl
  | none => exact endingOf_outcomeOf_lastOf lines _

theorem answerAll_cons (line : String) (lines : List String) :
    answerAll (line :: lines) =
      if takesLeave (Text.trim line) then Shelled.emit .farewell
      else if Text.trim line ≠ "" then answer (Text.trim line) >>= fun _ => answerAll lines
      else answerAll lines := by
  rw [answerAll]

theorem exists_run_emit_later (hoffers : shell.site.router.Offers products) {item : Shown}
    (hread : shell.console.faultOf item = none) :
    ∃ later, (Shelled.emit item).run.run shell = (.ok (), later) ∧
      Later products [item] [] shell later :=
  ⟨_, Shelled.run_emit hread, (Later.refl hoffers).shown item⟩

/-- `answerAll` shows what the calls of `answered` show, and ends as `lastOf` says. -/
theorem run_answerAll (hoffers : shell.site.router.Offers products)
    (hconsole : shell.console = console) (lines : List String) :
    ∃ later, (answerAll lines).run.run shell =
        (outcomeOf (lastOf (verdict console products) lines), later) ∧
      Later products
        ((answered (verdict console products) lines).flatMap
            (fun line => (verdict console products line).2.2) ++
          (lastOf (verdict console products) lines).2.2)
        ((handled (verdict console products) lines).flatMap fun line => (response products line).2)
        shell later := by
  induction lines generalizing shell with
  | nil => exact exists_run_emit_later hoffers shell.console.faultOf_farewellAtEnd
  | cons line lines ih =>
    rw [answerAll_cons]
    by_cases hleave : takesLeave (Text.trim line) = true
    · -- the user takes leave
      rw [if_pos hleave, lastOf_cons_of_takesLeave hleave, handled_cons_of_takesLeave hleave,
        answered_cons_of_stops (stops_of_takesLeave hleave)]
      exact exists_run_emit_later hoffers shell.console.faultOf_farewell
    · rw [if_neg hleave]
      by_cases hblank : Text.trim line = ""
      · -- a blank line is passed over
        rw [if_neg (not_not.2 hblank), lastOf_cons_of_not (by simp [stops, hblank]),
          handled_cons_of_blank hblank, answered_cons_of_blank hblank]
        exact ih hoffers hconsole
      · obtain ⟨middle, hanswer, hmiddle⟩ := run_answer hoffers (Text.trim line)
        rw [hconsole] at hanswer hmiddle
        rw [if_pos hblank, run_run_bind, hanswer]
        cases hreport : (report console (response products (Text.trim line)).1).1 with
        | error failure =>
          -- the conversation fails as the call does
          have hverdict : verdict console products (Text.trim line) = (.failure, some failure,
              (report console (response products (Text.trim line)).1).2) := by
            rw [verdict, hreport, endingOf]
          have hstops : stops (verdict console products) (Text.trim line) = true := by
            simp [stops, hblank, hverdict]
          rw [lastOf_cons_of_fails hstops hleave, handled_cons_of_fails hstops hleave,
            answered_cons_of_stops hstops, hverdict, List.flatMap_singleton]
          exact ⟨middle, rfl, hmiddle⟩
        | ok code =>
          -- the call is answered, and the conversation goes on
          have hverdict : verdict console products (Text.trim line) =
              (code, none, (report console (response products (Text.trim line)).1).2) := by
            rw [verdict, hreport, endingOf]
          have hgoes : stops (verdict console products) (Text.trim line) = false := by
            simp [stops, hblank, hverdict, hleave]
          obtain ⟨later, hrest, hlater⟩ :=
            ih hmiddle.offers (hmiddle.console_eq.trans hconsole)
          rw [lastOf_cons_of_not hgoes, handled_cons_of_not hgoes hblank,
            answered_cons_of_not hgoes hblank, List.flatMap_cons, List.append_assoc,
            List.flatMap_cons, hverdict]
          exact ⟨later, hrest, hmiddle.append hlater⟩

/-- `converse` greets the user and goes on with `answerAll`, if the console can read the greeting.
-/
theorem run_converse (hoffers : shell.site.router.Offers products) {names : List String}
    (hnames : shell.site.router.names = .ok names) (lines : List String) :
    ∃ later, (converse lines).run.run shell =
        (outcomeOf (joined (verdict shell.console products) shell.console names lines), later) ∧
      Later products (joined (verdict shell.console products) shell.console names lines).2.2
        ((heard (verdict shell.console products) shell.console names lines).flatMap
          fun line => (response products line).2)
        shell later := by
  simp only [converse, run_run_bind, run_run_get, hnames, joined, heard]
  cases hfault : shell.console.faultOf (.greeting names) with
  | some detail =>
    simp only [Shelled.run_emit_of_fault hfault]
    exact ⟨shell, rfl, Later.refl hoffers⟩
  | none =>
    obtain ⟨greeted, hgreet, hgreeted⟩ := exists_run_emit_later hoffers hfault
    obtain ⟨later, hrun, hlater⟩ := run_answerAll hgreeted.offers hgreeted.console_eq lines
    rw [hgreet]
    exact ⟨later, hrun, hgreeted.append hlater⟩

end Shell

namespace CommandLine

open Shell (verdict verdict_cases outcomeOf endingOf_outcomeOf_joined)
open Router (Offers response)

variable {catalogue : Catalogue} {readers : Readers} {console : Console} {location : Location}
  {h opened : Host} {router : Router}

/-- A router that `openRouter` yields offers what the settings name; all of it has names, and its
registry is over a store of its own. -/
theorem exists_offers_of_open
    (hopen : (openRouter catalogue readers location).run.run h = (.ok router, opened)) :
    ∃ s products names, Settings.loadWith readers h.files location = .ok s ∧
      catalogue.productsAt s.commands = .ok products ∧ Offers products router ∧
      router.names = .ok names ∧
      router.registry = some ⟨h.stores.length, s.registry.keyPrefix⟩ ∧
      opened.standing = h.standing.opened s.registry.backend.connection? := by
  rw [run_openRouter] at hopen
  cases hload : Settings.loadWith readers h.files location with
  | error failure =>
    rw [hload] at hopen
    cases hopen
  | ok s =>
    rw [hload] at hopen
    have hopening := s.opening_openRouter catalogue h
    rw [show (s.openRouter catalogue).run.run h = (.ok router, opened) from hopen] at hopening
    simp only at hopening
    generalize hstanding : opened.standing = standing at hopening
    cases hopening with
    | built products later htaken hproducts hnames =>
      have hoffers := Router.offers_map_routeOf
        (some ⟨h.stores.length, s.registry.keyPrefix⟩) products
      obtain ⟨names, hnames⟩ := Router.exists_names_of_forall hnames
      exact ⟨s, products, names, rfl, hproducts, hoffers, hoffers.names_eq.trans hnames, rfl, rfl⟩

/-- `exec` ends as `verdict` says, and closes the registry behind the line. -/
theorem exists_performAt_exec
    (hopen : (openRouter catalogue readers location).run.run h = (.ok router, opened))
    {products : List Product} (hoffers : Offers products router) {r : Registry}
    (hregistry : router.registry = some r) (line : String) (lines : List String) :
    ∃ later, performAt catalogue readers console (.exec line) location lines h =
        (verdict console products line, later) ∧
      later.events = opened.events ++ (response products line).2 ++ [.closed r.store] := by
  obtain ⟨after, hanswer, hafter⟩ :=
    @Shell.run_answer _ ⟨⟨router, opened⟩, console, []⟩ hoffers line
  obtain ⟨later, hclosing, hevents, -⟩ :=
    Shell.exists_run_closing hanswer (hafter.registry_eq.trans hregistry)
  refine ⟨later, ?_, ?_⟩
  · rw [performAt_of_ok hopen, perform, hclosing, hafter.shown_eq]
    rfl
  · rw [hevents, hafter.host_eq]

/-- `repl` ends as `joined` says, and closes the registry behind the lines. -/
theorem exists_performAt_converse
    (hopen : (openRouter catalogue readers location).run.run h = (.ok router, opened))
    {products : List Product} (hoffers : Offers products router) {names : List String}
    (hnames : router.names = .ok names) {r : Registry} (hregistry : router.registry = some r)
    (lines : List String) :
    ∃ later, performAt catalogue readers console .converse location lines h =
        (joined (verdict console products) console names lines, later) ∧
      later.events = opened.events ++ (heard (verdict console products) console names lines).flatMap
          (fun line => (response products line).2) ++ [.closed r.store] := by
  obtain ⟨after, hconverse, hafter⟩ :=
    @Shell.run_converse _ ⟨⟨router, opened⟩, console, []⟩ hoffers _ hnames lines
  obtain ⟨later, hclosing, hevents, -⟩ :=
    Shell.exists_run_closing hconverse (hafter.registry_eq.trans hregistry)
  refine ⟨later, ?_, ?_⟩
  · have hperform : (perform .converse lines).run.run ⟨⟨router, opened⟩, console, []⟩ =
        ((outcomeOf (joined (verdict console products) console names lines)).map fun _ => .success,
          { after with site := ⟨after.site.router, later⟩ }) := by
      rw [perform, run_run_bind_pure, hclosing]
    rw [performAt_of_ok hopen, hperform, hafter.shown_eq, List.nil_append,
      endingOf_outcomeOf_joined]
  · rw [hevents, hafter.host_eq]

/-- What a conversation has to do with calls, on a host on which a router with commands `names`
opens. -/
structure JoinsCalls (catalogue : Catalogue) (readers : Readers) (console : Console)
    (location : Location) (h opened : Host) (names : List String) : Prop where
  -- the ending of a conversation is that of its calls, joined
  converse_eq : ∀ lines, (performAt catalogue readers console .converse location lines h).1 =
    joined (call catalogue readers console location h) console names lines
  greets : (∀ name ∈ names, '[' ∉ name.toList) → console.faultOf (.greeting names) = none
  -- a call shows an answer or a failure meant for the user; or it fails and shows nothing
  call_cases : ∀ line,
    (∃ value, call catalogue readers console location h line = (.success, none, [.ofValue value])) ∨
      (∃ failure, failure.isForUser = true ∧
        call catalogue readers console location h line = (.failure, none, [.ofFailure failure])) ∨
      ∃ failure, failure.isForUser = false ∧
        call catalogue readers console location h line = (.failure, some failure, [])
  -- calls come to the same on every host with the same settings on which a router opens
  call_eq : ∀ g router' opened',
    Settings.loadWith readers g.files location = Settings.loadWith readers h.files location →
    (openRouter catalogue readers location).run.run g = (.ok router', opened') →
      call catalogue readers console location g = call catalogue readers console location h
  standing_eq : ∃ connection, opened.standing = h.standing.opened connection
  -- the store is closed once, behind the events of the lines that are handled; these are the same
  -- for a conversation as for its calls
  events_eq : ∃ noted : String → List Event,
    (∀ line, ∀ event ∈ noted line, event.isOfStore = false) ∧
      (∀ line lines, (performAt catalogue readers console (.exec line) location lines h).2.events =
        opened.events ++ noted line ++ [.closed h.stores.length]) ∧
      ∀ lines, (performAt catalogue readers console .converse location lines h).2.events =
        opened.events ++
          (heard (call catalogue readers console location h) console names lines).flatMap noted ++
          [.closed h.stores.length]

theorem call_eq_verdict
    (hopen : (openRouter catalogue readers location).run.run h = (.ok router, opened))
    {products : List Product} (hoffers : Offers products router) {r : Registry}
    (hregistry : router.registry = some r) :
    call catalogue readers console location h = verdict console products := by
  funext line
  obtain ⟨later, hrun, -⟩ := exists_performAt_exec hopen hoffers hregistry line []
  rw [call, hrun]

/-- If the console can read the greeting, a conversation is the join of its calls, with the same
stop. -/
theorem converse_joins_calls (console : Console)
    (hopen : (openRouter catalogue readers location).run.run h = (.ok router, opened)) :
    ∃ names, router.names = .ok names ∧
      JoinsCalls catalogue readers console location h opened names := by
  obtain ⟨s, products, names, hload, hproducts, hoffers, hnames, hregistry, hstanding⟩ :=
    exists_offers_of_open hopen
  have hcall : call catalogue readers console location h = verdict console products :=
    call_eq_verdict hopen hoffers hregistry
  refine ⟨names, hnames, fun lines => ?_, console.faultOf_greeting_of_plain, fun line => ?_,
    fun g router' opened' hsame hopen' => ?_, ⟨_, hstanding⟩,
    fun line => (response products line).2, fun line event => ?_, fun line lines => ?_,
    fun lines => ?_⟩
  · obtain ⟨later, hrun, -⟩ := exists_performAt_converse hopen hoffers hnames hregistry lines
    rw [hrun, hcall]
  · rw [hcall]
    exact verdict_cases console products line
  · obtain ⟨s', products', names', hload', hproducts', hoffers', -, hregistry', -⟩ :=
      exists_offers_of_open hopen'
    obtain rfl : s = s' := Except.ok.inj (hload.symm.trans (hsame.symm.trans hload'))
    obtain rfl : products = products' := Except.ok.inj (hproducts.symm.trans hproducts')
    rw [hcall, call_eq_verdict hopen' hoffers' hregistry']
  · exact Router.not_isOfStore_of_mem_response
  · obtain ⟨later, hrun, hevents⟩ := exists_performAt_exec hopen hoffers hregistry line lines
    rw [hrun, hevents]
  · obtain ⟨later, hrun, hevents⟩ :=
      exists_performAt_converse hopen hoffers hnames hregistry lines
    rw [hrun, hevents, hcall]

/-- Here the lines are blank, answered, refused, and a leave. -/
theorem converse_joins_calls_of_default :
    ∃ router opened, (openRouter Catalogue.program .bundled (Location.ofText defaultConfig)).run.run
        (.start FileTree.empty .none) = (.ok router, opened) ∧
      (∃ names, router.names = .ok names ∧ JoinsCalls Catalogue.program .bundled .lenient
        (Location.ofText defaultConfig) (.start FileTree.empty .none) opened names) ∧
      (performAt Catalogue.program .bundled .lenient .converse (Location.ofText defaultConfig)
          ["  ", "echo  a b ", "frob", "EXIT ", "echo later"] (.start FileTree.empty .none)).1 =
        (.success, none, [.greeting ["schedule", "echo"], .text " a b" none,
          .ofFailure (.command (.unroutable "frob")), .farewell]) := by
  have hopens : ((openRouter Catalogue.program .bundled (Location.ofText defaultConfig)).run.run
      (.start FileTree.empty .none)).1.isOk = true := by decide +kernel
  cases hopen : (openRouter Catalogue.program .bundled (Location.ofText defaultConfig)).run.run
      (.start FileTree.empty .none) with
  | mk result opened =>
    rw [hopen] at hopens
    cases result with
    | error failure => cases hopens
    | ok router =>
      exact ⟨router, opened, rfl, converse_joins_calls .lenient hopen, by decide +kernel⟩

/-- A module with a command named `[/x]`, which is a closing tag. -/
def taggedModule : ImportModule :=
  Catalogue.moduleOf "tagged"
    [Catalogue.commandClass "tagged" "TaggedCommand"
      (.ok (.command { Samples.emptyModel with name := "[/x]" }))]

/-- Settings with `echo`, and behind it the command named `[/x]`. -/
def taggedSettings : String :=
  "commands:\n  - allen.commands.handlers.echo:EchoCommand\n  - tagged:TaggedCommand\n"

/-- A call on `echo hi` is answered, but a conversation ends before this line, at the greeting. -/
theorem greeting_ends_conversation :
    let console := Console.withoutTag "[/x]" (by decide)
    let catalogue := Catalogue.program ++ [taggedModule]
    let machine : Machine := ⟨FileTree.empty.put ["c.yaml"]
      (.file (Iso8601.utf8 taggedSettings.toList)), .none, .bundled, console⟩
    let call := run catalogue machine .initial ["exec", "echo hi", "--config-file", "c.yaml"] ""
    let conversation :=
      run catalogue machine .initial ["repl", "--config-file", "c.yaml"] "echo hi\n"
    (call.failure = none ∧ call.shown = [.text "hi" none]) ∧
      conversation.failure =
        some (.markup "closing tag '[/x]' at position 28 doesn't match any open tag") ∧
      conversation.shown = [] := by
  decide +kernel

end CommandLine

end ChatCommands

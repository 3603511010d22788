import ChatCommands.CommandLine.Run
import ChatCommands.Proofs.OpeningRouters

/-!
# Running shells

How the work of a shell runs, step by step, and how a task runs once its router is open: whatever
comes of the work, the registry is closed behind it (`exists_run_closing`).
-/

namespace ChatCommands

/-! ## Reading texts -/

namespace Console

/-- An item is shown if no text of it that is read has a bracket. -/
theorem faultOf_of_plain (console : Console) {item : Shown}
    (hplain : ∀ text ∈ item.readTexts, '[' ∉ text.toList) : console.faultOf item = none :=
  List.findSome?_eq_none_iff.2 fun text htext => console.fault?_of_plain text (hplain text htext)

theorem faultOf_farewell (console : Console) : console.faultOf .farewell = none :=
  console.faultOf_of_plain (by decide)

theorem faultOf_farewellAtEnd (console : Console) : console.faultOf .farewellAtEnd = none :=
  console.faultOf_of_plain (by decide)

theorem mem_intercalate {c : Char} {separator : List Char} {texts : List (List Char)}
    (h : c ∈ separator.intercalate texts) : c ∈ separator ∨ ∃ text ∈ texts, c ∈ text := by
  induction texts with
  | nil => cases h
  | cons text texts ih =>
    cases texts with
    | nil => exact .inr ⟨text, List.mem_cons_self, by simpa using h⟩
    | cons other texts =>
      rw [List.intercalate_cons_cons, List.append_assoc, List.mem_append, List.mem_append] at h
      rcases h with htext | hseparator | hrest
      · exact .inr ⟨text, List.mem_cons_self, htext⟩
      · exact .inl hseparator
      · exact (ih hrest).imp_right fun ⟨found, hfound, hc⟩ =>
          ⟨found, List.mem_cons_of_mem _ hfound, hc⟩

/-- The greeting is shown if no name has a bracket. -/
theorem faultOf_greeting_of_plain (console : Console) {names : List String}
    (hplain : ∀ name ∈ names, '[' ∉ name.toList) : console.faultOf (.greeting names) = none := by
  refine console.faultOf_of_plain fun text htext hbracket => ?_
  obtain rfl := List.mem_singleton.1 htext
  rw [String.toList_append, String.toList_append, List.mem_append, List.mem_append] at hbracket
  rcases hbracket with (hstart | hnames) | hstop
  · exact absurd hstart (by decide)
  · rw [Text.join, String.toList_intercalate] at hnames
    rcases mem_intercalate hnames with hcomma | ⟨_, hname, hbracket⟩
    · exact absurd hcomma (by decide)
    · obtain ⟨name, hmem, rfl⟩ := List.mem_map.1 hname
      exact hplain name hmem hbracket
  · exact absurd hstop (by decide)

/-- The first place at which `pattern` stands. -/
def placeOf (pattern : List Char) : List Char → Option Nat
  | [] => none
  | c :: cs => if pattern.isPrefixOf (c :: cs) then some 0 else (placeOf pattern cs).map (· + 1)

theorem placeOf_eq_none {pattern : List Char} {c : Char} (hpattern : c ∈ pattern)
    {text : List Char} (htext : c ∉ text) : placeOf pattern text = none := by
  induction text with
  | nil => rfl
  | cons d text ih =>
    have hnot : ¬pattern.isPrefixOf (d :: text) = true := fun hprefix =>
      htext ((List.isPrefixOf_iff_prefix.1 hprefix).subset hpattern)
    rw [placeOf, if_neg hnot, ih fun hc => htext (List.mem_cons_of_mem _ hc)]
    rfl

/-- The console that cannot read texts with `tag`, a closing tag without an opening one. -/
def withoutTag (tag : String) (htag : '[' ∈ tag.toList) : Console where
  fault? text := (placeOf tag.toList text.toList).map fun place =>
    "closing tag '" ++ tag ++ "' at position " ++ toString place ++ " doesn't match any open tag"
  fault?_of_plain text hplain := by rw [placeOf_eq_none htag hplain, Option.map_none]

end Console

/-! ## Steps of a shell -/

namespace Shelled

theorem run_emit {item : Shown} {shell : Shell} (hread : shell.console.faultOf item = none) :
    (emit item).run.run shell = (.ok (), { shell with shown := shell.shown ++ [item] }) := by
  simp only [emit, run_run_bind, run_run_get, hread]
  rfl

theorem run_emit_of_fault {item : Shown} {shell : Shell} {detail : String}
    (hfault : shell.console.faultOf item = some detail) :
    (emit item).run.run shell = (.error (.markup detail), shell) := by
  simp only [emit, run_run_bind, run_run_get, hfault]
  rfl

theorem run_attempt {α : Type} (work : Routed α) (shell : Shell) :
    (attempt work).run.run shell =
      (.ok (work.run.run shell.site).1, { shell with site := (work.run.run shell.site).2 }) := rfl

end Shelled

namespace Shell

theorem run_closing {α : Type} (work : Shelled α) (shell : Shell) :
    (closing work).run.run shell =
      ((work.run.run shell).1, { (work.run.run shell).2 with
        site := (Router.close.run.run (work.run.run shell).2.site).2 }) := rfl

/-- `closing` closes the store of the registry behind `work`, however that ends. -/
theorem exists_run_closing {α : Type} {work : Shelled α} {shell after : Shell}
    {result : Except Failure α} (hrun : work.run.run shell = (result, after)) {r : Registry}
    (hregistry : after.site.router.registry = some r) :
    ∃ later, (closing work).run.run shell =
        (result, { after with site := ⟨after.site.router, later⟩ }) ∧
      later.events = after.site.host.events ++ [.closed r.store] ∧
      later.standing = after.site.host.standing.closed r.store := by
  obtain ⟨later, hclose, hevents, hstanding⟩ :=
    Hosted.exists_run_close r.store after.site.host
  have hrouter : Router.close.run.run after.site = (.ok (), ⟨after.site.router, later⟩) := by
    simp only [Router.close, run_run_bind, run_run_get, hregistry, Router.run_onHost,
      Registry.close, hclose]
  exact ⟨later, by rw [run_closing, hrun, hrouter], hevents, hstanding⟩

end Shell

namespace CommandLine

theorem run_openRouter (catalogue : Catalogue) (readers : Readers) (location : Location)
    (h : Host) :
    (openRouter catalogue readers location).run.run h =
      match Settings.loadWith readers h.files location with
      | .error failure => (.error failure, h)
      | .ok s => (s.openRouter catalogue).run.run h := by
  simp only [openRouter, run_run_bind, run_run_get]
  cases Settings.loadWith readers h.files location <;> rfl

theorem performAt_of_error {catalogue : Catalogue} {readers : Readers} {location : Location}
    {h later : Host} {failure : Failure}
    (hopen : (openRouter catalogue readers location).run.run h = (.error failure, later))
    (console : Console) (task : Task) (lines : List String) :
    performAt catalogue readers console task location lines h = (endWith failure [], later) := by
  rw [performAt, hopen]

/-- How a run ends: its code, the failure that has ended it, and what has been shown. -/
abbrev Ending := ExitCode × Option Failure × List Shown

def endingOf (result : Except Failure ExitCode) (shown : List Shown) : Ending :=
  match result with
  | .ok code => (code, none, shown)
  | .error failure => (.failure, some failure, shown)

theorem performAt_of_ok {catalogue : Catalogue} {readers : Readers} {location : Location}
    {h later : Host} {router : Router}
    (hopen : (openRouter catalogue readers location).run.run h = (.ok router, later))
    (console : Console) (task : Task) (lines : List String) :
    performAt catalogue readers console task location lines h =
      (endingOf ((perform task lines).run.run ⟨⟨router, later⟩, console, []⟩).1
          ((perform task lines).run.run ⟨⟨router, later⟩, console, []⟩).2.shown,
        ((perform task lines).run.run ⟨⟨router, later⟩, console, []⟩).2.site.host) := by
  simp only [performAt, hopen]
  rcases (perform task lines).run.run ⟨⟨router, later⟩, console, []⟩ with
    ⟨failure | code, shell⟩ <;> rfl

end CommandLine

end ChatCommands

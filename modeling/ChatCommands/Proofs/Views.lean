import ChatCommands.Proofs.StoreContent

/-!
# Views of a store

The view of a host at a start of keys is what a store holds under the keys with that start, and what
it denies. Work *sees only* a view when it answers from the view and changes the view in a way that
depends on the view alone; it *spares* a view when it leaves it as it is. Both pass from the steps
of a store to all work made of them.
-/

namespace ChatCommands

/-- What can be seen of a store through a start of keys. -/
structure View where
  -- what the store holds under the keys that begin with the text, if it is open
  part : Option Content
  denied? : Statement → Option StoreFailure

/-- The part of `content?` under `start`, and `denied?`. -/
def Host.view (start : String) (id : StoreId) (h : Host) : View :=
  ⟨(h.content? id).map (Content.part start), h.denied? id⟩

namespace Hosted

variable {α β : Type}

/-- The answer of `work` depends on the view alone, and so does the view that it leaves. -/
def SeesOnly (start : String) (id : StoreId) (work : Hosted α) : Prop :=
  ∀ g h : Host, g.view start id = h.view start id →
    (work.run.run g).1 = (work.run.run h).1 ∧
      (work.run.run g).2.view start id = (work.run.run h).2.view start id

/-- `work` leaves the view as it is. -/
def Spares (start : String) (id : StoreId) (work : Hosted α) : Prop :=
  ∀ h : Host, (work.run.run h).2.view start id = h.view start id

variable {start key : String} {id : StoreId}

theorem seesOnly_pure (a : α) : SeesOnly start id (pure a) := fun _ _ h => ⟨rfl, h⟩

theorem seesOnly_throw (failure : Failure) : SeesOnly start id (throw failure : Hosted α) :=
  fun _ _ h => ⟨rfl, h⟩

theorem seesOnly_note (event : Event) : SeesOnly start id (note event) := fun _ _ h => ⟨rfl, h⟩

/-- `SeesOnly` passes to a bind, if it holds for every value that the work before may yield. -/
theorem seesOnly_bind {work : Hosted α} {next : α → Hosted β} (hwork : SeesOnly start id work)
    (hnext : ∀ a h, (work.run.run h).1 = .ok a → SeesOnly start id (next a)) :
    SeesOnly start id (work >>= next) := by
  intro g h hview
  obtain ⟨hanswer, hafter⟩ := hwork g h hview
  rw [run_run_bind, run_run_bind]
  cases hg : work.run.run g with
  | mk answer g' =>
    cases hh : work.run.run h with
    | mk other h' =>
      rw [hg, hh] at hanswer hafter
      obtain rfl : answer = other := hanswer
      cases answer with
      | error failure => exact ⟨rfl, hafter⟩
      | ok a => exact hnext a g (by rw [hg]) g' h' hafter

theorem denied?_of_view_eq {g h : Host} (hview : g.view start id = h.view start id)
    (statement : Statement) : g.denied? id statement = h.denied? id statement :=
  congrFun (congrArg View.denied? hview) statement

/-- Equal views are both of closed stores, or of stores that hold the same under `start`. -/
theorem content?_of_view_eq {g h : Host} (hview : g.view start id = h.view start id) :
    g.content? id = none ∧ h.content? id = none ∨
      ∃ c d, g.content? id = some c ∧ h.content? id = some d ∧ c.part start = d.part start := by
  have hpart := congrArg View.part hview
  unfold Host.view at hpart
  cases hg : g.content? id with
  | none => exact .inl ⟨rfl, by simpa [hg] using hpart.symm⟩
  | some c =>
    cases hh : h.content? id with
    | none => simp [hg, hh] at hpart
    | some d => exact .inr ⟨c, d, rfl, rfl, by simpa [hg, hh] using hpart⟩

/-- With equal views a statement is denied for the same reason, or carried out on the same part. -/
theorem denied_or_served_of_view_eq {g h : Host} (hview : g.view start id = h.view start id)
    (statement : Statement) :
    (∃ failure, g.denied? id statement = some failure ∧ h.denied? id statement = some failure) ∨
      g.denied? id statement = none ∧ h.denied? id statement = none ∧
        ∃ c d, g.content? id = some c ∧ h.content? id = some d ∧ c.part start = d.part start := by
  have hsame := denied?_of_view_eq hview statement
  cases hserved : g.denied? id statement with
  | some failure => exact .inl ⟨failure, rfl, hsame ▸ hserved⟩
  | none =>
    obtain ⟨c, hopen⟩ := Host.exists_content?_of_denied?_eq_none hserved
    rcases content?_of_view_eq hview with ⟨hclosed, -⟩ | hboth
    · rw [hopen] at hclosed
      cases hclosed
    · exact .inr ⟨rfl, hsame ▸ hserved, hboth⟩

theorem seesOnly_getHash (hkey : hasStart start key = true) :
    SeesOnly start id (getHash id key) := by
  intro g h hview
  rcases denied_or_served_of_view_eq hview (.read key) with
    ⟨failure, hg, hh⟩ | ⟨hg, hh, c, d, hopenG, hopenH, hpart⟩
  · rw [run_getHash_of_denied hg, run_getHash_of_denied hh]
    exact ⟨rfl, hview⟩
  · have hsame : c.get? key = d.get? key := by
      rw [← Content.get?_part hkey c, hpart, Content.get?_part hkey d]
    rw [run_getHash hg hopenG, run_getHash hh hopenH]
    exact ⟨congrArg Except.ok hsame, hview⟩

theorem seesOnly_keys : SeesOnly start id (keys id start) := by
  intro g h hview
  rcases denied_or_served_of_view_eq hview (.search start) with
    ⟨failure, hg, hh⟩ | ⟨hg, hh, c, d, hopenG, hopenH, hpart⟩
  · rw [run_keys_of_denied hg, run_keys_of_denied hh]
    exact ⟨rfl, hview⟩
  · have hsame : c.keys start = d.keys start := by
      rw [← Content.keys_part start c, hpart, Content.keys_part start d]
    rw [run_keys hg hopenG, run_keys hh hopenH]
    exact ⟨congrArg Except.ok hsame, hview⟩

theorem seesOnly_setHash (hkey : hasStart start key = true) (hash : Hash) :
    SeesOnly start id (setHash id key hash) := by
  intro g h hview
  rcases denied_or_served_of_view_eq hview (.write key hash) with
    ⟨failure, hg, hh⟩ | ⟨hg, hh, c, d, hopenG, hopenH, hpart⟩
  · rw [run_setHash_of_denied hg, run_setHash_of_denied hh]
    exact ⟨rfl, hview⟩
  · obtain ⟨g', hrung, hwrittenG⟩ := run_setHash hg hopenG
    obtain ⟨h', hrunh, hwrittenH⟩ := run_setHash hh hopenH
    rw [hrung, hrunh]
    refine ⟨rfl, ?_⟩
    show g'.view start id = h'.view start id
    rw [Host.view, Host.view, hwrittenG.self, hwrittenH.self, hopenG, hopenH, Option.map_some,
      Option.map_some, Option.map_some, Option.map_some, Content.part_set hkey,
      Content.part_set hkey, hpart, hwrittenG.denied?_eq, hwrittenH.denied?_eq]
    exact congrArg (View.mk _) (congrArg View.denied? hview)

/-- Writing under a key that does not begin with `start` spares the view, in whatever store it is.
-/
theorem view_of_written {other : StoreId} {hash : Hash} {h after : Host}
    (hkey : hasStart start key = false) (hwritten : Host.Written other key hash h after) :
    after.view start id = h.view start id := by
  rw [Host.view, Host.view, hwritten.denied?_eq]
  refine congrArg (View.mk · _) ?_
  rcases hwritten.others id with hsame | hset
  · rw [hsame]
  · rw [hset, Option.map_map]
    refine congrArg (Option.map · (h.content? id)) (funext fun c => ?_)
    exact Content.part_set_of_not hkey c hash

end Hosted

end ChatCommands

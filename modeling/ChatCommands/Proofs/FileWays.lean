import ChatCommands.FileTree

/-!
# Ways through a tree of files

A path is followed name by name. This file says what becomes of the way when a node is put in the
tree: it is the same as long as directories stay directories and other nodes stay other nodes
(`follow_keeps`), and a way that has ended at a vacant place ends at the node that is put there. So
a path that has led to a database leads to it again, whatever has been written to it in the meantime
(`LeadsTo.put`).
-/

namespace ChatCommands

def Node.isDirectory : Node → Bool
  | .directory => true
  | _ => false

theorem Node.eq_directory {node : Node} (h : node.isDirectory = true) : node = .directory := by
  cases node with
  | directory => rfl
  | file content => cases h
  | database table => cases h

/-- The place that is reached: the names of a node, `none` above the top, and whether there is a
directory. The content of a file or database is left out. -/
def Found.place? : Found → Option (Option (List String) × Bool)
  | .node names held => some (some names, held.isDirectory)
  | .above => some (none, true)
  | _ => none

namespace FileTree

variable {s t : FileTree}

/-! ## Following names -/

/-- Where one name leads from a place. -/
def step (t : FileTree) : Found → String → Found
  | .node spot .directory, name =>
    if name = ".." then (if spot.isEmpty then .above else .node spot.dropLast .directory)
    else
      match t.get? (spot ++ [name]) with
      | some node => .node (spot ++ [name]) node
      | none => .vacant (spot ++ [name])
  | .node _ _, _ => .blocked
  | .blocked, _ => .blocked
  | .above, name => if name = ".." then .above else .missing
  | .vacant _, _ => .missing
  | .missing, _ => .missing

@[simp] theorem follow_nil (t : FileTree) (here : Found) : t.follow here [] = here := by
  cases here <;> rfl

@[simp] theorem follow_missing (t : FileTree) (names : List String) :
    t.follow .missing names = .missing := by
  cases names <;> rfl

@[simp] theorem follow_blocked (t : FileTree) (names : List String) :
    t.follow .blocked names = .blocked := by
  cases names <;> rfl

/-- `follow` is a fold of `step`. -/
theorem follow_cons (t : FileTree) (here : Found) (name : String) (names : List String) :
    t.follow here (name :: names) = t.follow (t.step here name) names := by
  cases here with
  | vacant spot => exact (t.follow_missing names).symm
  | missing => exact (t.follow_missing names).symm
  | blocked => exact (t.follow_blocked names).symm
  | above =>
    rw [step]
    split
    · rename_i hname
      subst hname
      rfl
    · rename_i hname
      rw [follow_missing, follow, if_neg hname]
  | node spot node =>
    cases node with
    | file content => exact (t.follow_blocked names).symm
    | database table => exact (t.follow_blocked names).symm
    | directory =>
      rw [follow, step]
      by_cases hname : name = ".."
      · rw [if_pos hname, if_pos hname]
      · rw [if_neg hname, if_neg hname]
        cases hget : t.get? (spot ++ [name]) <;> simp only [hget]

theorem step_of_place?_eq_none {here : Found} (h : here.place? = none) (name : String) :
    (t.step here name).place? = none := by
  cases here with
  | vacant spot => rfl
  | missing => rfl
  | blocked => rfl
  | above => cases h
  | node spot node => cases h

/-- Nothing leads back from a place that is no longer in the tree. -/
theorem follow_of_place?_eq_none {here : Found} (h : here.place? = none) (names : List String) :
    (t.follow here names).place? = none := by
  induction names generalizing here with
  | nil => rwa [follow_nil]
  | cons name names ih =>
    rw [follow_cons]
    exact ih (step_of_place?_eq_none h name)

/-! ## Trees with the same ways -/

/-- `t` has a node wherever `s` has one, and of the same kind. -/
def Keeps (s t : FileTree) : Prop :=
  ∀ names node, s.get? names = some node →
    ∃ other, t.get? names = some other ∧ other.isDirectory = node.isDirectory

theorem eq_of_place?_eq_some {here : Found} {names : Option (List String)} {isDirectory : Bool}
    (h : here.place? = some (names, isDirectory)) :
    (here = .above ∧ names = none ∧ isDirectory = true) ∨
      ∃ spot node, here = .node spot node ∧ names = some spot ∧ isDirectory = node.isDirectory := by
  cases here with
  | vacant spot => cases h
  | missing => cases h
  | blocked => cases h
  | above =>
    cases h
    exact .inl ⟨rfl, rfl, rfl⟩
  | node spot node =>
    cases h
    exact .inr ⟨spot, node, rfl, rfl, rfl⟩

theorem step_keeps (hkeeps : Keeps s t) {here there : Found} {place : Option (List String) × Bool}
    (hhere : here.place? = some place) (hthere : there.place? = some place) {name : String}
    {next : Option (List String) × Bool} (hnext : (s.step here name).place? = some next) :
    (t.step there name).place? = some next := by
  rcases eq_of_place?_eq_some hhere with ⟨rfl, hnames, -⟩ | ⟨spot, node, rfl, hnames, hkind⟩
  · rcases eq_of_place?_eq_some hthere with ⟨rfl, -, -⟩ | ⟨_, _, -, hother, -⟩
    · exact hnext
    · cases hnames.symm.trans hother
  · rcases eq_of_place?_eq_some hthere with ⟨-, hother, -⟩ | ⟨other, node', rfl, hother, hkind'⟩
    · cases hnames.symm.trans hother
    · obtain rfl : spot = other := Option.some.inj (hnames.symm.trans hother)
      cases hdirectory : node.isDirectory with
      | false =>
        cases node with
        | directory => cases hdirectory
        | file content => cases hnext
        | database table => cases hnext
      | true =>
        -- both ways are at the same directory
        obtain rfl := Node.eq_directory hdirectory
        obtain rfl := Node.eq_directory (hkind'.symm.trans (hkind.trans hdirectory))
        by_cases hname : name = ".."
        · rw [step, if_pos hname] at hnext ⊢
          exact hnext
        · rw [step, if_neg hname] at hnext ⊢
          cases hget : s.get? (spot ++ [name]) with
          | none =>
            simp only [hget] at hnext
            cases hnext
          | some found =>
            obtain ⟨found', hget', hsame⟩ := hkeeps _ _ hget
            simp only [hget] at hnext
            simp only [hget', Found.place?, hsame]
            exact hnext

/-- `follow` reaches the same place in a tree that `Keeps` the nodes. -/
theorem follow_keeps (hkeeps : Keeps s t) {names : List String} {here there : Found}
    {first last : Option (List String) × Bool} (hhere : here.place? = some first)
    (hthere : there.place? = some first) (hlast : (s.follow here names).place? = some last) :
    (t.follow there names).place? = some last := by
  -- both ways are at one place before each name
  induction names generalizing here there first with
  | nil =>
    rw [follow_nil] at hlast ⊢
    rw [hthere, ← hhere, hlast]
  | cons name names ih =>
    rw [follow_cons] at hlast ⊢
    cases hnext : (s.step here name).place? with
    | none => rw [follow_of_place?_eq_none hnext] at hlast; cases hlast
    | some next => exact ih hnext (step_keeps hkeeps hhere hthere hnext) hlast

/-! ## Nodes that are found -/

/-- What is found is what the tree holds: a file or database is held, and a vacant place is not. -/
def Holds (t : FileTree) : Found → Prop
  | .node names node => node.isDirectory = false → t.get? names = some node
  | .vacant names => t.get? names = none
  | _ => True

theorem holds_step (t : FileTree) (here : Found) (name : String) : t.Holds (t.step here name) := by
  cases here with
  | vacant spot => trivial
  | missing => trivial
  | blocked => trivial
  | above =>
    rw [step]
    split <;> trivial
  | node spot node =>
    cases node with
    | file content => trivial
    | database table => trivial
    | directory =>
      rw [step]
      split
      · split
        · trivial
        · exact nofun
      · cases hget : t.get? (spot ++ [name]) with
        | some found => exact fun _ => hget
        | none => exact hget

theorem holds_follow {here : Found} (hhere : t.Holds here) (names : List String) :
    t.Holds (t.follow here names) := by
  induction names generalizing here with
  | nil => rwa [follow_nil]
  | cons name names ih =>
    rw [follow_cons]
    exact ih (t.holds_step here name)

theorem holds_find (t : FileTree) (names : List String) : t.Holds (t.find names) := by
  have htop : t.Holds (.node [] .directory) := nofun
  exact holds_follow htop names

/-! ## Putting a node -/

theorem get?_put {names : List String} (hnames : names ≠ []) (t : FileTree) (node : Node)
    (others : List String) :
    (t.put names node).get? others = if names = others then some node else t.get? others := by
  by_cases hothers : others = []
  · subst hothers
    rw [if_neg hnames]
    rfl
  · simp [get?, put, OrderedMap.get?_insert, hothers]

theorem ne_nil_of_get?_eq_none {names : List String} (h : t.get? names = none) : names ≠ [] := by
  rintro rfl
  cases h

theorem ne_nil_of_not_directory {names : List String} {node : Node} (h : t.get? names = some node)
    (hnode : node.isDirectory = false) : names ≠ [] := by
  rintro rfl
  cases h
  cases hnode

theorem keeps_put_of_none {names : List String} (h : t.get? names = none) (node : Node) :
    Keeps t (t.put names node) := by
  intro others old hold
  have hne : names ≠ others := by
    rintro rfl
    cases h.symm.trans hold
  exact ⟨old, by rw [get?_put (ne_nil_of_get?_eq_none h), if_neg hne, hold], rfl⟩

theorem keeps_put_of_some {names : List String} {node new : Node} (h : t.get? names = some node)
    (hnode : node.isDirectory = false) (hnew : new.isDirectory = false) :
    Keeps t (t.put names new) := by
  intro others old hold
  rw [get?_put (ne_nil_of_not_directory h hnode)]
  by_cases hothers : names = others
  · subst hothers
    cases h.symm.trans hold
    exact ⟨new, if_pos rfl, hnew.trans hnode.symm⟩
  · exact ⟨old, by rw [if_neg hothers, hold], rfl⟩

/-- `put` in a vacant place changes a `step` that ends there, and no other. -/
theorem step_put {there : List String} (hnone : t.get? there = none) (here : Found) (name : String)
    (node : Node) :
    (t.put there node).step here name =
      if t.step here name = .vacant there then .node there node else t.step here name := by
  cases here with
  | vacant spot => rfl
  | missing => rfl
  | blocked => rfl
  | above => by_cases hname : name = ".." <;> simp [step, hname]
  | node spot below =>
    cases below with
    | file content => rfl
    | database table => rfl
    | directory =>
      by_cases hname : name = ".."
      · by_cases hspot : spot.isEmpty <;> simp [step, hname, hspot]
      · have hput := get?_put (ne_nil_of_get?_eq_none hnone) t node (spot ++ [name])
        by_cases hthere : there = spot ++ [name]
        · subst hthere
          rw [if_pos rfl] at hput
          simp [step, hname, hput, hnone]
        · rw [if_neg hthere] at hput
          cases hget : t.get? (spot ++ [name]) with
          | some found => simp [step, hname, hput, hget]
          | none => simp [step, hname, hput, hget, Ne.symm hthere]

/-- A way that ends at a vacant place leads to the node that is put there. -/
theorem follow_put_of_vacant {names there : List String} {here : Found}
    (hhere : ∀ spot, here ≠ .vacant spot) (hnone : t.get? there = none)
    (h : t.follow here names = .vacant there) (node : Node) :
    (t.put there node).follow here names = .node there node := by
  induction names generalizing here with
  | nil =>
    rw [follow_nil] at h
    exact absurd h (hhere there)
  | cons name names ih =>
    rw [follow_cons] at h ⊢
    rw [step_put hnone]
    cases hstep : t.step here name with
    | vacant spot =>
      -- the way ends here, as nothing is behind a vacant place
      rw [hstep] at h
      cases names with
      | nil =>
        cases h
        rw [if_pos rfl, follow_nil]
      | cons other names =>
        rw [follow_cons, step, follow_missing] at h
        cases h
    | missing => rw [hstep, follow_missing] at h; cases h
    | blocked => rw [hstep, follow_blocked] at h; cases h
    | above =>
      rw [hstep] at h
      rw [if_neg nofun]
      exact ih nofun h
    | node spot found =>
      rw [hstep] at h
      rw [if_neg nofun]
      exact ih nofun h

theorem get?_of_find_vacant {names there : List String} (h : t.find names = .vacant there) :
    t.get? there = none := by
  have hholds := t.holds_find names
  rw [h] at hholds
  exact hholds

theorem find_put_of_vacant {names there : List String} (h : t.find names = .vacant there)
    (node : Node) : (t.put there node).find names = .node there node := by
  have htop : ∀ spot, Found.node [] .directory ≠ .vacant spot := nofun
  exact follow_put_of_vacant htop (get?_of_find_vacant h) h node

theorem holds_locate (t : FileTree) (l : Location) : t.Holds (t.locate l) := by
  have habove : t.Holds .above := trivial
  unfold locate
  split
  · rename_i hget
    exact fun _ => hget
  · split
    · exact holds_follow habove _
    · exact t.holds_find l.names

/-! ## Ways in a tree with one more node -/

variable {l : Location} {names : List String} {node : Node}

theorem locate_of_relative (hrelative : l.isAbsolute = false) (t : FileTree) :
    t.locate l =
      match t.get? l.names with
      | some node => .node l.names node
      | none => t.find l.names := by
  unfold locate Location.key
  rw [hrelative]
  rfl

theorem isDirectory_keeps (hkeeps : Keeps s t) {names : List String}
    (h : (s.find names).isDirectory = true) : (t.find names).isDirectory = true := by
  -- a place with a directory is known by its names, or is above the top
  have hplace : ∀ found : Found, found.isDirectory = true ↔
      ∃ place, found.place? = some (place, true) := by
    rintro (_ | _ | _ | _ | ⟨names, _ | _ | _⟩) <;>
      simp [Found.isDirectory, Found.place?, Node.isDirectory]
  rw [hplace] at h ⊢
  obtain ⟨place, h⟩ := h
  exact ⟨place, follow_keeps hkeeps rfl rfl h⟩

/-- `locate` finds a node that is put where it found a vacant place. -/
theorem locate_put_of_vacant (hrelative : l.isAbsolute = false)
    (hlocate : t.locate l = .vacant names) (node : Node) :
    t.get? names = none ∧ (t.put names node).locate l = .node names node := by
  rw [locate_of_relative hrelative] at hlocate ⊢
  cases hget : t.get? l.names with
  | some found => simp only [hget] at hlocate; cases hlocate
  | none =>
    simp only [hget] at hlocate
    have hnone := get?_of_find_vacant hlocate
    refine ⟨hnone, ?_⟩
    rw [get?_put (ne_nil_of_get?_eq_none hnone), hget]
    by_cases heq : names = l.names
    · rw [if_pos heq, heq]
    · rw [if_neg heq]
      exact find_put_of_vacant hlocate node

theorem get?_of_locate (hnode : node.isDirectory = false)
    (hlocate : t.locate l = .node names node) :
    t.get? names = some node := by
  have hholds := t.holds_locate l
  rw [hlocate] at hholds
  exact hholds hnode

/-- `locate` finds a node that is put in the place of the one it found, if neither is a directory.
-/
theorem locate_put_of_node (hrelative : l.isAbsolute = false) (hnode : node.isDirectory = false)
    (hlocate : t.locate l = .node names node) {new : Node} (hnew : new.isDirectory = false) :
    (t.put names new).locate l = .node names new := by
  have hsome := get?_of_locate hnode hlocate
  have hput := get?_put (ne_nil_of_not_directory hsome hnode) t new
  have hplace : ((t.put names new).locate l).place? = some (some names, false) := by
    rw [locate_of_relative hrelative] at hlocate ⊢
    rw [hput]
    by_cases heq : names = l.names
    · rw [if_pos heq, heq, Found.place?, hnew]
    · rw [if_neg heq]
      cases hget : t.get? l.names with
      | some found =>
        simp only [hget] at hlocate
        cases hlocate
        exact absurd rfl heq
      | none =>
        simp only [hget] at hlocate ⊢
        have hplace : (t.find l.names).place? = some (some names, false) := by
          rw [hlocate, Found.place?, hnode]
        exact follow_keeps (keeps_put_of_some hsome hnode hnew) rfl rfl hplace
  -- the way ends in the same place, and the tree tells what is there
  rcases eq_of_place?_eq_some hplace with ⟨-, hnames, -⟩ | ⟨spot, found, hfound, hnames, hkind⟩
  · cases hnames
  · cases hnames
    have hheld := get?_of_locate hkind.symm hfound
    rw [hput, if_pos rfl] at hheld
    cases hheld
    exact hfound

/-! ## Ways to a database -/

/-- The path `l` leads to a database under `names`, through directories that are there. -/
structure LeadsTo (t : FileTree) (l : Location) (names : List String) : Prop where
  isRelative : l.isAbsolute = false
  -- the path without its last name leads to a directory
  isDirectory : (t.find l.parent.names).isDirectory = true
  locate_eq : ∃ table, t.locate l = .node names (.database table)

theorem LeadsTo.get? (h : LeadsTo t l names) : ∃ table, t.get? names = some (.database table) := by
  obtain ⟨table, hlocate⟩ := h.locate_eq
  exact ⟨table, get?_of_locate rfl hlocate⟩

theorem LeadsTo.ne_nil (h : LeadsTo t l names) : names ≠ [] := by
  obtain ⟨table, hget⟩ := h.get?
  exact ne_nil_of_not_directory hget rfl

theorem LeadsTo.put (h : LeadsTo t l names) (table : Table) :
    LeadsTo (t.put names (.database table)) l names := by
  obtain ⟨old, hlocate⟩ := h.locate_eq
  have hkeeps := keeps_put_of_some (get?_of_locate rfl hlocate) rfl
    (rfl : (Node.database table).isDirectory = false)
  exact ⟨h.isRelative, isDirectory_keeps hkeeps h.isDirectory,
    table, locate_put_of_node h.isRelative rfl hlocate rfl⟩

/-! ## Directories that are made -/

theorem isDirectory_of_ensureDirectory {reversed : List String} {made : FileTree}
    (h : t.ensureDirectory reversed = .ok made) :
    (made.find reversed.reverse).isDirectory = true := by
  cases reversed with
  | nil => rfl
  | cons name above =>
    have hput {t : FileTree} {there : List String}
        (hvacant : t.find (name :: above).reverse = .vacant there) :
        ((t.put there .directory).find (name :: above).reverse).isDirectory = true := by
      rw [find_put_of_vacant hvacant]
      rfl
    have hfound {t : FileTree} {spot : List String}
        (hnode : t.find (name :: above).reverse = .node spot .directory) :
        (t.find (name :: above).reverse).isDirectory = true := by
      rw [hnode]
      rfl
    simp only [ensureDirectory] at h
    split at h
    · next hnode => cases h; exact hfound hnode
    · next habove => cases h; rw [habove]; rfl
    · cases h
    · cases h
    · next hvacant => cases h; exact hput hvacant
    · -- the directory above is made first
      cases hbelow : t.ensureDirectory above with
      | error failure => rw [hbelow] at h; cases h
      | ok below =>
        simp only [hbelow, bind, Except.bind] at h
        split at h
        · next hvacant => cases h; exact hput hvacant
        · next hnode => cases h; exact hfound hnode
        · cases h
        · cases h

theorem ensureDirectory_of_isDirectory {reversed : List String}
    (h : (t.find reversed.reverse).isDirectory = true) : t.ensureDirectory reversed = .ok t := by
  cases reversed with
  | nil => rfl
  | cons name above =>
    simp only [ensureDirectory]
    cases hfound : t.find (name :: above).reverse with
    | above => rfl
    | missing => rw [hfound] at h; cases h
    | blocked => rw [hfound] at h; cases h
    | vacant there => rw [hfound] at h; cases h
    | node spot found =>
      cases found with
      | directory => rfl
      | file content => rw [hfound] at h; cases h
      | database table => rw [hfound] at h; cases h

end FileTree

end ChatCommands

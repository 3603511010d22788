import ChatCommands.Proofs.JsonDocuments
import ChatCommands.Schema
import Mathlib.Data.List.Nodup

/-!
# What a check of a record comes to

A check of a record is put together from checks of its fields. What each of them should come to is
said by a property of values, a property of violations and an order: it yields the values that are
described, or else reports the violations that there are, in order (`Checked.Faithful`). This file
shows that the ways of putting checks together keep that, and what the checks of a text, of a list
of texts, of a field and of the keys of a record come to, for documents that JSON writes down.
-/

namespace ChatCommands

namespace Checked

variable {α β : Type}

def violations : Checked α → List Violation
  | .ok _ => []
  | .error found => found

theorem violations_both (first : Checked α) (second : Checked β) :
    (first.both second).violations = first.violations ++ second.violations := by
  cases first <;> cases second <;> simp [both, violations]

theorem violations_under (place : Place) (checked : Checked α) :
    (checked.under place).violations = checked.violations.map (Violation.under place) := by
  cases checked <;> rfl

theorem bind_eq_map {checked : Checked α} {next : α → Checked β} {f : α → β}
    (h : ∀ a, next a = .ok (f a)) : checked >>= next = checked.map f := by
  cases checked with
  | error found => rfl
  | ok a => exact h a

theorem violations_map (checked : Checked α) (f : α → β) :
    violations (checked.map f) = checked.violations := by
  cases checked <;> rfl

abbrev Order := List Place → List Place → Prop

/-- The check yields just the values that `describes` tells. If it yields none, it reports just the
violations that `offends` tells, in the order `before`. -/
structure Faithful (checked : Checked α) (describes : α → Prop) (offends : Violation → Prop)
    (before : Order) : Prop where
  ok_iff : ∀ a, checked = .ok a ↔ describes a
  mem_iff : ∀ v, v ∈ checked.violations ↔ offends v
  ordered : (checked.violations.map Violation.path).Pairwise before
  ne_nil : checked ≠ .error []

section
variable {describes : α → Prop} {offends : Violation → Prop} {before : Order}

/-- If `before` is asymmetric, the report is determined by its violations. -/
theorem Faithful.eq_violations {checked : Checked α}
    (h : Faithful checked describes offends before) (hasymm : ∀ p q, before p q → ¬before q p)
    {found : List Violation} (hmem : ∀ v, v ∈ found ↔ offends v)
    (hordered : (found.map Violation.path).Pairwise before) : found = checked.violations := by
  -- a violation that is reported twice would be before itself
  have hnodup : ∀ report : List Violation, (report.map Violation.path).Pairwise before →
      report.Nodup := by
    intro report hreport
    apply (List.pairwise_map.1 hreport).imp
    rintro v w hbefore rfl
    exact hasymm _ _ hbefore hbefore
  have hperm : found.Perm checked.violations := by
    rw [List.perm_ext_iff_of_nodup (hnodup _ hordered) (hnodup _ h.ordered)]
    intro v
    rw [hmem, h.mem_iff]
  apply hperm.eq_of_pairwise _ (List.pairwise_map.1 hordered) (List.pairwise_map.1 h.ordered)
  intro v w _ _ hvw hwv
  exact absurd hwv (hasymm _ _ hvw)

theorem Faithful.congr {checked : Checked α} {describes' : α → Prop} {offends' : Violation → Prop}
    (h : Faithful checked describes offends before) (hdescribes : ∀ a, describes a ↔ describes' a)
    (hoffends : ∀ v, offends v ↔ offends' v) : Faithful checked describes' offends' before where
  ok_iff a := (h.ok_iff a).trans (hdescribes a)
  mem_iff v := (h.mem_iff v).trans (hoffends v)
  ordered := h.ordered
  ne_nil := h.ne_nil

theorem faithful_ok {a : α} (hdescribes : ∀ b, describes b ↔ b = a) (hoffends : ∀ v, ¬offends v) :
    Faithful (.ok a) describes offends before where
  ok_iff b := by
    rw [hdescribes]
    constructor
    · rintro ⟨⟩
      rfl
    · rintro rfl
      rfl
  mem_iff v := iff_of_false List.not_mem_nil (hoffends v)
  ordered := List.Pairwise.nil
  ne_nil := nofun

theorem faithful_broken {rule : Rule} (hdescribes : ∀ a, ¬describes a)
    (hoffends : ∀ v, offends v ↔ v = ⟨[], rule⟩) :
    Faithful (broken rule : Checked α) describes offends before where
  ok_iff a := iff_of_false nofun (hdescribes a)
  mem_iff v := by
    rw [hoffends]
    exact List.mem_singleton
  ordered := List.pairwise_singleton _ _
  ne_nil := nofun

/-- `Checked.both` finds what is wrong for either check, and all that the first finds comes first.
-/
theorem Faithful.both {first : Checked α} {second : Checked β} {describes' : β → Prop}
    {offends' : Violation → Prop} (hfirst : Faithful first describes offends before)
    (hsecond : Faithful second describes' offends' before)
    (hbefore : ∀ v w, offends v → offends' w → before v.path w.path) :
    Faithful (first.both second) (fun a => describes a.1 ∧ describes' a.2)
      (fun v => offends v ∨ offends' v) before where
  ok_iff a := by
    rw [← hfirst.ok_iff, ← hsecond.ok_iff]
    cases first <;> cases second <;> simp [Checked.both, Prod.ext_iff]
  mem_iff v := by
    rw [violations_both, List.mem_append, hfirst.mem_iff, hsecond.mem_iff]
  ordered := by
    rw [violations_both, List.map_append, List.pairwise_append]
    refine ⟨hfirst.ordered, hsecond.ordered, ?_⟩
    intro p hp q hq
    obtain ⟨v, hv, rfl⟩ := List.mem_map.1 hp
    obtain ⟨w, hw, rfl⟩ := List.mem_map.1 hq
    exact hbefore v w ((hfirst.mem_iff v).1 hv) ((hsecond.mem_iff w).1 hw)
  ne_nil := by
    have hfirst := hfirst.ne_nil
    have hsecond := hsecond.ne_nil
    cases first <;> cases second <;> simp_all [Checked.both]

theorem Faithful.map {checked : Checked α} (h : Faithful checked describes offends before)
    (f : α → β) :
    Faithful (checked.map f) (fun b => ∃ a, describes a ∧ f a = b) offends before where
  ok_iff b := by
    simp only [← h.ok_iff]
    cases checked <;> simp [Except.map]
  mem_iff v := by rw [violations_map, h.mem_iff]
  ordered := by
    rw [violations_map]
    exact h.ordered
  ne_nil := by
    have hne := h.ne_nil
    cases checked <;> simp_all [Except.map]

/-- `Checked.under` puts the place in front of every violation. -/
theorem Faithful.under {checked : Checked α} {before' : Order} {place : Place}
    (h : Faithful checked describes offends before)
    (hbefore : ∀ p q, before p q → before' (place :: p) (place :: q)) :
    Faithful (checked.under place) describes (fun v => ∃ w, offends w ∧ w.under place = v) before'
    where
  ok_iff a := by
    rw [← h.ok_iff]
    cases checked <;> simp [Checked.under, Except.mapError]
  mem_iff v := by
    simp only [violations_under, List.mem_map, h.mem_iff]
  ordered := by
    have hpath : Violation.path ∘ Violation.under place = (place :: ·) ∘ Violation.path := rfl
    rw [violations_under, List.map_map, hpath, ← List.map_map]
    exact List.pairwise_map.2 (h.ordered.imp fun {p q} hpq => hbefore p q hpq)
  ne_nil := by
    have hne := h.ne_nil
    cases checked <;> simp_all [Checked.under, Except.mapError]

end

end Checked

namespace Schema

open Checked (Faithful Order)
open Document (IsJson field?)

/-! ## Texts -/

def IsText (d : Document) : Prop := ∃ s, d = .text s

theorem faithful_text {d : Document} (h : d.IsJson) (before : Order) :
    Faithful (text d) (fun s => d = .text s) (fun v => ¬IsText d ∧ v = ⟨[], .isText⟩) before := by
  by_cases htext : IsText d
  · obtain ⟨s, rfl⟩ := htext
    apply Checked.faithful_ok
    · intro other
      simp [eq_comm]
    · rintro v ⟨hno, -⟩
      exact hno ⟨s, rfl⟩
  · have hbroken : text d = .broken .isText := by
      cases h with
      | text value => exact absurd ⟨value, rfl⟩ htext
      | _ => rfl
    rw [hbroken]
    apply Checked.faithful_broken
    · intro s hs
      exact htext ⟨s, hs⟩
    · intro v
      exact and_iff_right htext

/-- Whether one index is before another. -/
inductive ByIndex : Order
  | lt {i j : Int} (h : i < j) : ByIndex [.index i] [.index j]

theorem faithful_items {documents : List Document} (h : ∀ d ∈ documents, d.IsJson) (start : Nat) :
    Faithful (items text start documents) (fun texts => documents = texts.map .text)
      (fun v => ∃ i d, documents[i]? = some d ∧ ¬IsText d ∧
        v = ⟨[.index ((start + i : Nat) : Int)], .isText⟩) ByIndex := by
  induction documents generalizing start with
  | nil =>
    apply Checked.faithful_ok
    · intro texts
      simp [eq_comm]
    · rintro v ⟨i, d, hd, -⟩
      simp at hd
  | cons d documents ih =>
    have hhead : Faithful ((text d).under (.index start)) _ _ ByIndex :=
      (faithful_text (h d (by simp)) fun _ _ => False).under fun _ _ hfalse => hfalse.elim
    have htail := ih (fun e he => h e (List.mem_cons_of_mem _ he)) (start + 1)
    have hboth := (hhead.both htail ?_).map fun (first, later) => first :: later
    · apply hboth.congr
      · intro texts
        constructor
        · rintro ⟨⟨first, later⟩, ⟨rfl, rfl⟩, rfl⟩
          rfl
        · intro htexts
          cases texts with
          | nil => cases htexts
          | cons first later =>
            obtain ⟨hfirst, hlater⟩ := List.cons.inj htexts
            exact ⟨(first, later), ⟨hfirst, hlater⟩, rfl⟩
      · intro v
        constructor
        · rintro (⟨w, ⟨hno, rfl⟩, rfl⟩ | ⟨i, e, he, hno, rfl⟩)
          · exact ⟨0, d, rfl, hno, rfl⟩
          · refine ⟨i + 1, e, he, hno, ?_⟩
            rw [Nat.add_right_comm, Nat.add_assoc]
        · rintro ⟨i, e, he, hno, rfl⟩
          cases i with
          | zero =>
            obtain rfl : d = e := by simpa using he
            exact .inl ⟨_, ⟨hno, rfl⟩, rfl⟩
          | succ i =>
            refine .inr ⟨i, e, he, hno, ?_⟩
            rw [Nat.add_right_comm, Nat.add_assoc]
    · -- the head has a smaller index than all others
      rintro v w ⟨v, ⟨-, rfl⟩, rfl⟩ ⟨i, e, -, -, rfl⟩
      apply ByIndex.lt
      omega

/-- `Schema.list` of texts yields the texts, or reports every item that is none. -/
theorem faithful_list {d : Document} (h : d.IsJson) :
    Faithful (list text d) (fun texts => d = .list (texts.map .text))
      (fun v => (∀ items, d ≠ .list items) ∧ v = ⟨[], .isList⟩ ∨
        ∃ items i item, d = .list items ∧ items[i]? = some item ∧ ¬IsText item ∧
          v = ⟨[.index ((i : Nat) : Int)], .isText⟩) ByIndex := by
  by_cases hlist : ∃ items, d = .list items
  · obtain ⟨documents, rfl⟩ := hlist
    cases h with
    | list hitems =>
      apply (faithful_items hitems 0).congr
      · intro texts
        rw [Document.list.injEq]
      · intro v
        constructor
        · rintro ⟨i, item, hitem, hno, rfl⟩
          rw [Nat.zero_add]
          exact .inr ⟨documents, i, item, rfl, hitem, hno, rfl⟩
        · rintro (⟨hno, -⟩ | ⟨_, i, item, ⟨⟩, hitem, hno, rfl⟩)
          · exact absurd rfl (hno documents)
          · refine ⟨i, item, hitem, hno, ?_⟩
            rw [Nat.zero_add]
  · have hno : ∀ items, d ≠ .list items := fun items heq => hlist ⟨items, heq⟩
    have hbroken : list text d = .broken .isList := by
      cases h with
      | list hitems => exact absurd rfl (hno _)
      | _ => rfl
    rw [hbroken]
    apply Checked.faithful_broken
    · intro texts
      exact hno _
    · intro v
      constructor
      · rintro (⟨-, hv⟩ | ⟨items, -, -, heq, -⟩)
        · exact hv
        · exact absurd heq (hno items)
      · exact fun hv => .inl ⟨hno, hv⟩

/-! ## Fields -/

section
variable {entries : List (Document × Document)}

theorem field?_eq_some_iff (hnodup : (entries.map Prod.fst).Nodup) (name : String)
    (value : Document) : field? name entries = some value ↔ (.text name, value) ∈ entries := by
  induction entries with
  | nil => simp [field?]
  | cons entry rest ih =>
    obtain ⟨key, first⟩ := entry
    rw [List.map_cons, List.nodup_cons] at hnodup
    by_cases hkey : key = .text name
    · subst hkey
      have hrest : (.text name, value) ∉ rest := fun h =>
        hnodup.1 (List.mem_map.2 ⟨_, h, rfl⟩)
      simp [field?, hrest, eq_comm]
    · have hstep : field? name ((key, first) :: rest) = field? name rest := by
        cases key with
        | text other =>
          rw [field?, if_neg]
          exact fun h => hkey (congrArg _ h)
        | _ => rfl
      have hfirst : (Document.text name, value) ≠ (key, first) := fun h =>
        hkey (Prod.mk.inj h).1.symm
      rw [hstep, ih hnodup.2, List.mem_cons]
      exact (or_iff_right hfirst).symm

theorem field?_eq_none_iff (hnodup : (entries.map Prod.fst).Nodup) (name : String) :
    field? name entries = none ↔ ∀ value, (.text name, value) ∉ entries := by
  simp only [Option.eq_none_iff_forall_ne_some, ne_eq, field?_eq_some_iff hnodup]

/-- The value of a field is as its entry gives it, or the default if there is no entry. -/
structure Holds (name : String) (entries : List (Document × Document)) (given : Document → Prop)
    (isDefault : Prop) : Prop where
  given : ∀ value, (.text name, value) ∈ entries → given value
  absent : (∀ value, (.text name, value) ∉ entries) → isDefault

theorem eq_of_mem_of_mem (hnodup : (entries.map Prod.fst).Nodup) {key value other : Document}
    (hvalue : (key, value) ∈ entries) (hother : (key, other) ∈ entries) : value = other :=
  (Prod.mk.inj (List.inj_on_of_nodup_map hnodup hvalue hother rfl)).2

section
variable {name : String} {given : Document → Prop} {isDefault : Prop}

theorem holds_iff_of_mem (hnodup : (entries.map Prod.fst).Nodup) {value : Document}
    (hmem : (.text name, value) ∈ entries) : Holds name entries given isDefault ↔ given value := by
  constructor
  · intro h
    exact h.given value hmem
  · intro hgiven
    refine ⟨?_, fun habsent => absurd hmem (habsent value)⟩
    intro other hother
    rw [← eq_of_mem_of_mem hnodup hmem hother]
    exact hgiven

theorem holds_iff_of_absent (habsent : ∀ value, (.text name, value) ∉ entries) :
    Holds name entries given isDefault ↔ isDefault := by
  constructor
  · intro h
    exact h.absent habsent
  · intro hdefault
    exact ⟨fun value hvalue => absurd hvalue (habsent value), fun _ => hdefault⟩

end

theorem exists_holds {α : Type} {name : String} {describes : Document → α → Prop}
    (hnodup : (entries.map Prod.fst).Nodup) (default : α)
    (h : ∀ value, (.text name, value) ∈ entries → ∃ a, describes value a) :
    ∃ a, Holds name entries (describes · a) (a = default) := by
  by_cases hgiven : ∃ value, (.text name, value) ∈ entries
  · obtain ⟨value, hmem⟩ := hgiven
    obtain ⟨a, ha⟩ := h value hmem
    exact ⟨a, (holds_iff_of_mem hnodup hmem).2 ha⟩
  · exact ⟨default, (holds_iff_of_absent fun value hvalue => hgiven ⟨value, hvalue⟩).2 rfl⟩

/-- `Schema.field` checks the value of its entry, and yields the default if there is none. -/
theorem faithful_field {α : Type} {name : String} {default : α} {check : Document → Checked α}
    {describes : Document → α → Prop} {offends : Document → Violation → Prop}
    {inner : Document → Order} {before : Order} (hnodup : (entries.map Prod.fst).Nodup)
    (hcheck : ∀ value, (.text name, value) ∈ entries →
      Faithful (check value) (describes value) (offends value) (inner value))
    (hbefore : ∀ value, (.text name, value) ∈ entries → ∀ p q, inner value p q →
      before (.field name :: p) (.field name :: q)) :
    Faithful (field name (some default) check entries)
      (fun a => Holds name entries (describes · a) (a = default))
      (fun v => ∃ value w, (.text name, value) ∈ entries ∧ offends value w ∧
        w.under (.field name) = v) before := by
  cases hfield : field? name entries with
  | none =>
    have hnone := (field?_eq_none_iff hnodup name).1 hfield
    have hdefault : field name (some default) check entries = .ok default := by
      unfold field
      rw [hfield]
      rfl
    rw [hdefault]
    apply Checked.faithful_ok
    · intro a
      exact holds_iff_of_absent hnone
    · rintro v ⟨value, w, hvalue, -⟩
      exact hnone value hvalue
  | some value =>
    have hmem := (field?_eq_some_iff hnodup name value).1 hfield
    have hvalue : field name (some default) check entries = (check value).under (.field name) := by
      unfold field
      rw [hfield]
    rw [hvalue]
    apply ((hcheck value hmem).under (hbefore value hmem)).congr
    · intro a
      rw [holds_iff_of_mem hnodup hmem]
    · intro v
      constructor
      · rintro ⟨w, hw, rfl⟩
        exact ⟨value, w, hmem, hw, rfl⟩
      · rintro ⟨other, w, hother, hw, rfl⟩
        rw [← eq_of_mem_of_mem hnodup hmem hother] at hw
        exact ⟨w, hw, rfl⟩

/-- A field whose value can be wrong in one way. -/
theorem faithful_plainField {α : Type} {name : String} {default : α}
    {check : Document → Checked α} {describes : Document → α → Prop} {wrong : Document → Prop}
    {rule : Rule} {before : Order} (hnodup : (entries.map Prod.fst).Nodup)
    (hcheck : ∀ value, (.text name, value) ∈ entries →
      Faithful (check value) (describes value) (fun v => wrong value ∧ v = ⟨[], rule⟩)
        fun _ _ => False) :
    Faithful (field name (some default) check entries)
      (fun a => Holds name entries (describes · a) (a = default))
      (fun v => ∃ value, (.text name, value) ∈ entries ∧ wrong value ∧
        v = ⟨[.field name], rule⟩) before := by
  apply (faithful_field hnodup hcheck fun _ _ _ _ hfalse => hfalse.elim).congr
  · exact fun _ => Iff.rfl
  · intro v
    constructor
    · rintro ⟨value, w, hvalue, ⟨hwrong, rfl⟩, rfl⟩
      exact ⟨value, hvalue, hwrong, rfl⟩
    · rintro ⟨value, hvalue, hwrong, rfl⟩
      exact ⟨value, ⟨[], rule⟩, hvalue, ⟨hwrong, rfl⟩, rfl⟩

/-! ## Keys -/

/-- The keys of a record are all among `declared`. -/
def OnlyKeys (declared : List String) (entries : List (Document × Document)) : Prop :=
  ∀ entry ∈ entries, ∃ name ∈ declared, entry.1 = .text name

/-- `name` comes before `other` in a report: the declared keys in the order of their declaration,
and behind them the others in the order in which they stand. -/
inductive Precedes (declared : List String) (entries : List (Document × Document))
    (name other : String) : Prop
  | declared (h : [name, other].Sublist declared)
  | mixed (h : name ∈ declared) (hother : other ∉ declared)
  | undeclared (h : name ∉ declared) (hother : other ∉ declared)
    (hkeys : [Document.text name, .text other].Sublist (entries.map Prod.fst))

theorem not_sublist_swap {α : Type} {l : List α} (h : l.Nodup) {a b : α}
    (hab : [a, b].Sublist l) : ¬[b, a].Sublist l := by
  induction l with
  | nil => exact nofun
  | cons first rest ih =>
    rw [List.nodup_cons] at h
    intro hba
    cases hab with
    | cons _ hab =>
      cases hba with
      | cons _ hba => exact ih h.2 hab hba
      | cons_cons _ hba => exact h.1 (hab.subset (by simp))
    | cons_cons _ hab =>
      cases hba with
      | cons _ hba => exact h.1 (hba.subset (by simp))
      | cons_cons _ hba => exact h.1 (hab.subset (by simp))

/-- No two keys precede each other. -/
theorem Precedes.asymm {declared : List String} (hdeclared : declared.Nodup)
    (hnodup : (entries.map Prod.fst).Nodup) {name other : String}
    (h : Precedes declared entries name other) : ¬Precedes declared entries other name := by
  intro hswap
  cases h with
  | declared h =>
    cases hswap with
    | declared hswap => exact not_sublist_swap hdeclared h hswap
    | mixed _ hname => exact hname (h.subset (by simp))
    | undeclared _ hname _ => exact hname (h.subset (by simp))
  | mixed hname hother =>
    cases hswap with
    | declared hswap => exact hother (hswap.subset (by simp))
    | mixed hother' _ => exact hother hother'
    | undeclared _ hname' _ => exact hname' hname
  | undeclared hname hother hkeys =>
    cases hswap with
    | declared hswap => exact hname (hswap.subset (by simp))
    | mixed hother' _ => exact hother hother'
    | undeclared _ _ hkeys' => exact not_sublist_swap hnodup hkeys hkeys'

theorem violations_closed (declared : List String) (entries : List (Document × Document)) :
    (closed declared entries).violations =
      entries.filterMap fun entry => keyViolation? declared entry.1 := by
  unfold closed
  split
  next h => rw [h]; rfl
  next => rfl

theorem keyViolation?_text_eq_some_iff {declared : List String} {name : String} {v : Violation} :
    keyViolation? declared (.text name) = some v ↔
      name ∉ declared ∧ v = ⟨[.field name], .isDeclared⟩ := by
  unfold keyViolation?
  by_cases h : name ∈ declared <;> simp [h, eq_comm]

/-- `Schema.closed` reports the keys that are not declared, in the order in which they stand. -/
theorem faithful_closed {declared : List String} {before : Order}
    (htext : ∀ entry ∈ entries, ∃ name, entry.1 = .text name)
    (hbefore : ∀ name other, Precedes declared entries name other →
      before [.field name] [.field other]) :
    Faithful (closed declared entries) (fun _ => OnlyKeys declared entries)
      (fun v => ∃ name value, (.text name, value) ∈ entries ∧ name ∉ declared ∧
        v = ⟨[.field name], .isDeclared⟩) before where
  ok_iff a := by
    have hclosed : closed declared entries = .ok a ↔ (closed declared entries).violations = [] := by
      rw [violations_closed]
      unfold closed
      split
      next h => exact iff_of_true rfl h
      next h => exact iff_of_false nofun h
    rw [hclosed, violations_closed, List.filterMap_eq_nil_iff]
    refine forall₂_congr fun entry hentry => ?_
    obtain ⟨name, hname⟩ := htext entry hentry
    rw [hname, Option.eq_none_iff_forall_ne_some]
    simp only [ne_eq, keyViolation?_text_eq_some_iff]
    simp
  mem_iff v := by
    rw [violations_closed, List.mem_filterMap]
    constructor
    · rintro ⟨⟨key, value⟩, hentry, hv⟩
      obtain ⟨name, rfl⟩ : ∃ name, key = .text name := htext _ hentry
      obtain ⟨hname, rfl⟩ := keyViolation?_text_eq_some_iff.1 hv
      exact ⟨name, value, hentry, hname, rfl⟩
    · rintro ⟨name, value, hentry, hname, rfl⟩
      exact ⟨_, hentry, keyViolation?_text_eq_some_iff.2 ⟨hname, rfl⟩⟩
  ordered := by
    rw [violations_closed, List.pairwise_map, List.pairwise_filterMap,
      List.pairwise_iff_forall_sublist]
    intro entry later hsublist v hv w hw
    obtain ⟨name, hname⟩ := htext entry (hsublist.subset (by simp))
    obtain ⟨other, hother⟩ := htext later (hsublist.subset (by simp))
    rw [hname] at hv
    rw [hother] at hw
    obtain ⟨hnot, rfl⟩ := keyViolation?_text_eq_some_iff.1 hv
    obtain ⟨hnot', rfl⟩ := keyViolation?_text_eq_some_iff.1 hw
    have hkeys := hsublist.map Prod.fst
    rw [List.map_cons, List.map_singleton, hname, hother] at hkeys
    exact hbefore name other (.undeclared hnot hnot' hkeys)
  ne_nil := by
    unfold closed
    split
    next => exact nofun
    next h =>
      intro heq
      exact h (Except.error.inj heq)

end

/-! ## Records -/

theorem record_of_not_map {d : Document} (h : ∀ entries, d ≠ .map entries) (kind : String) :
    record kind d = .broken (.isRecord kind) := by
  cases d with
  | map entries => exact absurd rfl (h entries)
  | _ => rfl

/-- `Schema.record` checks the entries of an object, and finds one thing wrong with any other
document. -/
theorem faithful_record {α : Type} {kind : String} {d : Document}
    {ofEntries : List (Document × Document) → Checked α}
    {describes : List (Document × Document) → α → Prop} {offends : Document → Violation → Prop}
    {before : Document → Order}
    (hentries : ∀ entries, d = .map entries →
      Faithful (ofEntries entries) (describes entries) (offends (.map entries))
        (before (.map entries)))
    (hoffends : ∀ v, offends d v → v = ⟨[], .isRecord kind⟩ ∨ ∃ entries, d = .map entries)
    (hno : (∀ entries, d ≠ .map entries) → offends d ⟨[], .isRecord kind⟩) :
    Faithful (record kind d >>= ofEntries)
      (fun a => ∃ entries, d = .map entries ∧ describes entries a) (offends d) (before d) := by
  by_cases hobject : ∃ entries, d = .map entries
  · obtain ⟨entries, rfl⟩ := hobject
    refine (hentries entries rfl).congr (fun a => ?_) fun _ => Iff.rfl
    simp
  · have habsent : ∀ entries, d ≠ .map entries := fun entries heq => hobject ⟨entries, heq⟩
    rw [record_of_not_map habsent]
    refine Checked.faithful_broken (fun a hdescribes => ?_) fun v => ⟨fun hv => ?_, ?_⟩
    · exact hobject (hdescribes.imp fun _ h => h.1)
    · exact (hoffends v hv).resolve_right hobject
    · rintro rfl
      exact hno habsent

end Schema

end ChatCommands

import ChatCommands.Json

/-!
# Documents that JSON writes down

JSON knows no bytes, moments or sets, and the keys of an object are texts, each of which counts
once. Whatever the reader of JSON yields is such a document (`isJson_of_decode`): a member that is
written again replaces the earlier one, so no key is left twice.
-/

namespace ChatCommands

namespace Document

/-- A document that JSON writes down: no bytes, moments or sets, and the keys of an object are
distinct texts. -/
inductive IsJson : Document → Prop
  | null : IsJson null
  | bool (value : Bool) : IsJson (bool value)
  | int (value : Int) : IsJson (int value)
  | float (value : Float) : IsJson (float value)
  | text (value : String) : IsJson (text value)
  | list {items : List Document} (hitems : ∀ item ∈ items, IsJson item) : IsJson (list items)
  -- an object: the keys are texts, and no key occurs twice
  | map {entries : List (Document × Document)}
    (htext : ∀ entry ∈ entries, ∃ name, entry.1 = text name)
    (hnodup : (entries.map Prod.fst).Nodup) (hvalues : ∀ entry ∈ entries, IsJson entry.2) :
    IsJson (map entries)

section
variable {entries : List (Document × Document)} (h : (Document.map entries).IsJson)
include h

theorem IsJson.text_keys : ∀ entry ∈ entries, ∃ name, entry.1 = .text name := by
  cases h with
  | map htext _ _ => exact htext

theorem IsJson.nodup_keys : (entries.map Prod.fst).Nodup := by
  cases h with
  | map _ hnodup _ => exact hnodup

theorem IsJson.of_mem {key value : Document} (hmem : (key, value) ∈ entries) : value.IsJson := by
  cases h with
  | map _ _ hvalues => exact hvalues _ hmem

end

/-! ## Members that are written again -/

section
variable {entries written : List (Document × Document)} {name : String} {value : Document}

theorem sameKey_text_iff {other : Document} (h : ∃ name, other = text name) (name : String) :
    sameKey other (text name) = true ↔ other = text name := by
  obtain ⟨otherName, rfl⟩ := h
  simp [sameKey]

theorem mem_putEntry (h : ∀ entry ∈ entries, ∃ name, entry.1 = text name)
    {entry : Document × Document} (hentry : entry ∈ putEntry (text name) value entries) :
    entry = (text name, value) ∨ entry ∈ entries := by
  induction entries with
  | nil => exact .inl (List.mem_singleton.1 hentry)
  | cons first rest ih =>
    obtain ⟨key, old⟩ := first
    have hsame := sameKey_text_iff (h (key, old) (by simp)) name
    by_cases hkey : key = text name
    · rw [putEntry, if_pos (hsame.2 hkey), hkey] at hentry
      exact (List.mem_cons.1 hentry).imp_right (List.mem_cons_of_mem _)
    · rw [putEntry, if_neg fun h => hkey (hsame.1 h)] at hentry
      rcases List.mem_cons.1 hentry with rfl | hentry
      · exact .inr List.mem_cons_self
      · exact (ih (fun entry he => h entry (List.mem_cons_of_mem _ he)) hentry).imp_right
          (List.mem_cons_of_mem _)

theorem nodup_putEntry (h : ∀ entry ∈ entries, ∃ name, entry.1 = text name)
    (hnodup : (entries.map Prod.fst).Nodup) :
    ((putEntry (text name) value entries).map Prod.fst).Nodup := by
  induction entries with
  | nil => simp [putEntry]
  | cons first rest ih =>
    obtain ⟨key, old⟩ := first
    have hsame := sameKey_text_iff (h (key, old) (by simp)) name
    have htail : ∀ entry ∈ rest, ∃ name, entry.1 = text name :=
      fun entry hentry => h entry (List.mem_cons_of_mem _ hentry)
    rw [List.map_cons, List.nodup_cons] at hnodup
    by_cases hkey : key = text name
    · rw [putEntry, if_pos (hsame.2 hkey), List.map_cons, List.nodup_cons]
      exact hnodup
    · rw [putEntry, if_neg fun h => hkey (hsame.1 h), List.map_cons, List.nodup_cons]
      refine ⟨?_, ih htail hnodup.2⟩
      -- the key is neither the one that is put nor one of the rest
      intro hmem
      obtain ⟨entry, hentry, heq⟩ := List.mem_map.1 hmem
      rcases mem_putEntry htail hentry with rfl | hentry
      · exact hkey heq.symm
      · exact hnodup.1 (List.mem_map.2 ⟨entry, hentry, heq⟩)

/-- `putEntry` with a text for a key keeps an object an object. -/
theorem isJson_putEntry (h : IsJson (map entries)) (hvalue : IsJson value) :
    IsJson (map (putEntry (text name) value entries)) := by
  cases h with
  | map htext hnodup hvalues =>
    refine .map ?_ (nodup_putEntry htext hnodup) ?_
    · intro entry hentry
      rcases mem_putEntry htext hentry with rfl | hentry
      · exact ⟨name, rfl⟩
      · exact htext entry hentry
    · intro entry hentry
      rcases mem_putEntry htext hentry with rfl | hentry
      · exact hvalue
      · exact hvalues entry hentry

theorem isJson_entriesOf
    (h : ∀ entry ∈ written, (∃ name, entry.1 = text name) ∧ IsJson entry.2) :
    IsJson (map (entriesOf written)) := by
  have hfold (entries : List (Document × Document)) (hentries : IsJson (map entries)) :
      IsJson (map
        (written.foldl (fun entries entry => putEntry entry.1 entry.2 entries) entries)) := by
    induction written generalizing entries with
    | nil => exact hentries
    | cons member later ih =>
      obtain ⟨⟨name, hname⟩, hvalue⟩ := h member List.mem_cons_self
      have hlater := ih fun entry hentry => h entry (List.mem_cons_of_mem _ hentry)
      rw [List.foldl_cons, hname]
      exact hlater _ (isJson_putEntry hentries hvalue)
  exact hfold [] (.map nofun List.nodup_nil nofun)

end

end Document

namespace Json

open Document (IsJson)

/-! ## What is read -/

def Yields {ε α : Type} (property : α → Prop) (outcome : Except ε (α × List Char)) : Prop :=
  ∀ a rest, outcome = .ok (a, rest) → property a

section
variable {ε α β : Type} {property : α → Prop}

theorem yields_ok {a : α} {rest : List Char} (h : property a) :
    Yields property (.ok (a, rest) : Except ε (α × List Char)) := by
  rintro _ _ ⟨⟩
  exact h

theorem yields_error (e : ε) : Yields property (.error e : Except ε (α × List Char)) := nofun

/-- `Yields` passes to a bind, from the property of the first reader to that of the next. -/
theorem Yields.bind {earlier : β → Prop} {first : Except ε (β × List Char)}
    {next : β × List Char → Except ε (α × List Char)} (hfirst : Yields earlier first)
    (hnext : ∀ b rest, earlier b → Yields property (next (b, rest))) :
    Yields property (first >>= next) := by
  cases first with
  | error e => exact yields_error e
  | ok read => exact hnext read.1 read.2 (hfirst read.1 read.2 rfl)

theorem yields_bind {first : Except ε β} {next : β → Except ε (α × List Char)}
    (hnext : ∀ b, Yields property (next b)) : Yields property (first >>= next) := by
  cases first with
  | error e => exact yields_error e
  | ok b => exact hnext b

end

theorem yields_number (start : List Char) : Yields IsJson (number start) := by
  fun_cases number start with
  | case1 => exact yields_error _
  | case2 => exact yields_error _
  | case3 => exact yields_ok (.int _)
  | case4 => exact yields_ok (.float _)

theorem isJson_of_mem_words : ∀ word ∈ words, IsJson word.2 := by
  simp only [words, List.forall_mem_cons, List.not_mem_nil, false_imp_iff, implies_true, and_true]
  exact ⟨.null, .bool _, .bool _, .float _, .float _, .float _⟩

theorem yields_scalar (cs : List Char) : Yields IsJson (scalar cs) := by
  unfold scalar
  split
  next word value hfind => exact yields_ok (isJson_of_mem_words _ (List.mem_of_find?_eq_some hfind))
  next => exact yields_number cs

def AreItems (documents : List Document) : Prop := ∀ item ∈ documents, IsJson item

/-- The members of an object, as they are written. -/
def AreMembers (written : List (Document × Document)) : Prop :=
  ∀ entry ∈ written, (∃ name, entry.1 = .text name) ∧ IsJson entry.2

section
variable {fuel : Nat} (hvalue : ∀ cs, Yields IsJson (value fuel cs))
  (hitems : ∀ cs, Yields AreItems (items fuel cs))
  (hmembers : ∀ cs, Yields AreMembers (members fuel cs))

include hitems hmembers in
theorem yields_value_succ (cs : List Char) : Yields IsJson (value (fuel + 1) cs) := by
  unfold value
  split
  next rest => exact yields_bind fun read => yields_ok (.text _)
  next rest =>
    split
    next => exact yields_ok (.list nofun)
    next => exact (hitems _).bind fun items rest h => yields_ok (.list h)
  next rest =>
    split
    next => exact yields_ok (.map nofun List.nodup_nil nofun)
    next => exact (hmembers _).bind fun entries rest h => yields_ok (Document.isJson_entriesOf h)
  next => exact yields_scalar cs

include hvalue hitems in
theorem yields_items_succ (cs : List Char) : Yields AreItems (items (fuel + 1) cs) := by
  unfold items
  refine (hvalue cs).bind fun item rest hitem => ?_
  simp only
  split
  next => exact yields_ok fun other hother => List.mem_singleton.1 hother ▸ hitem
  next =>
    exact (hitems _).bind fun later rest hlater =>
      yields_ok (List.forall_mem_cons.2 ⟨hitem, hlater⟩)
  next => exact yields_error _

include hvalue hmembers in
theorem yields_members_succ (cs : List Char) : Yields AreMembers (members (fuel + 1) cs) := by
  unfold members
  split
  next =>
    refine yields_bind fun read => yields_bind fun rest => (hvalue rest).bind fun item rest h => ?_
    have hmember : (∃ name, (Document.text read.1, item).1 = .text name) ∧
        IsJson (Document.text read.1, item).2 := ⟨⟨read.1, rfl⟩, h⟩
    simp only
    split
    next => exact yields_ok fun entry hentry => List.mem_singleton.1 hentry ▸ hmember
    next =>
      exact (hmembers _).bind fun later rest hlater =>
        yields_ok (List.forall_mem_cons.2 ⟨hmember, hlater⟩)
    next => exact yields_error _
  next => exact yields_error _

end

theorem yields_value_items_members (fuel : Nat) :
    (∀ cs, Yields IsJson (value fuel cs)) ∧ (∀ cs, Yields AreItems (items fuel cs)) ∧
      ∀ cs, Yields AreMembers (members fuel cs) := by
  induction fuel with
  | zero => exact ⟨fun _ => yields_error _, fun _ => yields_error _, fun _ => yields_error _⟩
  | succ fuel ih =>
    obtain ⟨hvalue, hitems, hmembers⟩ := ih
    exact ⟨yields_value_succ hitems hmembers, yields_items_succ hvalue hitems,
      yields_members_succ hvalue hmembers⟩

theorem isJson_of_document {cs : List Char} {d : Document} (h : document cs = .ok d) :
    IsJson d := by
  unfold document at h
  have hread := (yields_value_items_members (2 * (skipSpace cs).length + 2)).1 (skipSpace cs)
  cases hvalue : value (2 * (skipSpace cs).length + 2) (skipSpace cs) with
  | error stopped =>
    simp only [hvalue] at h
    cases h
  | ok read =>
    simp only [hvalue, bind, Except.bind] at h
    split at h
    · cases h
      exact hread read.1 read.2 hvalue
    · cases h

/-- Whatever `decode` yields is a document that JSON writes down. -/
theorem isJson_of_decode {source : String} {d : Document} (h : decode source = .ok d) :
    IsJson d := by
  unfold decode at h
  simp only at h
  split at h
  · cases h
  · split at h
    next item hdocument =>
      cases h
      exact isJson_of_document hdocument
    next => cases h
    next => cases h

end Json

end ChatCommands

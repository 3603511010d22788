import ChatCommands.Yaml.Meaning

/-!
# What the values of a document are refused for

The documents of nodes are put together from those of their scalars, also through aliases, merged
mappings and mappings that a single value stands for. So a document that keeps the rules of the
format is refused for a text without a value under its tag, or for a mapping that is read as a
moment (`Node.causes_of_document`).
-/

namespace ChatCommands

namespace Yaml

/-! ## Values -/

namespace Valued

/-- Every fault of the value satisfies `kind`. -/
def FailsBy {α : Type} (kind : Fault → Prop) (value : Valued α) : Prop :=
  ∀ f, value = .error f → kind f.fault

variable {α β : Type} {kind : Fault → Prop} {value : Valued α}

theorem failsBy_ok (a : α) : FailsBy kind (.ok a : Valued α) := nofun

theorem failsBy_error {f : DeepFault} (h : kind f.fault) : FailsBy kind (.error f : Valued α) := by
  rintro _ ⟨⟩
  exact h

theorem FailsBy.below (h : FailsBy kind value) : FailsBy kind (Valued.below value) := by
  cases value with
  | ok a => exact failsBy_ok a
  | error f => exact failsBy_error (h f rfl)

theorem FailsBy.map (h : FailsBy kind value) (f : α → β) : FailsBy kind (Except.map f value) := by
  cases value with
  | ok a => exact failsBy_ok (f a)
  | error fault => exact failsBy_error (h fault rfl)

theorem FailsBy.both {second : Valued β} (h : FailsBy kind value) (hsecond : FailsBy kind second) :
    FailsBy kind (value.both second) := by
  cases value with
  | ok a =>
    cases second with
    | ok b => exact failsBy_ok (a, b)
    | error g => exact failsBy_error (hsecond g rfl)
  | error f =>
    cases second with
    | ok b => exact failsBy_error (h f rfl)
    | error g =>
      rw [Valued.both]
      split
      · exact failsBy_error (hsecond g rfl)
      · exact failsBy_error (h f rfl)

theorem failsBy_all {values : List (Valued α)} (h : ∀ value ∈ values, FailsBy kind value) :
    FailsBy kind (Valued.all values) := by
  induction values with
  | nil => exact failsBy_ok []
  | cons value values ih =>
    obtain ⟨hvalue, hothers⟩ := List.forall_mem_cons.1 h
    exact (hvalue.both (ih hothers)).map _

end Valued

/-! ## Parts of documents -/

namespace Node

/-- The nodes that a document consists of. -/
inductive Part (root : Node) : Node → Prop
  | root : Part root root
  | item {anchor : Option String} {tag : Tag} {items : List Node} {item : Node}
    (hsequence : Part root (.sequence anchor tag items)) (hitem : item ∈ items) : Part root item
  | key {anchor : Option String} {tag : Tag} {entries : List (Node × Node)} {key value : Node}
    (hmapping : Part root (.mapping anchor tag entries)) (hentry : (key, value) ∈ entries) :
    Part root key
  | value {anchor : Option String} {tag : Tag} {entries : List (Node × Node)} {key value : Node}
    (hmapping : Part root (.mapping anchor tag entries)) (hentry : (key, value) ∈ entries) :
    Part root value

/-- A text of the document, and a tag under which it is read. The text that stands for a mapping is
read under the tag of the mapping. -/
inductive Spelling (root : Node) : Tag → String → Prop
  | scalar {anchor : Option String} {tag : Tag} {text : String}
    (hscalar : Part root (.scalar anchor tag text)) : Spelling root tag text
  | mapping {anchor own : Option String} {tag ownTag : Tag} {entries : List (Node × Node)}
    {text : String} (hmapping : Part root (.mapping anchor tag entries))
    (hscalar : Part root (.scalar own ownTag text)) : Spelling root tag text

/-- The faults that a document can be refused for. -/
inductive Causes (root : Node) : Fault → Prop
  | malformed : Causes root .malformed
  | spelling {tag : Tag} {text : String} {fault : Fault} (hspelling : root.Spelling tag text)
    (hvalue : ofScalar tag text = .error fault) : Causes root fault
  | moment {anchor : Option String} {entries : List (Node × Node)}
    (hmapping : root.Part (.mapping anchor .timestamp entries)) :
    Causes root (.scalar .momentOfMapping)

end Node

/-! ## Meanings -/

namespace Meaning

open Yaml.Valued (FailsBy failsBy_ok failsBy_error failsBy_all)

/-- Every key and every value of the entries fails by `root.Causes`. -/
def EntriesArise (root : Node) (entries : Entries) : Prop :=
  ∀ entry ∈ entries, FailsBy root.Causes entry.1 ∧ FailsBy root.Causes entry.2

/-- The meaning `m` of a node of the document: all its faults are `root.Causes`. -/
structure Arises (root : Node) (m : Meaning) : Prop where
  text_part : ∀ text ∈ m.text, ∃ anchor tag, root.Part (.scalar anchor tag text)
  document_failsBy : FailsBy root.Causes m.document
  written_arise : ∀ entries ∈ m.written, EntriesArise root entries
  -- the faults of the entries that it contributes
  merged_arise : ∀ entries ∈ m.merged, EntriesArise root entries

variable {root : Node}

theorem failsBy_malformed {α : Type} : FailsBy root.Causes (Valued.faulty .malformed : Valued α) :=
  failsBy_error .malformed

theorem arises_pending : Arises root pending := by
  refine ⟨nofun, failsBy_ok _, ?_, ?_⟩ <;>
  · rintro _ ⟨⟩
    exact List.forall_mem_nil _

theorem failsBy_scalarDocument {tag : Tag} {text : Option String}
    (h : ∀ text' ∈ text, root.Spelling tag text') :
    FailsBy root.Causes (scalarDocument tag text) := by
  cases text with
  | none => exact failsBy_malformed
  | some text =>
    intro f hf
    rw [scalarDocument] at hf
    cases hvalue : ofScalar tag text with
    | ok document =>
      rw [hvalue] at hf
      cases hf
    | error fault =>
      rw [hvalue] at hf
      cases hf
      exact .spelling (h text rfl) hvalue

theorem failsBy_scalarDocument_text (text : Option String) :
    FailsBy root.Causes (scalarDocument .text text) := by
  cases text with
  | none => exact failsBy_malformed
  | some text => exact failsBy_ok (Document.text text)

theorem arises_ofText {anchor : Option String} {tag : Tag} {text : String}
    (hpart : root.Part (.scalar anchor tag text)) : Arises root (ofText tag text) := by
  have hdocument : FailsBy root.Causes (scalarDocument tag (some text)) := by
    refine failsBy_scalarDocument ?_
    rintro _ ⟨⟩
    exact .scalar hpart
  refine ⟨?_, ?_, nofun, nofun⟩
  · rintro _ ⟨⟩
    exact ⟨anchor, tag, hpart⟩
  · rw [ofText]
    split
    · exact hdocument.below
    · exact hdocument

/-! ### Sequences -/

section
variable {items : List Meaning} (hitems : ∀ item ∈ items, Arises root item)
include hitems

theorem failsBy_documents : FailsBy root.Causes (Valued.all (items.map document)) := by
  refine failsBy_all fun value hvalue => ?_
  obtain ⟨item, hitem, rfl⟩ := List.mem_map.1 hvalue
  exact (hitems item hitem).document_failsBy

theorem failsBy_pairs : FailsBy root.Causes (Valued.all (items.map pair)) := by
  refine failsBy_all fun value hvalue => ?_
  obtain ⟨item, hitem, rfl⟩ := List.mem_map.1 hvalue
  unfold pair
  split
  · next key value hwritten =>
    obtain ⟨hkey, hvalue⟩ :=
      (hitems item hitem).written_arise _ hwritten _ (List.mem_singleton_self _)
    exact (hkey.both hvalue).map _
  · exact failsBy_malformed

theorem mergedItems_arise : ∀ entries ∈ mergedItems items, EntriesArise root entries := by
  induction items with
  | nil =>
    rintro _ ⟨⟩
    exact List.forall_mem_nil _
  | cons item items ih =>
    obtain ⟨hitem, hothers⟩ := List.forall_mem_cons.1 hitems
    intro entries hentries
    obtain ⟨later, hlater, hentries⟩ := Option.bind_eq_some_iff.1 hentries
    split at hentries
    · obtain ⟨merged, hmerged, hentries⟩ := Option.bind_eq_some_iff.1 hentries
      cases hentries
      exact List.forall_mem_append.2 ⟨ih hothers later hlater, hitem.merged_arise merged hmerged⟩
    · cases hentries

theorem arises_ofItems (tag : Tag) : Arises root (ofItems tag items) := by
  refine ⟨nofun, ?_, nofun, mergedItems_arise hitems⟩
  simp only [ofItems]
  split
  · exact ((failsBy_documents hitems).map _).below
  · exact ((failsBy_pairs hitems).map _).below
  · exact ((failsBy_pairs hitems).map _).below
  · exact failsBy_malformed.below
  · exact failsBy_malformed.below
  · exact failsBy_malformed

end

/-! ### Mappings -/

section
variable {entries : List (Meaning × Meaning)}
  (hentries : ∀ entry ∈ entries, Arises root entry.1 ∧ Arises root entry.2)

theorem Arises.failsBy_asKey {m : Meaning} (h : Arises root m) : FailsBy root.Causes m.asKey := by
  rw [asKey]
  split
  · exact failsBy_scalarDocument_text m.text
  · split
    · exact failsBy_malformed
    · exact h.document_failsBy

theorem failsBy_contents {flat : Option Entries}
    (h : ∀ entries ∈ flat, EntriesArise root entries) :
    FailsBy root.Causes (contents flat) := by
  cases flat with
  | none => exact failsBy_malformed
  | some entries =>
    refine FailsBy.map (failsBy_all fun value hvalue => ?_) _
    obtain ⟨entry, hentry, rfl⟩ := List.mem_map.1 hvalue
    obtain ⟨hkey, hvalue⟩ := h entries rfl entry hentry
    exact hkey.both hvalue

include hentries

theorem valueText_part : ∀ text ∈ valueText entries,
    ∃ anchor tag, root.Part (.scalar anchor tag text) := by
  intro text htext
  obtain ⟨entry, hfind, htext⟩ := Option.bind_eq_some_iff.1 htext
  exact (hentries entry (List.mem_of_find?_eq_some hfind)).2.text_part text htext

theorem mergedEntries_arise : ∀ merged ∈ mergedEntries entries, EntriesArise root merged := by
  induction entries with
  | nil =>
    rintro _ ⟨⟩
    exact List.forall_mem_nil _
  | cons first entries ih =>
    obtain ⟨hfirst, hothers⟩ := List.forall_mem_cons.1 hentries
    intro merged hmerged
    rw [mergedEntries] at hmerged
    split at hmerged
    · obtain ⟨before, hbefore, hmerged⟩ := Option.bind_eq_some_iff.1 hmerged
      obtain ⟨later, hlater, hmerged⟩ := Option.bind_eq_some_iff.1 hmerged
      cases hmerged
      exact List.forall_mem_append.2
        ⟨hfirst.2.merged_arise before hbefore, ih hothers later hlater⟩
    · exact ih hothers merged hmerged

theorem ownEntries_arise : EntriesArise root (ownEntries entries) := by
  intro entry hentry
  obtain ⟨⟨key, value⟩, hmem, rfl⟩ := List.mem_map.1 hentry
  obtain ⟨hkey, hvalue⟩ := hentries _ (List.mem_filter.1 hmem).1
  exact ⟨hkey.failsBy_asKey, hvalue.document_failsBy⟩

theorem failsBy_mappingDocument {anchor : Option String} {tag : Tag} {written : List (Node × Node)}
    (hmapping : root.Part (.mapping anchor tag written)) :
    FailsBy root.Causes (mappingDocument tag (valueText entries)) := by
  rw [mappingDocument]
  split
  · next hmoment =>
    obtain ⟨rfl, -⟩ := hmoment
    exact failsBy_error (.moment hmapping)
  · refine failsBy_scalarDocument fun text htext => ?_
    obtain ⟨own, ownTag, hscalar⟩ := valueText_part hentries text htext
    exact .mapping hmapping hscalar

theorem arises_ofEntries {anchor : Option String} {tag : Tag} {written : List (Node × Node)}
    (hmapping : root.Part (.mapping anchor tag written)) : Arises root (ofEntries tag entries) := by
  have hflat : ∀ flat ∈ (mergedEntries entries).map (· ++ ownEntries entries),
      EntriesArise root flat := by
    intro flat hmem
    obtain ⟨merged, hmerged, rfl⟩ := Option.map_eq_some_iff.1 hmem
    exact List.forall_mem_append.2
      ⟨mergedEntries_arise hentries merged hmerged, ownEntries_arise hentries⟩
  refine ⟨valueText_part hentries, ?_, ?_, hflat⟩
  · simp only [ofEntries]
    split
    · exact ((failsBy_contents hflat).map _).below
    · exact ((failsBy_contents hflat).map _).below
    · exact failsBy_malformed.below
    · exact failsBy_malformed.below
    · exact failsBy_malformed.below
    · exact failsBy_mappingDocument hentries hmapping
  · rintro _ ⟨⟩ entry hentry
    obtain ⟨⟨key, value⟩, hmem, rfl⟩ := List.mem_map.1 hentry
    exact ⟨(hentries _ hmem).1.document_failsBy, (hentries _ hmem).2.document_failsBy⟩

end

end Meaning

/-! ## Documents -/

namespace Node

open Meaning (Arises arises_pending arises_ofText arises_ofItems arises_ofEntries)

variable {root : Node}

def KnownArise (root : Node) (known : Known) : Prop := ∀ entry ∈ known, entry.2.Arises root

theorem knownArise_nil : KnownArise root [] := List.forall_mem_nil _

theorem KnownArise.add {known : Known} (hknown : KnownArise root known) (anchor : Option String)
    {m : Meaning} (hm : m.Arises root) : KnownArise root (known.add anchor m) := by
  cases anchor with
  | none => exact hknown
  | some name =>
    intro entry hentry
    rcases List.mem_cons.1 hentry with rfl | hentry
    · exact hm
    · exact hknown entry hentry

theorem KnownArise.lookup {known : Known} (hknown : KnownArise root known) {name : String}
    {m : Meaning} (h : known.lookup name = some m) : m.Arises root := by
  obtain ⟨before, behind, rfl, -⟩ := List.lookup_eq_some_iff.1 h
  exact hknown _ (List.mem_append_right _ List.mem_cons_self)

/-! ### Three readings at once

`meaning`, `meaningsOfItems` and `meaningsOfEntries` call one another, so what each of them keeps is
named, with one lemma for every way to put nodes together. -/

section
variable {earlier known : Known}

/-- From known meanings that arise from `root`, `meaning` makes such ones. -/
def NodeArises (root : Node) (earlier known : Known) (node : Node) : Prop :=
  root.Part node → KnownArise root known →
    (meaning earlier known node).1.Arises root ∧ KnownArise root (meaning earlier known node).2

def ItemsArise (root : Node) (earlier known : Known) (items : List Node) : Prop :=
  (∀ item ∈ items, root.Part item) → KnownArise root known →
    (∀ m ∈ (meaningsOfItems earlier known items).1, m.Arises root) ∧
      KnownArise root (meaningsOfItems earlier known items).2

def PairsArise (root : Node) (earlier known : Known) (entries : List (Node × Node)) : Prop :=
  (∀ entry ∈ entries, root.Part entry.1 ∧ root.Part entry.2) → KnownArise root known →
    (∀ entry ∈ (meaningsOfEntries earlier known entries).1,
      entry.1.Arises root ∧ entry.2.Arises root) ∧
      KnownArise root (meaningsOfEntries earlier known entries).2

theorem nodeArises_aliasOf (hearlier : KnownArise root earlier) (name : String) :
    NodeArises root earlier known (.aliasOf name) := by
  intro _ hknown
  refine ⟨?_, hknown⟩
  rw [meaning]
  cases hlookup : known.lookup name with
  | some m => exact hknown.lookup hlookup
  | none =>
    cases hbefore : earlier.lookup name with
    | some m => exact hearlier.lookup hbefore
    | none => exact arises_pending

theorem nodeArises_scalar (anchor : Option String) (tag : Tag) (text : String) :
    NodeArises root earlier known (.scalar anchor tag text) := by
  intro hpart hknown
  rw [meaning]
  exact ⟨arises_ofText hpart, hknown.add anchor (arises_ofText hpart)⟩

theorem nodeArises_sequence {items : List Node} (hitems : ItemsArise root earlier known items)
    (anchor : Option String) (tag : Tag) :
    NodeArises root earlier known (.sequence anchor tag items) := by
  intro hpart hknown
  obtain ⟨harise, hlater⟩ := hitems (fun item => .item hpart) hknown
  have hm := arises_ofItems harise tag
  rw [meaning]
  exact ⟨hm, hlater.add anchor hm⟩

theorem nodeArises_mapping {entries : List (Node × Node)}
    (hentries : PairsArise root earlier known entries) (anchor : Option String) (tag : Tag) :
    NodeArises root earlier known (.mapping anchor tag entries) := by
  intro hpart hknown
  obtain ⟨harise, hlater⟩ :=
    hentries (fun entry hentry => ⟨.key hpart hentry, .value hpart hentry⟩) hknown
  have hm := arises_ofEntries harise hpart
  rw [meaning]
  exact ⟨hm, hlater.add anchor hm⟩

theorem itemsArise_nil : ItemsArise root earlier known [] := by
  intro _ hknown
  rw [meaningsOfItems]
  exact ⟨List.forall_mem_nil _, hknown⟩

theorem itemsArise_cons {item : Node} {items : List Node}
    (hitem : NodeArises root earlier known item)
    (hitems : ItemsArise root earlier (meaning earlier known item).2 items) :
    ItemsArise root earlier known (item :: items) := by
  intro hparts hknown
  obtain ⟨hpart, hothers⟩ := List.forall_mem_cons.1 hparts
  obtain ⟨hfirst, hmiddle⟩ := hitem hpart hknown
  obtain ⟨hrest, hlater⟩ := hitems hothers hmiddle
  rw [meaningsOfItems]
  exact ⟨List.forall_mem_cons.2 ⟨hfirst, hrest⟩, hlater⟩

theorem pairsArise_nil : PairsArise root earlier known [] := by
  intro _ hknown
  rw [meaningsOfEntries]
  exact ⟨List.forall_mem_nil _, hknown⟩

theorem pairsArise_cons {key value : Node} {entries : List (Node × Node)}
    (hkey : NodeArises root earlier known key)
    (hvalue : NodeArises root earlier (meaning earlier known key).2 value)
    (hentries : PairsArise root earlier
      (meaning earlier (meaning earlier known key).2 value).2 entries) :
    PairsArise root earlier known ((key, value) :: entries) := by
  intro hparts hknown
  obtain ⟨⟨hkeyPart, hvaluePart⟩, hothers⟩ := List.forall_mem_cons.1 hparts
  obtain ⟨hfirst, hmiddle⟩ := hkey hkeyPart hknown
  obtain ⟨hsecond, hbehind⟩ := hvalue hvaluePart hmiddle
  obtain ⟨hrest, hlater⟩ := hentries hothers hbehind
  rw [meaningsOfEntries]
  exact ⟨List.forall_mem_cons.2 ⟨⟨hfirst, hsecond⟩, hrest⟩, hlater⟩

/-- By induction on the nodes in the order in which they are marked. -/
theorem nodeArises_of_knownArise (hearlier : KnownArise root earlier) (known : Known)
    (node : Node) :
    NodeArises root earlier known node := by
  refine (meaning.mutual_induct earlier (NodeArises root earlier) (PairsArise root earlier)
    (ItemsArise root earlier) ?aliasOf ?scalar ?sequence ?mapping ?noItems ?items ?noEntries
    ?entries).1 known node
  case aliasOf => exact fun _ name => nodeArises_aliasOf hearlier name
  case scalar => exact fun _ anchor tag text => nodeArises_scalar anchor tag text
  case sequence => exact fun _ anchor tag _ _ _ _ ih => nodeArises_sequence ih anchor tag
  case mapping => exact fun _ anchor tag _ _ _ _ ih => nodeArises_mapping ih anchor tag
  case noItems => exact fun _ => itemsArise_nil
  case items =>
    intro known item items first middle hfirst rest later hrest ihFirst ihRest
    obtain rfl : middle = _ := (congrArg Prod.snd hfirst).symm
    exact itemsArise_cons ihFirst ihRest
  case noEntries => exact fun _ => pairsArise_nil
  case entries =>
    intro known key value entries first middle hfirst second behind hsecond rest later hrest
      ihKey ihValue ihRest
    obtain rfl : middle = _ := (congrArg Prod.snd hfirst).symm
    obtain rfl : behind = _ := (congrArg Prod.snd hsecond).symm
    exact pairsArise_cons ihKey ihValue ihRest

end

theorem arise_unfolded (node : Node) (count : Nat) : KnownArise node (node.unfolded count) := by
  induction count with
  | zero => exact knownArise_nil
  | succ count ih => exact (nodeArises_of_knownArise ih [] node .root knownArise_nil).2

/-- If `document` fails, its fault is one of `Causes`: a mapping read as a moment, a text without a
value under its tag, or a broken rule of the format. -/
theorem causes_of_document {node : Node} {fault : Fault} (h : node.document = .error fault) :
    node.Causes fault := by
  have harises :=
    (nodeArises_of_knownArise (arise_unfolded node unfoldings) [] node .root knownArise_nil).1
  unfold document at h
  cases hvalue : (meaning (node.unfolded unfoldings) [] node).1.document with
  | ok document =>
    rw [hvalue] at h
    cases h
  | error f =>
    rw [hvalue] at h
    cases h
    exact harises.document_failsBy f hvalue

end Node

end Yaml

end ChatCommands

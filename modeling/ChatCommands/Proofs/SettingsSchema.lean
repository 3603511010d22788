import ChatCommands.Proofs.CheckedRecords
import ChatCommands.Settings

/-!
# What settings are accepted

Settings are accepted exactly from documents that fit their schema: an object with no keys but the
declared ones, whose values are of the declared kinds (`Settings.Fits`). What is given is taken
unchanged, and what is left out has its default (`Settings.Describes`). In any other document every
violation is reported, and each once: those of the commands by index, those of the registry, and
then the unknown keys (`Settings.Offends`, `Settings.ReportedBefore`). The main statement is
`Settings.check_accepts_iff_fits`.
-/

namespace ChatCommands

open Checked (Faithful Order)
open Schema (Holds IsText OnlyKeys Precedes)

/-! ## The kind of store -/

theorem Backend.word_injective {a b : Backend} (h : a.word = b.word) : a = b := by
  cases a <;> cases b
  · rfl
  · exact absurd h (by decide)
  · exact absurd h (by decide)
  · rfl

theorem Backend.word_cases (b : Backend) : b.word = "memory" ∨ b.word = "sqlite" := by
  cases b
  · exact .inl rfl
  · exact .inr rfl

/-- `Backend.check` takes exactly the two words. -/
theorem Backend.faithful_check {d : Document} (h : d.IsJson) (before : Order) :
    Faithful (check d) (fun b => d = .text b.word)
      (fun v => (d ≠ .text "memory" ∧ d ≠ .text "sqlite") ∧
        v = ⟨[], .isOneOf ["memory"] "sqlite"⟩) before := by
  by_cases hword : ∃ b : Backend, d = .text b.word
  · obtain ⟨b, rfl⟩ := hword
    have hcheck : check (.text b.word) = .ok b := by cases b <;> rfl
    rw [hcheck]
    apply Checked.faithful_ok
    · intro other
      rw [Document.text.injEq]
      exact ⟨fun heq => (word_injective heq).symm, fun heq => by rw [heq]⟩
    · rintro v ⟨⟨hmemory, hsqlite⟩, -⟩
      rcases b.word_cases with heq | heq
      · exact hmemory (congrArg _ heq)
      · exact hsqlite (congrArg _ heq)
  · have hmemory : d ≠ .text "memory" := fun heq => hword ⟨.memory, heq⟩
    have hsqlite : d ≠ .text "sqlite" := fun heq => hword ⟨.sqlite, heq⟩
    have hcheck : check d = .broken (.isOneOf ["memory"] "sqlite") := by
      cases h with
      | text value =>
        have hvalue : value ≠ "memory" := fun heq => hmemory (congrArg _ heq)
        have hvalue' : value ≠ "sqlite" := fun heq => hsqlite (congrArg _ heq)
        simp [check, Schema.text, hvalue, hvalue']
      | _ => rfl
    rw [hcheck]
    apply Checked.faithful_broken
    · intro b heq
      exact hword ⟨b, heq⟩
    · intro v
      exact and_iff_right ⟨hmemory, hsqlite⟩

/-! ## The description of a registry -/

namespace RegistrySettings

/-- The entries of an object describe a registry. -/
structure Fits (entries : List (Document × Document)) : Prop where
  only_keys : OnlyKeys ["backend", "sqlite_path", "key_prefix"] entries
  backend : ∀ value, (.text "backend", value) ∈ entries →
    value = .text "memory" ∨ value = .text "sqlite"
  sqlitePath : ∀ value, (.text "sqlite_path", value) ∈ entries → IsText value
  keyPrefix : ∀ value, (.text "key_prefix", value) ∈ entries → IsText value

/-- The registry has what the entries give, and the default for what they do not. -/
structure Describes (entries : List (Document × Document)) (s : RegistrySettings) : Prop where
  only_keys : OnlyKeys ["backend", "sqlite_path", "key_prefix"] entries
  backend : Holds "backend" entries (· = .text s.backend.word) (s.backend = default.backend)
  sqlitePath :
    Holds "sqlite_path" entries (· = .text s.sqlitePath) (s.sqlitePath = default.sqlitePath)
  keyPrefix : Holds "key_prefix" entries (· = .text s.keyPrefix) (s.keyPrefix = default.keyPrefix)

/-- What is wrong with a document as the description of a registry. -/
inductive Offends : Document → Violation → Prop
  | notAMapping {d : Document} (h : ∀ entries, d ≠ .map entries) :
    Offends d ⟨[], .isRecord "RegistrySettings"⟩
  | backend {entries : List (Document × Document)} {value : Document}
    (hmem : (.text "backend", value) ∈ entries) (hmemory : value ≠ .text "memory")
    (hsqlite : value ≠ .text "sqlite") :
    Offends (.map entries) ⟨[.field "backend"], .isOneOf ["memory"] "sqlite"⟩
  | text {entries : List (Document × Document)} {name : String} {value : Document}
    (hname : name ∈ ["sqlite_path", "key_prefix"]) (hmem : (.text name, value) ∈ entries)
    (h : ¬IsText value) : Offends (.map entries) ⟨[.field name], .isText⟩
  | unknown {entries : List (Document × Document)} {name : String} {value : Document}
    (hmem : (.text name, value) ∈ entries) (h : name ∉ ["backend", "sqlite_path", "key_prefix"]) :
    Offends (.map entries) ⟨[.field name], .isDeclared⟩

/-- The order in which violations are reported: by fields as they are declared, then by the other
keys as they stand. -/
inductive ReportedBefore : Document → Order
  | keys {entries : List (Document × Document)} {name other : String}
    (h : Precedes ["backend", "sqlite_path", "key_prefix"] entries name other) :
    ReportedBefore (.map entries) [.field name] [.field other]

/-- `check` on the entries of an object. -/
def ofEntries (entries : List (Document × Document)) : Checked RegistrySettings :=
  ((((Schema.field "backend" (some default.backend) Backend.check entries).both
    (Schema.field "sqlite_path" (some default.sqlitePath) Schema.text entries)).both
    (Schema.field "key_prefix" (some default.keyPrefix) Schema.text entries)).both
    (Schema.closed fields entries)).map
    fun (((backend, sqlitePath), keyPrefix), _) => ⟨backend, sqlitePath, keyPrefix⟩

theorem check_eq (d : Document) : check d = Schema.record "RegistrySettings" d >>= ofEntries :=
  congrArg (Schema.record "RegistrySettings" d >>= ·)
    (funext fun _ => Checked.bind_eq_map fun _ => rfl)

section
variable {entries : List (Document × Document)}

/-- Entries describe some registry exactly if they fit. -/
theorem exists_describes_iff (hnodup : (entries.map Prod.fst).Nodup) :
    (∃ s, Describes entries s) ↔ Fits entries := by
  constructor
  · rintro ⟨s, h⟩
    refine ⟨h.only_keys, ?_, ?_, ?_⟩
    · intro value hvalue
      rw [h.backend.given value hvalue]
      exact s.backend.word_cases.imp (congrArg _) (congrArg _)
    · intro value hvalue
      exact ⟨_, h.sqlitePath.given value hvalue⟩
    · intro value hvalue
      exact ⟨_, h.keyPrefix.given value hvalue⟩
  · intro h
    have hword : ∀ value, (.text "backend", value) ∈ entries →
        ∃ b : Backend, value = .text b.word := by
      intro value hvalue
      rcases h.backend value hvalue with heq | heq
      · exact ⟨.memory, heq⟩
      · exact ⟨.sqlite, heq⟩
    obtain ⟨backend, hbackend⟩ := Schema.exists_holds hnodup default.backend hword
    obtain ⟨sqlitePath, hpath⟩ :=
      Schema.exists_holds hnodup default.sqlitePath h.sqlitePath
    obtain ⟨keyPrefix, hprefix⟩ :=
      Schema.exists_holds hnodup default.keyPrefix h.keyPrefix
    exact ⟨⟨backend, sqlitePath, keyPrefix⟩, h.only_keys, hbackend, hpath, hprefix⟩

/-- What is wrong with an object is wrong with one of the fields, or with a key. -/
theorem offends_map_iff (v : Violation) :
    Offends (.map entries) v ↔
      (((∃ value, (.text "backend", value) ∈ entries ∧
          (value ≠ .text "memory" ∧ value ≠ .text "sqlite") ∧
            v = ⟨[.field "backend"], .isOneOf ["memory"] "sqlite"⟩) ∨
        ∃ value, (.text "sqlite_path", value) ∈ entries ∧ ¬IsText value ∧
          v = ⟨[.field "sqlite_path"], .isText⟩) ∨
        ∃ value, (.text "key_prefix", value) ∈ entries ∧ ¬IsText value ∧
          v = ⟨[.field "key_prefix"], .isText⟩) ∨
        ∃ name value, (.text name, value) ∈ entries ∧ name ∉ fields ∧
          v = ⟨[.field name], .isDeclared⟩ := by
  constructor
  · intro hv
    cases hv with
    | notAMapping h => exact absurd rfl (h entries)
    | backend hmem hmemory hsqlite => exact .inl (.inl (.inl ⟨_, hmem, ⟨hmemory, hsqlite⟩, rfl⟩))
    | text hname hmem hno =>
      rcases List.mem_pair.1 hname with rfl | rfl
      · exact .inl (.inl (.inr ⟨_, hmem, hno, rfl⟩))
      · exact .inl (.inr ⟨_, hmem, hno, rfl⟩)
    | unknown hmem hname => exact .inr ⟨_, _, hmem, hname, rfl⟩
  · rintro (((⟨_, hmem, ⟨hmemory, hsqlite⟩, rfl⟩ | ⟨_, hmem, hno, rfl⟩) | ⟨_, hmem, hno, rfl⟩) |
      ⟨_, _, hmem, hname, rfl⟩)
    · exact .backend hmem hmemory hsqlite
    · exact .text (by decide) hmem hno
    · exact .text (by decide) hmem hno
    · exact .unknown hmem hname

/-- `ofEntries` yields the registry that the entries describe, or reports what is wrong. -/
theorem faithful_ofEntries (h : (Document.map entries).IsJson) :
    Faithful (ofEntries entries) (Describes entries) (Offends (.map entries))
      (ReportedBefore (.map entries)) := by
  have hnodup := h.nodup_keys
  have hbackend :
      Faithful (Schema.field "backend" (some default.backend) Backend.check entries) _ _
        (ReportedBefore (.map entries)) :=
    Schema.faithful_plainField hnodup fun value hvalue =>
      Backend.faithful_check (d := value) (h.of_mem hvalue) _
  have htexts (name default : String) :
      Faithful (Schema.field name (some default) Schema.text entries) _ _
        (ReportedBefore (.map entries)) :=
    Schema.faithful_plainField hnodup fun value hvalue =>
      Schema.faithful_text (d := value) (h.of_mem hvalue) _
  have hclosed : Faithful (Schema.closed fields entries) _ _ (ReportedBefore (.map entries)) :=
    Schema.faithful_closed h.text_keys fun name other h => .keys h
  refine (((((hbackend.both (htexts "sqlite_path" default.sqlitePath) ?_).both
    (htexts "key_prefix" default.keyPrefix) ?_).both hclosed ?_).map _).congr ?_ ?_)
  · rintro _ _ ⟨-, -, -, rfl⟩ ⟨-, -, -, rfl⟩
    exact .keys (.declared (by decide))
  · rintro _ _ (⟨-, -, -, rfl⟩ | ⟨-, -, -, rfl⟩) ⟨-, -, -, rfl⟩
    · exact .keys (.declared (by decide))
    · exact .keys (.declared (by decide))
  · rintro _ _ ((⟨-, -, -, rfl⟩ | ⟨-, -, -, rfl⟩) | ⟨-, -, -, rfl⟩) ⟨_, -, -, hname, rfl⟩
    · exact .keys (.mixed (by decide) hname)
    · exact .keys (.mixed (by decide) hname)
    · exact .keys (.mixed (by decide) hname)
  · intro s
    constructor
    · rintro ⟨_, ⟨⟨⟨hbackend, hpath⟩, hprefix⟩, honly⟩, rfl⟩
      exact ⟨honly, hbackend, hpath, hprefix⟩
    · rintro ⟨honly, hbackend, hpath, hprefix⟩
      exact ⟨(((s.backend, s.sqlitePath), s.keyPrefix), ()),
        ⟨⟨⟨hbackend, hpath⟩, hprefix⟩, honly⟩, rfl⟩
  · intro v
    exact (offends_map_iff v).symm

end

theorem faithful_check {d : Document} (h : d.IsJson) :
    Faithful (check d) (fun s => ∃ entries, d = .map entries ∧ Describes entries s) (Offends d)
      (ReportedBefore d) := by
  rw [check_eq]
  refine Schema.faithful_record ?_ (fun v hv => ?_) .notAMapping
  · rintro entries rfl
    exact faithful_ofEntries h
  · cases hv with
    | notAMapping => exact .inl rfl
    | _ => exact .inr ⟨_, rfl⟩

/-- No two places are reported before each other. -/
theorem ReportedBefore.asymm {d : Document} (hd : d.IsJson) {p q : List Place}
    (h : ReportedBefore d p q) : ¬ReportedBefore d q p := by
  intro hswap
  cases h with
  | keys h =>
    cases hswap with
    | keys hswap => exact h.asymm (by decide) hd.nodup_keys hswap

end RegistrySettings

/-! ## Settings -/

namespace Settings

/-- The entries of an object are settings. -/
structure Fits (entries : List (Document × Document)) : Prop where
  only_keys : OnlyKeys ["commands", "registry"] entries
  commands : ∀ value, (.text "commands", value) ∈ entries →
    ∃ paths : List String, value = .list (paths.map .text)
  registry : ∀ value, (.text "registry", value) ∈ entries →
    ∃ inner, value = .map inner ∧ RegistrySettings.Fits inner

/-- The settings have what the entries give, and the default for what they do not. -/
structure Describes (entries : List (Document × Document)) (s : Settings) : Prop where
  only_keys : OnlyKeys ["commands", "registry"] entries
  commands :
    Holds "commands" entries (· = .list (s.commands.map .text)) (s.commands = default.commands)
  registry : Holds "registry" entries
    (fun value => ∃ inner, value = .map inner ∧ RegistrySettings.Describes inner s.registry)
    (s.registry = default.registry)

/-- What is wrong with a document as settings. -/
inductive Offends : Document → Violation → Prop
  | notAMapping {d : Document} (h : ∀ entries, d ≠ .map entries) :
    Offends d ⟨[], .isRecord "AllenConfig"⟩
  | commands {entries : List (Document × Document)} {value : Document}
    (hmem : (.text "commands", value) ∈ entries) (h : ∀ items, value ≠ .list items) :
    Offends (.map entries) ⟨[.field "commands"], .isList⟩
  | command {entries : List (Document × Document)} {items : List Document} {i : Nat}
    {item : Document} (hmem : (.text "commands", .list items) ∈ entries)
    (hitem : items[i]? = some item) (h : ¬IsText item) :
    Offends (.map entries) ⟨[.field "commands", .index i], .isText⟩
  | registry {entries : List (Document × Document)} {value : Document} {v : Violation}
    (hmem : (.text "registry", value) ∈ entries) (h : RegistrySettings.Offends value v) :
    Offends (.map entries) (v.under (.field "registry"))
  | unknown {entries : List (Document × Document)} {name : String} {value : Document}
    (hmem : (.text name, value) ∈ entries) (h : name ∉ ["commands", "registry"]) :
    Offends (.map entries) ⟨[.field name], .isDeclared⟩

/-- The order in which violations are reported: those of the commands by index, those of the
registry in their order, and then the other keys as they stand. -/
inductive ReportedBefore : Document → Order
  | keys {entries : List (Document × Document)} {name other : String} {p q : List Place}
    (h : Precedes ["commands", "registry"] entries name other) :
    ReportedBefore (.map entries) (.field name :: p) (.field other :: q)
  | commands {entries : List (Document × Document)} {i j : Int} (h : i < j) :
    ReportedBefore (.map entries) [.field "commands", .index i] [.field "commands", .index j]
  | registry {entries : List (Document × Document)} {value : Document} {p q : List Place}
    (hmem : (.text "registry", value) ∈ entries)
    (h : RegistrySettings.ReportedBefore value p q) :
    ReportedBefore (.map entries) (.field "registry" :: p) (.field "registry" :: q)

/-- `check` on the entries of an object. -/
def ofEntries (entries : List (Document × Document)) : Checked Settings :=
  (((Schema.field "commands" (some default.commands) (Schema.list Schema.text) entries).both
    (Schema.field "registry" (some default.registry) RegistrySettings.check entries)).both
    (Schema.closed fields entries)).map
    fun ((commands, registry), _) => ⟨commands, registry⟩

theorem check_eq (d : Document) : check d = Schema.record "AllenConfig" d >>= ofEntries :=
  congrArg (Schema.record "AllenConfig" d >>= ·)
    (funext fun _ => Checked.bind_eq_map fun _ => rfl)

section
variable {entries : List (Document × Document)}

/-- Entries describe some settings exactly if they fit. -/
theorem exists_describes_iff (h : (Document.map entries).IsJson) :
    (∃ s, Describes entries s) ↔ Fits entries := by
  have hinner : ∀ inner, (.text "registry", .map inner) ∈ entries →
      ((∃ r, RegistrySettings.Describes inner r) ↔ RegistrySettings.Fits inner) :=
    fun inner hmem =>
      RegistrySettings.exists_describes_iff (h.of_mem hmem).nodup_keys
  constructor
  · rintro ⟨s, hs⟩
    refine ⟨hs.only_keys, ?_, ?_⟩
    · intro value hvalue
      exact ⟨_, hs.commands.given value hvalue⟩
    · intro value hvalue
      obtain ⟨inner, rfl, hregistry⟩ := hs.registry.given value hvalue
      exact ⟨inner, rfl, (hinner inner hvalue).1 ⟨_, hregistry⟩⟩
  · intro hfits
    have hregistry : ∀ value, (.text "registry", value) ∈ entries →
        ∃ r, ∃ inner, value = .map inner ∧ RegistrySettings.Describes inner r := by
      intro value hvalue
      obtain ⟨inner, rfl, hfit⟩ := hfits.registry value hvalue
      obtain ⟨r, hr⟩ := (hinner inner hvalue).2 hfit
      exact ⟨r, inner, rfl, hr⟩
    have hnodup := h.nodup_keys
    obtain ⟨commands, hcommands⟩ :=
      Schema.exists_holds hnodup default.commands hfits.commands
    obtain ⟨registry, hregistry⟩ :=
      Schema.exists_holds hnodup default.registry hregistry
    exact ⟨⟨commands, registry⟩, hfits.only_keys, hcommands, hregistry⟩

/-- What is wrong with an object is wrong with the commands, with the registry or with a key. -/
theorem offends_map_iff (v : Violation) :
    Offends (.map entries) v ↔
      ((∃ value, ∃ w : Violation, (.text "commands", value) ∈ entries ∧
          ((∀ items, value ≠ .list items) ∧ w = ⟨[], .isList⟩ ∨
            ∃ items i item, value = .list items ∧ items[i]? = some item ∧ ¬IsText item ∧
              w = ⟨[.index ((i : Nat) : Int)], .isText⟩) ∧ w.under (.field "commands") = v) ∨
        ∃ value, ∃ w : Violation, (.text "registry", value) ∈ entries ∧
          RegistrySettings.Offends value w ∧
          w.under (.field "registry") = v) ∨
        ∃ name value, (.text name, value) ∈ entries ∧ name ∉ fields ∧
          v = ⟨[.field name], .isDeclared⟩ := by
  constructor
  · intro hv
    cases hv with
    | notAMapping h => exact absurd rfl (h entries)
    | commands hmem hno => exact .inl (.inl ⟨_, _, hmem, .inl ⟨hno, rfl⟩, rfl⟩)
    | command hmem hitem hno =>
      exact .inl (.inl ⟨_, _, hmem, .inr ⟨_, _, _, rfl, hitem, hno, rfl⟩, rfl⟩)
    | registry hmem hw => exact .inl (.inr ⟨_, _, hmem, hw, rfl⟩)
    | unknown hmem hname => exact .inr ⟨_, _, hmem, hname, rfl⟩
  · rintro ((⟨value, _, hmem, (⟨hno, rfl⟩ | ⟨items, i, item, rfl, hitem, hno, rfl⟩), rfl⟩ |
      ⟨value, w, hmem, hw, rfl⟩) | ⟨name, value, hmem, hname, rfl⟩)
    · exact .commands hmem hno
    · exact .command hmem hitem hno
    · exact .registry hmem hw
    · exact .unknown hmem hname

/-- `ofEntries` yields the settings that the entries describe, or reports what is wrong. -/
theorem faithful_ofEntries (h : (Document.map entries).IsJson) :
    Faithful (ofEntries entries) (Describes entries) (Offends (.map entries))
      (ReportedBefore (.map entries)) := by
  have hnodup := h.nodup_keys
  have hcommands :
      Faithful (Schema.field "commands" (some default.commands) (Schema.list Schema.text) entries)
        _ _ (ReportedBefore (.map entries)) :=
    Schema.faithful_field hnodup
      (fun value hvalue => Schema.faithful_list (d := value) (h.of_mem hvalue))
      fun value hvalue p q hpq => by cases hpq with | lt hij => exact .commands hij
  have hregistry :
      Faithful (Schema.field "registry" (some default.registry) RegistrySettings.check entries)
        _ _ (ReportedBefore (.map entries)) :=
    Schema.faithful_field hnodup
      (fun value hvalue => RegistrySettings.faithful_check (d := value) (h.of_mem hvalue))
      fun value hvalue p q hpq => .registry hvalue hpq
  have hclosed : Faithful (Schema.closed fields entries) _ _ (ReportedBefore (.map entries)) :=
    Schema.faithful_closed h.text_keys fun name other h => .keys h
  refine ((((hcommands.both hregistry ?_).both hclosed ?_).map _).congr ?_ ?_)
  · rintro _ _ ⟨_, v, -, -, rfl⟩ ⟨_, w, -, -, rfl⟩
    exact .keys (.declared (by decide))
  · rintro _ _ (⟨_, v, -, -, rfl⟩ | ⟨_, v, -, -, rfl⟩) ⟨_, -, -, hname, rfl⟩
    · exact .keys (.mixed (by decide) hname)
    · exact .keys (.mixed (by decide) hname)
  · intro s
    constructor
    · rintro ⟨_, ⟨⟨hcommands, hregistry⟩, honly⟩, rfl⟩
      exact ⟨honly, hcommands, hregistry⟩
    · rintro ⟨honly, hcommands, hregistry⟩
      exact ⟨((s.commands, s.registry), ()), ⟨⟨hcommands, hregistry⟩, honly⟩, rfl⟩
  · intro v
    exact (offends_map_iff v).symm

end

theorem faithful_check {d : Document} (h : d.IsJson) :
    Faithful (check d) (fun s => ∃ entries, d = .map entries ∧ Describes entries s) (Offends d)
      (ReportedBefore d) := by
  rw [check_eq]
  refine Schema.faithful_record ?_ (fun v hv => ?_) .notAMapping
  · rintro entries rfl
    exact faithful_ofEntries h
  · cases hv with
    | notAMapping => exact .inl rfl
    | _ => exact .inr ⟨_, rfl⟩

/-- No two places are reported before each other. -/
theorem ReportedBefore.asymm {d : Document} (hd : d.IsJson) {p q : List Place}
    (h : ReportedBefore d p q) : ¬ReportedBefore d q p := by
  intro hswap
  cases h with
  | keys h =>
    have hno := h.asymm (by decide) hd.nodup_keys
    cases hswap with
    | keys hswap => exact hno hswap
    | commands => exact hno h
    | registry => exact hno h
  | @commands entries i j h =>
    generalize hp : [Place.field "commands", .index i] = p at hswap
    generalize hq : [Place.field "commands", .index j] = q at hswap
    cases hswap with
    | keys hswap =>
      obtain ⟨rfl, -⟩ : "commands" = _ ∧ _ := by simpa using hp
      obtain ⟨rfl, -⟩ : "commands" = _ ∧ _ := by simpa using hq
      exact hswap.asymm (by decide) hd.nodup_keys hswap
    | @commands _ i' j' hswap =>
      have hi : i = j' := by simpa using hp
      have hj : j = i' := by simpa using hq
      omega
    | registry => simp at hp
  | @registry entries value p' q' hmem h =>
    generalize hp : Place.field "registry" :: p' = p at hswap
    generalize hq : Place.field "registry" :: q' = q at hswap
    cases hswap with
    | keys hswap =>
      obtain ⟨rfl, -⟩ : "registry" = _ ∧ _ := by simpa using hp
      obtain ⟨rfl, -⟩ : "registry" = _ ∧ _ := by simpa using hq
      exact hswap.asymm (by decide) hd.nodup_keys hswap
    | commands => simp at hp
    | registry hmem' hswap =>
      obtain rfl := Schema.eq_of_mem_of_mem hd.nodup_keys hmem hmem'
      obtain rfl : p' = _ := by simpa using hp
      obtain rfl : q' = _ := by simpa using hq
      exact h.asymm (hd.of_mem hmem) hswap

/-! ## The record of settings -/

theorem isJson_toDocument (s : Settings) : s.toDocument.IsJson := by
  have hregistry : s.registry.toDocument.IsJson := by
    apply Document.IsJson.map
    · simp
    · simp
    · simp [Document.IsJson.text]
  have hcommands : (Document.list (s.commands.map .text)).IsJson := by
    apply Document.IsJson.list
    simp [Document.IsJson.text]
  apply Document.IsJson.map
  · simp
  · simp
  · simp [hregistry, hcommands]

theorem describes_toDocument (s : Settings) :
    ∃ entries, s.toDocument = .map entries ∧ Describes entries s := by
  have hregistry : ∃ inner, s.registry.toDocument = .map inner ∧
      RegistrySettings.Describes inner s.registry := by
    refine ⟨_, rfl, ?_, ?_, ?_, ?_⟩
    · simp [OnlyKeys]
    · exact ⟨by simp, fun habsent => absurd (by simp) (habsent (.text s.registry.backend.word))⟩
    · exact ⟨by simp, fun habsent => absurd (by simp) (habsent (.text s.registry.sqlitePath))⟩
    · exact ⟨by simp, fun habsent => absurd (by simp) (habsent (.text s.registry.keyPrefix))⟩
  refine ⟨_, rfl, ?_, ?_, ?_⟩
  · simp [OnlyKeys]
  · exact ⟨by simp, fun habsent => absurd (by simp) (habsent (.list (s.commands.map .text)))⟩
  · refine ⟨?_, fun habsent => absurd (by simp) (habsent s.registry.toDocument)⟩
    simpa using hregistry

/-- `check` takes `toDocument` back. -/
theorem check_toDocument (s : Settings) : check s.toDocument = .ok s :=
  ((faithful_check s.isJson_toDocument).ok_iff s).2 s.describes_toDocument

/-! ## The schema -/

/-- What the check of a document comes to. -/
structure ChecksSchema (d : Document) : Prop where
  accepts_iff : (∃ s, check d = .ok s) ↔ ∃ entries, d = .map entries ∧ Fits entries
  describes : ∀ s, check d = .ok s → ∃ entries, d = .map entries ∧ Describes entries s
  again : ∀ s, check d = .ok s → check s.toDocument = .ok s
  refuses : ∀ found, check d = .error found → found ≠ []
  reports_iff : ∀ found, check d = .error found → ∀ v, v ∈ found ↔ Offends d v
  nodup : ∀ found, check d = .error found → (found.map Violation.path).Nodup
  ordered : ∀ found, check d = .error found →
    (found.map Violation.path).Pairwise (ReportedBefore d)
  determined : ∀ found, check d = .error found → ∀ other : List Violation,
    (∀ v, v ∈ other ↔ Offends d v) → (other.map Violation.path).Pairwise (ReportedBefore d) →
    other = found

/-- `check` accepts a document of JSON exactly if its entries `Fits`. Otherwise it reports every
violation once and in order. Whatever `Json.decode` yields is such a document
(`Json.isJson_of_decode`). -/
theorem check_accepts_iff_fits {d : Document} (h : d.IsJson) : ChecksSchema d := by
  have hcheck := faithful_check h
  have hviolations : ∀ found, check d = .error found → (check d).violations = found :=
    fun found hfound => by rw [hfound]; rfl
  refine ⟨?_, ?_, ?_, ?_, ?_, ?_, ?_, ?_⟩
  · constructor
    · rintro ⟨s, hs⟩
      obtain ⟨entries, rfl, hdescribes⟩ := (hcheck.ok_iff s).1 hs
      exact ⟨entries, rfl, (exists_describes_iff h).1 ⟨s, hdescribes⟩⟩
    · rintro ⟨entries, rfl, hfits⟩
      obtain ⟨s, hdescribes⟩ := (exists_describes_iff h).2 hfits
      exact ⟨s, (hcheck.ok_iff s).2 ⟨entries, rfl, hdescribes⟩⟩
  · intro s hs
    exact (hcheck.ok_iff s).1 hs
  · intro s _
    exact s.check_toDocument
  · rintro found hfound rfl
    exact hcheck.ne_nil hfound
  · intro found hfound v
    rw [← hviolations found hfound]
    exact hcheck.mem_iff v
  · intro found hfound
    rw [← hviolations found hfound]
    apply hcheck.ordered.imp
    rintro p q hbefore rfl
    exact hbefore.asymm h hbefore
  · intro found hfound
    rw [← hviolations found hfound]
    exact hcheck.ordered
  · intro found hfound other hmem hordered
    rw [← hviolations found hfound]
    exact hcheck.eq_violations (fun p q hbefore => hbefore.asymm h) hmem hordered

/-- A document with something wrong in every part of it. -/
def misfit : Document :=
  .map [(.text "zebra", .int 1),
    (.text "registry", .map [(.text "turbo", .bool true), (.text "key_prefix", .int 5),
      (.text "backend", .text "disk"), (.text "alpha", .null)]),
    (.text "commands", .list [.text "echo", .int 7, .null]), (.text "apple", .text "")]

theorem isJson_misfit : misfit.IsJson := by
  have hcommands : (Document.list [.text "echo", .int 7, .null]).IsJson :=
    .list (by simp [Document.IsJson.text, Document.IsJson.int, Document.IsJson.null])
  have hregistry : (Document.map [(.text "turbo", .bool true), (.text "key_prefix", .int 5),
      (.text "backend", .text "disk"), (.text "alpha", .null)]).IsJson :=
    .map (by simp) (by simp)
      (by simp [Document.IsJson.text, Document.IsJson.int, Document.IsJson.null,
        Document.IsJson.bool])
  exact .map (by simp) (by simp)
    (by simp [Document.IsJson.text, Document.IsJson.int, hcommands, hregistry])

theorem check_accepts_iff_fits_of_misfit :
    misfit.IsJson ∧
      check misfit = .error [⟨[.field "commands", .index 1], .isText⟩,
        ⟨[.field "commands", .index 2], .isText⟩,
        ⟨[.field "registry", .field "backend"], .isOneOf ["memory"] "sqlite"⟩,
        ⟨[.field "registry", .field "key_prefix"], .isText⟩,
        ⟨[.field "registry", .field "turbo"], .isDeclared⟩,
        ⟨[.field "registry", .field "alpha"], .isDeclared⟩,
        ⟨[.field "zebra"], .isDeclared⟩, ⟨[.field "apple"], .isDeclared⟩] ∧
      ChecksSchema misfit :=
  ⟨isJson_misfit, rfl, check_accepts_iff_fits isJson_misfit⟩

end Settings

end ChatCommands

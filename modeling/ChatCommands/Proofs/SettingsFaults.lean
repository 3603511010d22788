import ChatCommands.Proofs.NodeFaults
import ChatCommands.Proofs.RunningShells
import ChatCommands.Proofs.ScanFaults
import ChatCommands.Proofs.Utf8Encoding

/-!
# Which files are refused otherwise than as settings

A regular file without usable settings is refused with a failure of the settings, and a run that
meets it ends as misused. Two kinds of file are refused otherwise, whichever readers are used: those
whose bytes encode no text, and those whose text makes the reader fail without reporting it
(`Settings.load_configError_unless_unreported`). The readers of this library fail so for JSON with
an integer of too many digits, and for YAML that keeps the rules of the format but holds a scalar,
an escape or a version without a value (`Settings.origin_of_read`).
-/

namespace ChatCommands

/-! ## Parts of a text -/

namespace Chars

variable {part cs : List Char}

theorem prefix_of_unifyBreaks (h : part <+: unifyBreaks cs) (hpart : '\n' ∉ part) :
    part <+: cs := by
  fun_induction unifyBreaks cs generalizing part with
  | case1 => exact h
  | case2 rest ih =>
    rcases List.prefix_cons_iff.1 h with rfl | ⟨behind, rfl, -⟩
    · exact List.nil_prefix
    · exact absurd List.mem_cons_self hpart
  | case3 c rest _ ih =>
    rcases List.prefix_cons_iff.1 h with rfl | ⟨behind, rfl, hbehind⟩
    · exact List.nil_prefix
    · obtain ⟨hhead, htail⟩ := not_or.1 (mt List.mem_cons.2 hpart)
      have hc : c ≠ '\r' := by
        rintro rfl
        exact hhead rfl
      rw [if_neg hc]
      exact (List.prefix_cons_inj c).2 (ih hbehind htail)

/-- A part without line breaks is the same before and after `unifyBreaks`. -/
theorem infix_of_unifyBreaks (h : part <:+: unifyBreaks cs) (hpart : '\n' ∉ part) :
    part <:+: cs := by
  fun_induction unifyBreaks cs with
  | case1 => exact h
  | case2 rest ih =>
    rcases List.infix_cons_iff.1 h with hstart | hrest
    · rw [← unifyBreaks] at hstart
      exact (prefix_of_unifyBreaks hstart hpart).isInfix
    · exact (ih hrest).trans (suffix_cons_cons _ _ _).isInfix
  | case3 c rest hc ih =>
    rcases List.infix_cons_iff.1 h with hstart | hrest
    · rw [← unifyBreaks.eq_3 c rest hc] at hstart
      exact (prefix_of_unifyBreaks hstart hpart).isInfix
    · exact (ih hrest).trans (List.suffix_cons c rest).isInfix

theorem digit_of_number? {digit? : Char → Option Nat} {base n : Nat}
    (h : number? digit? base cs = some n) : ∀ c ∈ cs, (digit? c).isSome = true := by
  unfold number? at h
  generalize 0 = start at h
  induction cs generalizing start with
  | nil => exact List.forall_mem_nil _
  | cons c cs ih =>
    rw [List.foldlM_cons] at h
    obtain ⟨next, hnext, hrest⟩ := Option.bind_eq_some_iff.1 h
    obtain ⟨d, hd, -⟩ := Option.bind_eq_some_iff.1 hnext
    exact List.forall_mem_cons.2 ⟨by rw [hd]; rfl, ih next hrest⟩

end Chars

namespace Text

theorem toList_unifyBreaks (text : String) :
    (unifyBreaks text).toList = Chars.unifyBreaks text.toList :=
  String.toList_ofList

end Text

namespace Yaml

theorem Fault.Concerns.no_break {part : List Char} {fault : ScalarFault}
    (h : Fault.Concerns part (.scalar fault)) : '\n' ∉ part := by
  cases h with
  | escape letter digits code hletter hcode hlarge =>
    rintro hmem
    rcases List.mem_cons.1 hmem with hmem | hmem
    · cases hmem
    · rcases List.mem_cons.1 hmem with rfl | hmem
      · cases hletter
      · cases Chars.digit_of_number? hcode _ hmem
  | version digits hlimit hdecimal =>
    intro hmem
    cases hdecimal _ hmem

/-- `source` is scanned and parsed to a document with this root. -/
def Describes (source : String) (root : Node) : Prop :=
  ∃ tokens, Token.scan (Chars.unifyBreaks source.toList) = .ok tokens ∧
    root? tokens = some (some root)

/-- If `Yaml.decode` fails with a `ScalarFault`, it is one of a part of the text, or of a part of
its document. -/
theorem decode_eq_scalar {source : String} {fault : ScalarFault}
    (h : decode source = .error (.scalar fault)) :
    (∃ part, part <:+: source.toList ∧ Fault.Concerns part (.scalar fault)) ∨
      ∃ root, Describes source root ∧ root.Causes (.scalar fault) := by
  simp only [decode] at h
  split at h
  · cases hscan : Token.scan (Chars.unifyBreaks source.toList) with
    | error other =>
      rw [hscan] at h
      obtain rfl : other = .scalar fault := Except.error.inj h
      obtain ⟨part, hpart, hconcerns⟩ := (Token.reads_scan _).exists_part _ hscan
      exact .inl ⟨part, Chars.infix_of_unifyBreaks hpart hconcerns.no_break, hconcerns⟩
    | ok tokens =>
      rw [hscan] at h
      cases hroot : root? tokens with
      | none =>
        simp only [bind, Except.bind, hroot] at h
        cases h
      | some document =>
        cases document with
        | none =>
          simp only [bind, Except.bind, hroot] at h
          cases h
        | some root =>
          simp only [bind, Except.bind, hroot] at h
          exact .inr ⟨root, ⟨tokens, hscan, hroot⟩, Node.causes_of_document h⟩
  · cases h

end Yaml

/-! ## Readers -/

namespace Settings

open Iso8601 (utf8)

variable {readers : Readers} {location : Location}

/-- What in a text makes one of the bundled readers raise a failure. -/
inductive Origin (location : Location) (text : String) : Failure → Prop
  | integer (digits : List Char) (hjson : isJson location = true)
    (hdigits : digits <:+: text.toList) (hdecimal : ∀ c ∈ digits, Chars.isDecimal c = true)
    (hlimit : Json.digitLimit < digits.length) :
    Origin location text (.tooManyDigits digits.length)
  -- an escape or a version without a value in YAML
  | token (part : List Char) (fault : Yaml.ScalarFault) (hyaml : isJson location = false)
    (hpart : part <:+: text.toList) (hconcerns : Yaml.Fault.Concerns part (.scalar fault)) :
    Origin location text (.scalar fault)
  -- a part of the document without a value in YAML
  | node (root : Yaml.Node) (fault : Yaml.ScalarFault) (hyaml : isJson location = false)
    (hroot : Yaml.Describes (Text.unifyBreaks text) root) (hcauses : root.Causes (.scalar fault)) :
    Origin location text (.scalar fault)

/-- A failure that a bundled reader raises has an `Origin` in the text. -/
theorem origin_of_read {text : String} {failure : Failure} {hkind : failure.kind ≠ .config}
    (h : read .bundled location (Text.unifyBreaks text) = .error (.raised failure hkind)) :
    Origin location text failure := by
  unfold read at h
  split at h
  · next hjson =>
    cases hdecode : Json.decode (Text.unifyBreaks text) with
    | ok document =>
      simp only [Readers.bundled, hdecode] at h
      cases h
    | error e =>
      simp only [Readers.bundled, hdecode] at h
      cases e with
      | fault cause before => cases h
      | tooManyDigits count =>
        cases h
        obtain ⟨hlimit, digits, hdigits, rfl, hdecimal⟩ := Json.exists_digits_of_decode hdecode
        rw [Text.toList_unifyBreaks] at hdigits
        have hbreak : '\n' ∉ digits := by
          intro hmem
          cases hdecimal _ hmem
        exact .integer digits hjson (Chars.infix_of_unifyBreaks hdigits hbreak) hdecimal hlimit
  · next hyaml =>
    cases hdecode : Yaml.decode (Text.unifyBreaks text) with
    | ok document =>
      simp only [Readers.bundled, hdecode] at h
      cases h
    | error e =>
      simp only [Readers.bundled, hdecode] at h
      cases e with
      | malformed => cases h
      | scalar fault =>
        cases h
        rcases Yaml.decode_eq_scalar hdecode with ⟨part, hpart, hconcerns⟩ | ⟨root, hroot, hcauses⟩
        · rw [Text.toList_unifyBreaks] at hpart
          exact .token part fault (Bool.eq_false_iff.2 hyaml)
            (Chars.infix_of_unifyBreaks hpart hconcerns.no_break) hconcerns
        · exact .node root fault (Bool.eq_false_iff.2 hyaml) hroot hcauses

/-! ## Files -/

/-- The failures of a regular file that are none of the settings. -/
inductive Unreported (readers : Readers) (location : Location) : Node → Failure → Prop
  | undecodable {content : List UInt8} {fault : Utf8.Fault}
    (hdecode : Utf8.decode content = .error fault) :
    Unreported readers location (.file content) (.undecodable fault)
  -- the file is a database, whose bytes encode no text
  | database (table : Table) :
    Unreported readers location (.database table) (.undecodable databaseFault)
  | raised {text : String} {failure : Failure} {hkind : failure.kind ≠ .config}
    (hread : read readers location (Text.unifyBreaks text) = .error (.raised failure hkind)) :
    Unreported readers location (.file (utf8 text.toList)) failure

theorem Unreported.kind_ne {node : Node} {failure : Failure}
    (h : Unreported readers location node failure) : failure.kind ≠ .config := by
  cases h with
  | undecodable => exact nofun
  | database => exact nofun
  | @raised _ _ hkind _ => exact hkind

theorem kind_of_ofDocument {document : Document} {failure : Failure}
    (h : ofDocument location document = .error failure) : failure.kind = .config := by
  simp only [ofDocument] at h
  split at h
  · next hroot =>
    cases h
    split at hroot
    · cases hroot
    · cases hroot
    · cases hroot
      rfl
  · split at h
    · cases h
    · cases h
      rfl

theorem unreported_of_decode {text : String} {failure : Failure} (hkind : failure.kind ≠ .config)
    (h : decode readers location (Text.unifyBreaks text) = .error failure) :
    Unreported readers location (.file (utf8 text.toList)) failure := by
  unfold decode at h
  cases hread : read readers location (Text.unifyBreaks text) with
  | ok document =>
    rw [hread] at h
    cases h
  | error unread =>
    rw [hread] at h
    cases unread with
    | raised failure hraised =>
      cases h
      exact .raised hread
    | reported detail =>
      cases h
      exact absurd rfl hkind

/-- `ofBytes` fails with a kind other than `config` exactly if the failure is `Unreported`. -/
theorem ofBytes_eq_error_iff {content : List UInt8} {failure : Failure} :
    (ofBytes readers location content = .error failure ∧ failure.kind ≠ .config) ↔
      Unreported readers location (.file content) failure := by
  constructor
  · rintro ⟨h, hkind⟩
    unfold ofBytes at h
    cases htext : Utf8.decode content with
    | error fault =>
      rw [htext] at h
      cases h
      exact .undecodable htext
    | ok text =>
      obtain rfl := Utf8.decode_eq_ok_iff.1 htext
      rw [htext] at h
      simp only at h
      cases hdocument : decode readers location (Text.unifyBreaks text) with
      | error other =>
        rw [hdocument] at h
        cases h
        exact unreported_of_decode hkind hdocument
      | ok document =>
        rw [hdocument] at h
        exact absurd (kind_of_ofDocument h) hkind
  · intro h
    refine ⟨?_, h.kind_ne⟩
    cases h with
    | undecodable hdecode => rw [ofBytes, hdecode]
    | @raised text failure hkind hread =>
      have hdocument : decode readers location (Text.unifyBreaks text) = .error failure := by
        rw [decode, hread]
      rw [ofBytes, Utf8.decode_eq_ok_iff.2 rfl]
      simp only [hdocument]
      rfl

/-- How a regular file is read for settings, and what becomes of a run that reads it. -/
structure ReadsRegular (readers : Readers) (files : FileTree) (location : Location) (node : Node) :
    Prop where
  -- the failures of another kind than `config` are exactly the `Unreported` ones
  unreported_iff : ∀ failure, (loadWith readers files location = .error failure ∧
    failure.kind ≠ .config) ↔ Unreported readers location node failure
  -- bytes that are not UTF-8 always fail with `undecodable`
  load_of_undecodable : ∀ content, node = .file content →
    (∀ text : String, content ≠ utf8 text.toList) →
      ∃ fault, loadWith readers files location = .error (.undecodable fault)
  -- a failure of the settings is shown by a run as a misuse; any other one ends it as it is
  performAt_eq : ∀ (catalogue : Catalogue) (console : Console) (task : CommandLine.Task)
    (lines : List String) (h : Host) (failure : Failure),
    h.files = files → loadWith readers files location = .error failure →
      (CommandLine.performAt catalogue readers console task location lines h).1 =
        if failure.kind = .config then (.misuse, none, [.ofConfigFailure failure])
        else (.failure, some failure, [])

/-- For any readers and any regular file, `loadWith` gives settings or a failure of kind `config`,
unless the bytes are not UTF-8 or the reader of the format raises a failure of its own on the text.
-/
theorem load_configError_unless_unreported {files : FileTree} {names : List String} {node : Node}
    (readers : Readers) (hnull : location.hasNull = false)
    (hplace : files.locate location = .node names node) (hregular : node ≠ .directory) :
    ReadsRegular readers files location node := by
  have hload (content : List UInt8) (hnode : node = .file content) :
      loadWith readers files location = ofBytes readers location content := by
    simp only [loadWith, hnull, hplace, hnode]
    rfl
  refine ⟨fun failure => ?_, fun content hnode hcontent => ?_, ?_⟩
  · cases node with
    | directory => exact absurd rfl hregular
    | file content => rw [hload content rfl, ofBytes_eq_error_iff]
    | database table =>
      have hdatabase : loadWith readers files location = .error (.undecodable databaseFault) := by
        simp only [loadWith, hnull, hplace]
        rfl
      rw [hdatabase]
      constructor
      · rintro ⟨⟨⟩, -⟩
        exact .database table
      · rintro ⟨⟩
        exact ⟨rfl, nofun⟩
  · rw [hload content hnode]
    cases htext : Utf8.decode content with
    | ok text => exact absurd (Utf8.decode_eq_ok_iff.1 htext) (hcontent text)
    | error fault => exact ⟨fault, (ofBytes_eq_error_iff.2 (.undecodable htext)).1⟩
  · rintro catalogue console task lines h failure rfl hfails
    have hopen : (CommandLine.openRouter catalogue readers location).run.run h =
        (.error failure, h) := by
      rw [CommandLine.run_openRouter, hfails]
    rw [CommandLine.performAt_of_error hopen, CommandLine.endWith, List.nil_append]

def filesWith (name : String) (content : List UInt8) : FileTree :=
  FileTree.empty.put [name] (.file content)

theorem load_configError_unless_unreported_of_stray_byte :
    (Location.ofText "c.yaml").hasNull = false ∧
      (filesWith "c.yaml" [0xFF]).locate (.ofText "c.yaml") = .node ["c.yaml"] (.file [0xFF]) ∧
      Node.file [0xFF] ≠ .directory ∧
      ReadsRegular .bundled (filesWith "c.yaml" [0xFF]) (.ofText "c.yaml") (.file [0xFF]) := by
  have hnull : (Location.ofText "c.yaml").hasNull = false := by decide +kernel
  have hplace : (filesWith "c.yaml" [0xFF]).locate (.ofText "c.yaml") =
      .node ["c.yaml"] (.file [0xFF]) := by decide +kernel
  exact ⟨hnull, hplace, nofun, load_configError_unless_unreported .bundled hnull hplace nofun⟩

/-- The byte `FF` and the month 13 are refused, and not with a failure of kind `config`. -/
theorem unreported_of_stray_byte_and_month :
    (filesWith "c.yaml" [0xFF]).locate (.ofText "c.yaml") = .node ["c.yaml"] (.file [0xFF]) ∧
      load (filesWith "c.yaml" [0xFF]) (.ofText "c.yaml") =
        .error (.undecodable ⟨.invalidStart, 0xFF, 0, 0⟩) ∧
      load (filesWith "c.yaml" (utf8 "commands: 2001-13-01\n".toList)) (.ofText "c.yaml") =
        .error (.scalar .month) ∧
      (Failure.undecodable ⟨.invalidStart, 0xFF, 0, 0⟩).kind ≠ .config ∧
      (Failure.scalar .month).kind ≠ .config := by
  decide +kernel

end Settings

end ChatCommands

import ChatCommands.Catalogue
import Mathlib.Data.List.Induction

/-!
# What import paths lead to

A path is cut at its first colon into the name of a module and the name of a member. The module is
looked for from the top: every module above it in its dotted name has to be there, and then the
module itself. The member has to be something that can be called, and a class of commands if it is a
class. The main statement, `resolve_ok_or_config_or_relative`, says in these terms what following a
path comes to, for every text and every catalogue. A path is refused as a fault of the
configuration, with one exception: the name of a module that starts with a dot is relative to
nothing, which is a failure of another kind.
-/

namespace ChatCommands

/-! ## Cutting and splitting -/

namespace Chars

variable {separator : Char}

theorem cutAt_of_not_mem {cs : List Char} (h : separator ∉ cs) :
    cutAt separator cs = (cs, none) := by
  induction cs with
  | nil => rfl
  | cons c cs ih =>
    obtain ⟨hne, hcs⟩ := List.ne_and_not_mem_of_not_mem_cons h
    rw [cutAt, if_neg (Ne.symm hne), ih hcs]

theorem cutAt_append_cons {before : List Char} (h : separator ∉ before) (behind : List Char) :
    cutAt separator (before ++ separator :: behind) = (before, some behind) := by
  induction before with
  | nil => simp [cutAt]
  | cons c before ih =>
    obtain ⟨hne, hbefore⟩ := List.ne_and_not_mem_of_not_mem_cons h
    rw [List.cons_append, cutAt, if_neg (Ne.symm hne), ih hbefore]

theorem splitAt_eq_splitOn (separator : Char) (cs : List Char) :
    splitAt separator cs = cs.splitOn separator := by
  induction cs with
  | nil => rfl
  | cons c cs ih =>
    rw [splitAt, ih, List.splitOn_cons_eq_if_modifyHead]
    by_cases h : c = separator
    · simp [h]
    · obtain ⟨piece, pieces, hpieces⟩ :=
        List.exists_cons_of_ne_nil (List.splitOn_ne_nil separator cs)
      simp [h, hpieces]

theorem not_mem_of_mem_splitAt {cs piece : List Char} (h : piece ∈ splitAt separator cs) :
    separator ∉ piece := by
  induction cs generalizing piece with
  | nil =>
    obtain rfl : piece = [] := List.mem_singleton.1 h
    exact List.not_mem_nil
  | cons c cs ih =>
    rw [splitAt] at h
    split at h
    · rcases List.mem_cons.1 h with rfl | h
      · exact List.not_mem_nil
      · exact ih h
    · rename_i hne
      split at h
      · obtain rfl : piece = [c] := List.mem_singleton.1 h
        simpa using Ne.symm hne
      · rename_i first pieces hpieces
        rw [hpieces] at ih
        rcases List.mem_cons.1 h with rfl | h
        · exact List.not_mem_cons_of_ne_of_not_mem (Ne.symm hne) (ih List.mem_cons_self)
        · exact ih (List.mem_cons_of_mem _ h)

end Chars

namespace Text

theorem join_splitAt (text : String) : join "." (splitAt text '.') = text := by
  apply String.toList_inj.1
  have hdot : ".".toList = ['.'] := rfl
  rw [join, splitAt, String.toList_intercalate, List.map_map, hdot]
  simp [Chars.splitAt_eq_splitOn, Function.comp_def]

theorem splitAt_ne_nil (text : String) : splitAt text '.' ≠ [] := by
  simp [splitAt, Chars.splitAt_eq_splitOn]

theorem not_mem_of_mem_splitAt {text piece : String} (h : piece ∈ splitAt text '.') :
    '.' ∉ piece.toList := by
  obtain ⟨cs, hcs, rfl⟩ := List.mem_map.1 h
  rw [String.toList_ofList]
  exact Chars.not_mem_of_mem_splitAt hcs

theorem join_append_singleton {texts : List String} (h : texts ≠ []) (text : String) :
    join "." (texts ++ [text]) = join "." texts ++ "." ++ text := by
  rw [join, String.intercalate_append_of_ne_nil h (List.cons_ne_nil _ _),
    String.intercalate_singleton]
  rfl

end Text

namespace Catalogue

/-! ## Names of modules -/

/-- The module name `above` is what comes in front of a dot of `name`. -/
def IsAbove (above name : String) : Prop := ∃ below, name = above ++ "." ++ below

/-- `IsAbove` with no dot behind the one between the two. -/
def IsParent (parent name : String) : Prop :=
  ∃ part : String, '.' ∉ part.toList ∧ name = parent ++ "." ++ part

theorem eq_append_dot_iff {name above below : String} :
    name = above ++ "." ++ below ↔ name.toList = above.toList ++ '.' :: below.toList := by
  rw [← String.toList_inj]
  simp

theorem not_isAbove_of_not_mem {name : String} (hdot : '.' ∉ name.toList) (above : String) :
    ¬IsAbove above name := by
  rintro ⟨below, heq⟩
  rw [eq_append_dot_iff.1 heq] at hdot
  exact hdot (List.mem_append_right _ List.mem_cons_self)

/-- Of a name cut at two of its dots, the parts in front are the same, or one is above the other. -/
theorem isAbove_or_of_append_eq {s t below other : String}
    (h : s ++ "." ++ below = t ++ "." ++ other) : s = t ∨ IsAbove s t ∨ IsAbove t s := by
  rw [eq_append_dot_iff] at h
  simp only [String.toList_append, List.append_assoc] at h
  rcases List.append_eq_append_iff.1 h with ⟨gap, hlong, hrest⟩ | ⟨gap, hlong, hrest⟩
  · cases gap with
    | nil => exact .inl (String.toList_inj.1 (by simpa using hlong.symm))
    | cons d gap =>
      obtain ⟨rfl, -⟩ := List.cons.inj (show '.' :: below.toList = d :: (gap ++ _) from hrest)
      exact .inr (.inl ⟨String.ofList gap, eq_append_dot_iff.2 (by simpa using hlong)⟩)
  · cases gap with
    | nil => exact .inl (String.toList_inj.1 (by simpa using hlong))
    | cons d gap =>
      obtain ⟨rfl, -⟩ := List.cons.inj (show '.' :: other.toList = d :: (gap ++ _) from hrest)
      exact .inr (.inr ⟨String.ofList gap, eq_append_dot_iff.2 (by simpa using hlong)⟩)

theorem mem_of_append_eq {above between name below part : String}
    (hname : name = above ++ "." ++ between) (h : above ++ "." ++ below = name ++ "." ++ part) :
    '.' ∈ below.toList := by
  subst hname
  rw [eq_append_dot_iff] at h
  have hbelow : below.toList = between.toList ++ '.' :: part.toList := by simpa using h
  rw [hbelow]
  exact List.mem_append_right _ List.mem_cons_self

/-- Above `name ++ "." ++ part` stand `name` and all that is above it. -/
theorem isAbove_append_iff {name part : String} (hdot : '.' ∉ part.toList) (above : String) :
    IsAbove above (name ++ "." ++ part) ↔ above = name ∨ IsAbove above name := by
  constructor
  · rintro ⟨below, heq⟩
    rcases isAbove_or_of_append_eq heq with rfl | ⟨between, hlonger⟩ | habove
    · exact .inl rfl
    · exact absurd (mem_of_append_eq hlonger heq) hdot
    · exact .inr habove
  · rintro (rfl | ⟨below, rfl⟩)
    · exact ⟨part, rfl⟩
    · exact ⟨below ++ "." ++ part, by simp [String.append_assoc]⟩

theorem isParent_append_iff {name part : String} (hdot : '.' ∉ part.toList) (parent : String) :
    IsParent parent (name ++ "." ++ part) ↔ parent = name := by
  constructor
  · rintro ⟨other, hother, heq⟩
    rcases (isAbove_append_iff hdot parent).1 ⟨other, heq⟩ with rfl | ⟨between, hname⟩
    · rfl
    · exact absurd (mem_of_append_eq hname heq.symm) hother
  · rintro rfl
    exact ⟨part, hdot, rfl⟩

/-- `passed` is `name` or above it. -/
def OnWay (passed name : String) : Prop := passed = name ∨ IsAbove passed name

/-- Of two names on the way to a third, one is above the other unless they are the same. -/
theorem isAbove_or_of_onWay {name s t : String} (hs : OnWay s name) (ht : OnWay t name) :
    s = t ∨ IsAbove s t ∨ IsAbove t s := by
  rcases hs with rfl | ⟨below, hs⟩
  · exact ht.imp Eq.symm .inr
  · rcases ht with rfl | ⟨other, ht⟩
    · exact .inr (.inl ⟨below, hs⟩)
    · exact isAbove_or_of_append_eq (hs.symm.trans ht)

/-! ## Importing -/

/-- Every module above `name` can be imported. -/
def HasAbove (c : Catalogue) (name : String) : Prop :=
  ∀ above, IsAbove above name → c.module? above ≠ none

/-- `m` is the module named `name`, and all modules above it are there. -/
structure Holds (c : Catalogue) (name : String) (m : ImportModule) : Prop where
  hasAbove : c.HasAbove name
  module_eq : c.module? name = some m

/-- `missing` is the first module that is missing on the way to `name`. The module right above it is
`blamed` if it is no package. -/
structure Lacks (c : Catalogue) (name missing : String) (blamed : Option String) : Prop where
  onWay : OnWay missing name
  hasAbove : c.HasAbove missing
  module_eq : c.module? missing = none
  -- the module right above it is to blame if it is no package
  blamed_iff : ∀ parent, blamed = some parent ↔
    IsParent parent missing ∧ ∃ m, c.module? parent = some m ∧ m.isPackage = false

variable {c : Catalogue} {name : String}

theorem name_of_module? {m : ImportModule} (h : c.module? name = some m) : m.name = name := by
  simpa using List.find?_some h

theorem Holds.unique {m n : ImportModule} (hm : c.Holds name m) (hn : c.Holds name n) :
    m = n := Option.some.inj (hm.module_eq.symm.trans hn.module_eq)

theorem Holds.not_lacks {m : ImportModule} {missing : String} {blamed : Option String}
    (hm : c.Holds name m) : ¬c.Lacks name missing blamed := by
  intro hlacks
  rcases hlacks.onWay with rfl | habove
  · cases hm.module_eq.symm.trans hlacks.module_eq
  · exact hm.hasAbove missing habove hlacks.module_eq

theorem Lacks.unique {missing other : String} {blamed accused : Option String}
    (h : c.Lacks name missing blamed) (h' : c.Lacks name other accused) :
    missing = other ∧ blamed = accused := by
  have hsame : missing = other := by
    rcases isAbove_or_of_onWay h.onWay h'.onWay with heq | habove | habove
    · exact heq
    · exact absurd h.module_eq (h'.hasAbove missing habove)
    · exact absurd h'.module_eq (h.hasAbove other habove)
  subst hsame
  exact ⟨rfl, Option.ext fun parent => (h.blamed_iff parent).trans (h'.blamed_iff parent).symm⟩

theorem importFrom_append (c : Catalogue) (whole : String) (above : Option ImportModule)
    (parts more : List String) :
    c.importFrom whole above (parts ++ more) =
      (c.importFrom whole above parts).bind fun reached => c.importFrom whole reached more := by
  induction parts generalizing above with
  | nil => rfl
  | cons part parts ih =>
    simp only [List.cons_append, importFrom]
    split
    · exact ih _
    · rfl

/-! ### One more part -/

section
variable {part : String} {m : ImportModule}

theorem Holds.hasAbove_append (hm : c.Holds name m) (hdot : '.' ∉ part.toList) :
    c.HasAbove (name ++ "." ++ part) := by
  intro above habove
  rcases (isAbove_append_iff hdot above).1 habove with rfl | habove
  · rw [hm.module_eq]
    exact Option.some_ne_none m
  · exact hm.hasAbove above habove

theorem Holds.lacks_append (hm : c.Holds name m) (hdot : '.' ∉ part.toList)
    (hnone : c.module? (name ++ "." ++ part) = none) :
    c.Lacks (name ++ "." ++ part) (name ++ "." ++ part)
      (if m.isPackage then none else some name) := by
  refine ⟨.inl rfl, hm.hasAbove_append hdot, hnone, fun parent => ?_⟩
  rw [isParent_append_iff hdot]
  cases hpackage : m.isPackage with
  | true =>
    refine iff_of_false nofun ?_
    rintro ⟨rfl, other, hother, hplain⟩
    obtain rfl : m = other := Option.some.inj (hm.module_eq.symm.trans hother)
    exact Bool.false_ne_true (hplain.symm.trans hpackage)
  | false =>
    refine ⟨fun heq => ?_, fun ⟨heq, _⟩ => by rw [heq]; rfl⟩
    obtain rfl : name = parent := Option.some.inj heq
    exact ⟨rfl, m, hm.module_eq, hpackage⟩

/-- What is missing on the way to a name is missing on the way to all that is under it. -/
theorem Lacks.append {missing : String} {blamed : Option String} (h : c.Lacks name missing blamed)
    (hdot : '.' ∉ part.toList) : c.Lacks (name ++ "." ++ part) missing blamed :=
  ⟨.inr ((isAbove_append_iff hdot missing).2 h.onWay), h.hasAbove, h.module_eq, h.blamed_iff⟩

theorem hasAbove_of_not_mem (c : Catalogue) (hdot : '.' ∉ part.toList) : c.HasAbove part :=
  fun above habove => absurd habove (not_isAbove_of_not_mem hdot above)

theorem lacks_of_not_mem (hdot : '.' ∉ part.toList) (hnone : c.module? part = none) :
    c.Lacks part part none := by
  refine ⟨.inl rfl, c.hasAbove_of_not_mem hdot, hnone, fun parent => iff_of_false nofun ?_⟩
  rintro ⟨⟨other, -, heq⟩, -⟩
  exact not_isAbove_of_not_mem hdot parent ⟨other, heq⟩

end

/-! ### All parts -/

/-- `importFrom` finds the module named by the parts, or the first one that is missing. -/
theorem importFrom_cases (c : Catalogue) (whole : String) {parts : List String} (hne : parts ≠ [])
    (hdots : ∀ part ∈ parts, '.' ∉ part.toList) :
    (∃ m, c.importFrom whole none parts = .ok (some m) ∧ c.Holds (Text.join "." parts) m) ∨
      ∃ missing blamed,
        c.importFrom whole none parts = .error (.cannotImport whole missing blamed) ∧
          c.Lacks (Text.join "." parts) missing blamed := by
  -- the parts are taken in one by one, so the induction is from their end
  induction parts using List.reverseRecOn with
  | nil => exact absurd rfl hne
  | append_singleton parts part ih =>
    have hpart : '.' ∉ part.toList := hdots part (by simp)
    rw [importFrom_append]
    by_cases hnil : parts = []
    · subst hnil
      have hjoin : Text.join "." ([] ++ [part]) = part := String.intercalate_singleton
      rw [hjoin]
      cases hmodule : c.module? part with
      | some m =>
        exact .inl ⟨m, by simp [importFrom, hmodule, Except.bind],
          c.hasAbove_of_not_mem hpart, hmodule⟩
      | none =>
        exact .inr ⟨part, none, by simp [importFrom, hmodule, Except.bind],
          lacks_of_not_mem hpart hmodule⟩
    · rw [Text.join_append_singleton hnil]
      rcases ih hnil fun other hother => hdots other (List.mem_append_left _ hother) with
        ⟨m, hrun, hm⟩ | ⟨missing, blamed, hrun, hlacks⟩
      · rw [hrun]
        cases hmodule : c.module? (Text.join "." parts ++ "." ++ part) with
        | some next =>
          refine .inl ⟨next, ?_, hm.hasAbove_append hpart, hmodule⟩
          simp [importFrom, Except.bind, name_of_module? hm.module_eq, hmodule]
        | none =>
          refine .inr ⟨_, _, ?_, hm.lacks_append hpart hmodule⟩
          simp [importFrom, Except.bind, name_of_module? hm.module_eq, hmodule]
      · exact .inr ⟨missing, blamed, by rw [hrun]; rfl, hlacks.append hpart⟩

/-- `importModule` finds the module of a name that does not start with a dot, or the first one
missing. -/
theorem importModule_cases (c : Catalogue) {name : String}
    (habsolute : Text.startsWith name "." = false) :
    (∃ m, c.importModule name = .ok m ∧ c.Holds name m) ∨
      ∃ missing blamed, c.importModule name = .error (.config (.cannotImport name missing blamed)) ∧
        c.Lacks name missing blamed := by
  have hcases := c.importFrom_cases name (Text.splitAt_ne_nil name) fun _ hpart =>
    Text.not_mem_of_mem_splitAt hpart
  rw [Text.join_splitAt] at hcases
  rw [importModule, if_neg (by simp [habsolute])]
  rcases hcases with ⟨m, hrun, hm⟩ | ⟨missing, blamed, hrun, hlacks⟩
  · exact .inl ⟨m, by rw [hrun], hm⟩
  · exact .inr ⟨missing, blamed, by rw [hrun], hlacks⟩

theorem importModule_of_holds {m : ImportModule} (habsolute : Text.startsWith name "." = false)
    (hm : c.Holds name m) : c.importModule name = .ok m := by
  rcases c.importModule_cases habsolute with ⟨other, hrun, hother⟩ | ⟨missing, blamed, -, hlacks⟩
  · rw [hrun, hother.unique hm]
  · exact absurd hlacks hm.not_lacks

theorem importModule_of_lacks {missing : String} {blamed : Option String}
    (habsolute : Text.startsWith name "." = false) (h : c.Lacks name missing blamed) :
    c.importModule name = .error (.config (.cannotImport name missing blamed)) := by
  rcases c.importModule_cases habsolute with ⟨m, -, hm⟩ | ⟨other, accused, hrun, hother⟩
  · exact absurd h hm.not_lacks
  · obtain ⟨rfl, rfl⟩ := hother.unique h
    exact hrun

end Catalogue

/-! ## Members -/

namespace Member

def isClass : Member → Bool
  | .otherClass => true
  | .callee c => c.kind = .ofClass
  | _ => false

def isCommandClass : Member → Bool
  | .callee c => c.kind = .ofClass
  | _ => false

def isCallable : Member → Bool
  | .otherClass => true
  | .callee _ => true
  | _ => false

theorem eq_otherClass_iff {m : Member} :
    m = otherClass ↔ m.isClass = true ∧ m.isCommandClass = false := by
  cases m with
  | callee c => simp [isClass, isCommandClass]
  | _ => simp [isClass, isCommandClass]

theorem eq_value_iff {m : Member} : m = value ↔ m ≠ nothing ∧ m.isCallable = false := by
  cases m <;> simp [isCallable]

/-- What `resolve` takes is what can be called, and is a class of commands if it is a class. -/
theorem exists_callee_iff {m : Member} :
    (∃ c, m = callee c) ↔
      m.isCallable = true ∧ (m.isClass = true → m.isCommandClass = true) := by
  cases m with
  | callee c => simp [isCallable, isClass, isCommandClass]
  | _ => simp [isCallable, isClass, isCommandClass]

end Member

namespace Catalogue

/-! ## Following a path -/

/-- `path` is `moduleName ++ ":" ++ name`, cut at its first colon, and neither name is empty. -/
structure IsPathTo (path moduleName name : String) : Prop where
  path_eq : path = moduleName ++ ":" ++ name
  -- there is no colon in front of the one between them
  not_mem : ':' ∉ moduleName.toList
  module_ne : moduleName ≠ ""
  name_ne : name ≠ ""

/-- The reasons for which a path is refused with a failure of kind `config`. -/
inductive Refuses (c : Catalogue) (path : String) : ConfigFailure → Prop
  -- the path does not name a module and a member
  | malformed (h : ∀ moduleName name, ¬IsPathTo path moduleName name) :
    Refuses c path (.malformedPath path)
  | missing {moduleName name missing : String} {blamed : Option String}
    (hpath : IsPathTo path moduleName name) (habsolute : Text.startsWith moduleName "." = false)
    (h : c.Lacks moduleName missing blamed) :
    Refuses c path (.cannotImport moduleName missing blamed)
  | noMember {moduleName name : String} {m : ImportModule} (hpath : IsPathTo path moduleName name)
    (habsolute : Text.startsWith moduleName "." = false) (hm : c.Holds moduleName m)
    (h : memberOf m name = .nothing) : Refuses c path (.noMember moduleName name)
  -- the member is a class, but none of commands
  | notACommand {moduleName name : String} {m : ImportModule}
    (hpath : IsPathTo path moduleName name) (habsolute : Text.startsWith moduleName "." = false)
    (hm : c.Holds moduleName m) (hclass : (memberOf m name).isClass = true)
    (h : (memberOf m name).isCommandClass = false) : Refuses c path (.notACommand path)
  | notCallable {moduleName name : String} {m : ImportModule}
    (hpath : IsPathTo path moduleName name) (habsolute : Text.startsWith moduleName "." = false)
    (hm : c.Holds moduleName m) (hmember : memberOf m name ≠ .nothing)
    (h : (memberOf m name).isCallable = false) : Refuses c path (.notCallable path)

/-- How `resolve` can end. -/
inductive Ends (c : Catalogue) (path : String) : Except Failure Callee → Prop
  -- the path leads to a member that can be used
  | leads {moduleName name : String} {m : ImportModule} {callee : Callee}
    (hpath : IsPathTo path moduleName name) (habsolute : Text.startsWith moduleName "." = false)
    (hm : c.Holds moduleName m) (hmember : memberOf m name = .callee callee) :
    Ends c path (.ok callee)
  -- the path is refused as a fault of the configuration
  | refused {failure : ConfigFailure} (h : c.Refuses path failure) :
    Ends c path (.error (.config failure))
  | relative {moduleName name : String} (hpath : IsPathTo path moduleName name)
    (hrelative : Text.startsWith moduleName "." = true) :
    Ends c path (.error (.relativeModule moduleName))

variable {c : Catalogue} {path moduleName name : String}

theorem cutAt_of_isPathTo (hpath : IsPathTo path moduleName name) :
    Text.cutAt path ':' = (moduleName, some name) := by
  have hlist : path.toList = moduleName.toList ++ ':' :: name.toList := by
    rw [hpath.path_eq]
    simp
  rw [Text.cutAt, hlist, Chars.cutAt_append_cons hpath.not_mem]
  simp

/-- `cutAt` cuts a path into the names of a module and of a member, unless one of the two is empty.
-/
theorem isPathTo_of_cutAt (hcut : Text.cutAt path ':' = (moduleName, some name))
    (hmodule : moduleName ≠ "") (hname : name ≠ "") : IsPathTo path moduleName name := by
  by_cases hcolon : ':' ∈ path.toList
  · obtain ⟨before, behind, hpath, hbefore⟩ := List.eq_append_cons_of_mem hcolon
    rw [Text.cutAt, hpath, Chars.cutAt_append_cons hbefore] at hcut
    simp only [Prod.mk.injEq, Option.map_some, Option.some.injEq] at hcut
    obtain ⟨rfl, rfl⟩ := hcut
    refine ⟨String.toList_inj.1 ?_, by simpa using hbefore, hmodule, hname⟩
    rw [hpath]
    simp
  · rw [Text.cutAt, Chars.cutAt_of_not_mem hcolon] at hcut
    simp at hcut

theorem resolve_of_not_isPathTo (h : ∀ moduleName name, ¬IsPathTo path moduleName name) :
    c.resolve path = .error (.config (.malformedPath path)) := by
  rw [resolve]
  rcases hcut : Text.cutAt path ':' with ⟨moduleName, _ | name⟩
  · rfl
  · by_cases hempty : moduleName = "" ∨ name = ""
    · exact if_pos (by simpa using hempty)
    · rw [not_or] at hempty
      exact absurd (isPathTo_of_cutAt hcut hempty.1 hempty.2) (h moduleName name)

theorem resolve_of_isPathTo (hpath : IsPathTo path moduleName name) :
    c.resolve path =
      match c.importModule moduleName with
      | .error failure => .error failure
      | .ok m =>
        match memberOf m name with
        | .nothing => .error (.config (.noMember moduleName name))
        | .value => .error (.config (.notCallable path))
        | .otherClass => .error (.config (.notACommand path))
        | .callee callee => .ok callee := by
  have hempty : ¬(decide (moduleName = "") || decide (name = "")) = true := by
    simp [hpath.module_ne, hpath.name_ne]
  rw [resolve, cutAt_of_isPathTo hpath]
  simp only [if_neg hempty]
  cases c.importModule moduleName with
  | error failure => rfl
  | ok m => cases hmember : memberOf m name <;> simp only [bind, Except.bind, hmember] <;> rfl

theorem ends_of_holds (hpath : IsPathTo path moduleName name)
    (habsolute : Text.startsWith moduleName "." = false) {m : ImportModule}
    (hm : c.Holds moduleName m) : c.Ends path (c.resolve path) := by
  simp only [resolve_of_isPathTo hpath, importModule_of_holds habsolute hm]
  cases hmember : memberOf m name with
  | nothing => exact .refused (.noMember hpath habsolute hm hmember)
  | value =>
    obtain ⟨hthere, hnot⟩ := Member.eq_value_iff.1 hmember
    exact .refused (.notCallable hpath habsolute hm hthere hnot)
  | otherClass =>
    obtain ⟨hclass, hother⟩ := Member.eq_otherClass_iff.1 hmember
    exact .refused (.notACommand hpath habsolute hm hclass hother)
  | callee callee => exact .leads hpath habsolute hm hmember

theorem ends_resolve (c : Catalogue) (path : String) : c.Ends path (c.resolve path) := by
  by_cases hmalformed : ∀ moduleName name, ¬IsPathTo path moduleName name
  · rw [resolve_of_not_isPathTo hmalformed]
    exact .refused (.malformed hmalformed)
  · simp only [not_forall, not_not] at hmalformed
    obtain ⟨moduleName, name, hpath⟩ := hmalformed
    cases habsolute : Text.startsWith moduleName "." with
    | true =>
      rw [resolve_of_isPathTo hpath, importModule, if_pos habsolute]
      exact .relative hpath habsolute
    | false =>
      rcases c.importModule_cases habsolute with ⟨m, -, hm⟩ | ⟨missing, blamed, hrun, hlacks⟩
      · exact ends_of_holds hpath habsolute hm
      · rw [resolve_of_isPathTo hpath, hrun]
        exact .refused (.missing hpath habsolute hlacks)

theorem Refuses.resolve_eq {failure : ConfigFailure} (hrefuses : c.Refuses path failure) :
    c.resolve path = .error (.config failure) := by
  cases hrefuses with
  | malformed hmalformed => exact resolve_of_not_isPathTo hmalformed
  | missing hpath habsolute hlacks =>
    rw [resolve_of_isPathTo hpath, importModule_of_lacks habsolute hlacks]
  | noMember hpath habsolute hm hmember =>
    simp only [resolve_of_isPathTo hpath, importModule_of_holds habsolute hm, hmember]
  | notACommand hpath habsolute hm hclass hother =>
    have hmember := Member.eq_otherClass_iff.2 ⟨hclass, hother⟩
    simp only [resolve_of_isPathTo hpath, importModule_of_holds habsolute hm, hmember]
  | notCallable hpath habsolute hm hthere hnot =>
    have hmember := Member.eq_value_iff.2 ⟨hthere, hnot⟩
    simp only [resolve_of_isPathTo hpath, importModule_of_holds habsolute hm, hmember]

/-- `resolve` has exactly the ends of `Ends`. -/
theorem resolve_eq_iff (c : Catalogue) (path : String) (outcome : Except Failure Callee) :
    c.resolve path = outcome ↔ c.Ends path outcome := by
  constructor
  · rintro rfl
    exact c.ends_resolve path
  · intro hends
    cases hends with
    | leads hpath habsolute hm hmember =>
      simp only [resolve_of_isPathTo hpath, importModule_of_holds habsolute hm, hmember]
    | relative hpath hrelative =>
      rw [resolve_of_isPathTo hpath, importModule, if_pos hrelative]
    | refused hrefuses => exact hrefuses.resolve_eq

/-- The path names a module that is there and a member of it that can be called, which is a class of
commands if it is a class. -/
def IsUsable (c : Catalogue) (path : String) : Prop :=
  ∃ moduleName name m, IsPathTo path moduleName name ∧
    Text.startsWith moduleName "." = false ∧ c.Holds moduleName m ∧
    (memberOf m name).isCallable = true ∧
    ((memberOf m name).isClass = true → (memberOf m name).isCommandClass = true)

/-- The path names a member of a module whose name starts with a dot. -/
def IsRelative (path : String) : Prop :=
  ∃ moduleName name, IsPathTo path moduleName name ∧ Text.startsWith moduleName "." = true

/-- What `resolve` comes to for a path. -/
structure Resolves (c : Catalogue) (path : String) : Prop where
  eq_iff : ∀ outcome, c.resolve path = outcome ↔ c.Ends path outcome
  accepted_iff : (∃ callee, c.resolve path = .ok callee) ↔ c.IsUsable path
  -- every failure is of kind `config`, but for the path of a relative module
  otherKind_iff :
    (∃ failure, c.resolve path = .error failure ∧ failure.kind ≠ .config) ↔ IsRelative path

theorem exists_ok_iff (c : Catalogue) (path : String) :
    (∃ callee, c.resolve path = .ok callee) ↔ c.IsUsable path := by
  constructor
  · rintro ⟨callee, hresolve⟩
    cases (c.resolve_eq_iff path _).1 hresolve with
    | leads hpath habsolute hm hmember =>
      exact ⟨_, _, _, hpath, habsolute, hm, Member.exists_callee_iff.1 ⟨callee, hmember⟩⟩
  · rintro ⟨moduleName, name, m, hpath, habsolute, hm, husable⟩
    obtain ⟨callee, hmember⟩ := Member.exists_callee_iff.2 husable
    exact ⟨callee, (c.resolve_eq_iff path _).2 (.leads hpath habsolute hm hmember)⟩

theorem exists_otherKind_iff (c : Catalogue) (path : String) :
    (∃ failure, c.resolve path = .error failure ∧ failure.kind ≠ .config) ↔ IsRelative path := by
  constructor
  · rintro ⟨failure, hresolve, hkind⟩
    cases (c.resolve_eq_iff path _).1 hresolve with
    | refused => exact absurd rfl hkind
    | relative hpath hrelative => exact ⟨_, _, hpath, hrelative⟩
  · rintro ⟨moduleName, name, hpath, hrelative⟩
    exact ⟨_, (c.resolve_eq_iff path _).2 (.relative hpath hrelative), nofun⟩

/-- Every path `IsUsable` and leads to a callee, or is refused with a failure of kind `config`, or
`IsRelative`. -/
theorem resolve_ok_or_config_or_relative (c : Catalogue) (path : String) : Resolves c path :=
  ⟨c.resolve_eq_iff path, c.exists_ok_iff path, c.exists_otherKind_iff path⟩

/-- A path with a leading dot fails with a failure of kind `type`. -/
theorem escape_of_relative_module :
    program.resolve ".allen:EchoCommand" = .error (.relativeModule ".allen") ∧
      ¬((∃ callee, program.resolve ".allen:EchoCommand" = .ok callee) ∨
        ∃ failure, program.resolve ".allen:EchoCommand" = .error failure ∧
          failure.kind = .config) := by
  have hresolve : program.resolve ".allen:EchoCommand" = .error (.relativeModule ".allen") := rfl
  refine ⟨hresolve, ?_⟩
  rw [hresolve]
  rintro (⟨callee, hcallee⟩ | ⟨failure, hfailure, hkind⟩)
  · cases hcallee
  · cases hfailure
    cases hkind

end Catalogue

end ChatCommands

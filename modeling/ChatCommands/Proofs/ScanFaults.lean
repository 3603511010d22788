import ChatCommands.Proofs.FaultSources
import ChatCommands.Yaml.Token.Lexer

/-!
# What scanning YAML finds fault with

Whatever the scanner does, it goes on in an end of the text (`Lexer.Onward`). So a text that breaks
no rule of the format is refused by the scanner for two things only, and they stand in the text: an
escape of a number that no character has, and a version of too many digits (`Fault.Concerns`,
`Token.reads_scan`).
-/

namespace ChatCommands

namespace Yaml

/-- The part of a text that the scanner finds fault with. -/
inductive Fault.Concerns : List Char → Fault → Prop
  | malformed (part : List Char) : Concerns part .malformed
  -- an escape gives a number that no character has
  | escape (letter : Char) (digits : List Char) (code : Nat)
    (hletter : Quoted.digitsOf? letter = some digits.length)
    (hcode : Chars.number? Chars.hexDigit? 16 digits = some code) (hlarge : 0x10FFFF < code) :
    Concerns ('\\' :: letter :: digits)
      (.scalar (if code ≤ 0x7FFFFFFF then .codePoint else .codeTooLarge))
  -- a number of the version has too many digits
  | version (digits : List Char) (hlimit : Number.digitLimit < digits.length)
    (hdecimal : ∀ c ∈ digits, Chars.isDecimal c = true) :
    Concerns digits (.scalar (.tooManyDigits digits.length))

section
variable {α : Type} {left : α → List Char} {cs rest : List Char}

theorem reads_malformed : Reads Fault.Concerns left cs (.error .malformed) :=
  .error List.nil_infix (.malformed [])

theorem reads_required {read : Option α} (h : ∀ a ∈ read, left a <:+ cs) :
    Reads Fault.Concerns left cs (required read) := by
  cases read with
  | none => exact reads_malformed
  | some a => exact .ok (h a rfl)

theorem reads_required_last (read : Option α) :
    Reads Fault.Concerns (fun _ => []) cs (required read) :=
  reads_required fun _ _ => List.nil_suffix

theorem suffix_of_takeBreak? {c : Char} (h : takeBreak? cs = some (c, rest)) : rest <:+ cs := by
  cases cs with
  | nil => cases h
  | cons head cs =>
    rw [takeBreak?] at h
    split at h
    · cases h
      exact List.suffix_cons _ _
    · cases h

end

/-! ## Scalars in quotes -/

namespace Quoted

variable {cs rest : List Char}

theorem suffix_of_emptyLines? {fuel : Nat} {breaks : List Char}
    (h : emptyLines? fuel cs = some (breaks, rest)) : rest <:+ cs := by
  induction fuel generalizing cs breaks rest with
  | zero => cases h
  | succ fuel ih =>
    simp only [emptyLines?] at h
    split at h
    · cases h
    · split at h
      · cases h
        exact List.dropWhile_suffix _
      · next first later hbreak =>
        obtain ⟨⟨more, behind⟩, hmore, heq⟩ := Option.map_eq_some_iff.1 h
        cases heq
        exact ((ih hmore).trans (suffix_of_takeBreak? hbreak)).trans (List.dropWhile_suffix _)

theorem characterOf_cases (code : Nat) :
    (∃ c, characterOf code = .ok c) ∨ 0x10FFFF < code ∧ characterOf code =
      .error (.scalar (if code ≤ 0x7FFFFFFF then .codePoint else .codeTooLarge)) := by
  by_cases hvalid : code.isValidChar
  · exact .inl ⟨_, dif_pos hvalid⟩
  · by_cases hsmall : code ≤ 0x10FFFF
    · exact .inl ⟨_, (dif_neg hvalid).trans (if_pos hsmall)⟩
    · refine .inr ⟨Nat.lt_of_not_le hsmall, ?_⟩
      rw [characterOf, dif_neg hvalid, if_neg hsmall]
      split <;> rfl

theorem reads_escape (cs : List Char) :
    Reads Fault.Concerns Prod.snd ('\\' :: cs) (escape cs) := by
  fun_cases escape cs with
  | case2 c rest =>
    exact .ok (suffix_cons_cons _ c rest)
  | case5 c rest count hcount _ _ code hcode hlength =>
    rcases characterOf_cases code with ⟨character, hcharacter⟩ | ⟨hlarge, hcharacter⟩
    · rw [hcharacter]
      exact .ok ((List.drop_suffix count rest).trans (suffix_cons_cons _ c rest))
    · have hdigits : count = (rest.take count).length := by
        rw [List.length_take] at hlength ⊢
        omega
      have hpart : '\\' :: c :: rest.take count <+: '\\' :: c :: rest :=
        ⟨rest.drop count, by rw [List.cons_append, List.cons_append, List.take_append_drop]⟩
      rw [hcharacter]
      exact .error hpart.isInfix
        (.escape c _ code (hcount.trans (congrArg some hdigits)) hcode hlarge)
  | case7 c rest _ _ _ breaks behind hbreaks =>
    exact .ok ((suffix_of_emptyLines? hbreaks).trans (suffix_cons_cons _ c rest))
  | _ => exact reads_malformed

theorem reads_gap (cs : List Char) : Reads Fault.Concerns Prod.snd cs (gap cs) := by
  fun_cases gap cs with
  | case2 => exact .ok (List.dropWhile_suffix _)
  | case4 =>
    rename_i hbreak _ _ hbreaks
    exact .ok (((suffix_of_emptyLines? hbreaks).trans (suffix_of_takeBreak? hbreak)).trans
      (List.dropWhile_suffix _))
  | _ => exact reads_malformed

theorem reads_readFrom (quote : Char) (fuel : Nat) (cs : List Char) :
    Reads Fault.Concerns Prod.snd cs (readFrom quote fuel cs) := by
  induction fuel generalizing cs with
  | zero => exact reads_malformed
  | succ fuel ih =>
    cases cs with
    | nil => exact reads_malformed
    | cons c rest =>
      have hrest : rest <:+ c :: rest := List.suffix_cons _ _
      simp only [readFrom]
      split
      · exact ((ih rest.tail).keep _).mono ((List.tail_suffix _).trans hrest)
      · split
        · exact .ok hrest
        · split
          · next hescape =>
            obtain rfl : c = '\\' := by simp_all
            exact (reads_escape rest).bind fun piece => (ih piece.2).keep _
          · split
            · exact (reads_gap (c :: rest)).bind fun piece => (ih piece.2).keep _
            · exact ((ih rest).keep _).mono hrest

theorem reads_read (quote : Char) (cs : List Char) :
    Reads Fault.Concerns Prod.snd cs (Quoted.read quote cs) :=
  reads_readFrom quote _ cs

end Quoted

/-! ## Directives -/

theorem reads_takeNumber (cs : List Char) : Reads Fault.Concerns Prod.snd cs (takeNumber cs) := by
  simp only [takeNumber]
  split
  · exact reads_malformed
  · split
    · next hlimit =>
      exact .error (List.takeWhile_prefix _).isInfix
        (.version _ hlimit (List.all_eq_true.1 List.all_takeWhile))
    · exact (reads_required fun n _ => List.dropWhile_suffix _).bind fun n =>
        .ok (List.suffix_refl _)

theorem reads_takeVersion (cs : List Char) :
    Reads Fault.Concerns (fun _ => []) cs (takeVersion cs) := by
  refine Reads.bind ((reads_takeNumber _).mono (List.dropWhile_suffix _)) fun ⟨major, rest⟩ => ?_
  simp only
  split
  · next behind =>
    refine Reads.mono ((reads_takeNumber behind).bind fun ⟨minor, rest⟩ => ?_)
      (List.suffix_cons _ _)
    simp only
    split
    · exact .ok List.nil_suffix
    · exact reads_malformed
  · exact reads_malformed

theorem suffix_of_takeName? {cs rest : List Char} {name : String}
    (h : takeName? cs = some (name, rest)) : rest <:+ cs := by
  simp only [takeName?] at h
  split at h
  · cases h
  · cases h
    exact List.dropWhile_suffix _

theorem reads_directive (cs : List Char) :
    Reads Fault.Concerns (fun _ => []) cs (Directive.read cs) := by
  have hname : Reads Fault.Concerns Prod.snd cs (required (takeName? cs)) :=
    reads_required fun _ h => suffix_of_takeName? h
  have hend (directive : Directive × List Char) :
      Reads Fault.Concerns (fun _ => []) []
        (do return (directive.1, ← required (finishLine? directive.2))) :=
    (reads_required_last _).bind fun _ => .ok List.nil_suffix
  refine hname.bind fun ⟨name, rest⟩ => ?_
  simp only
  split
  · split
    · exact (reads_takeVersion rest).bind hend
    · split
      · exact (reads_required_last _).bind hend
      · exact (hend _).mono List.nil_suffix
  · exact reads_malformed

/-! ## The lexer -/

namespace Cursor

theorem rest_advance_suffix (c : Cursor) : c.advance.rest <:+ c.rest := by
  unfold advance
  split
  · exact List.suffix_refl _
  · next head rest hrest =>
    rw [hrest]
    split <;> exact List.suffix_cons _ _

theorem rest_skip_suffix (c : Cursor) (count : Nat) : (c.skip count).rest <:+ c.rest := by
  induction count generalizing c with
  | zero => exact List.suffix_refl _
  | succ count ih => exact (ih c.advance).trans c.rest_advance_suffix

end Cursor

namespace Lexer

/-- `later` stands further on in the text than `l`, or at the same place. -/
def Onward (l later : Lexer) : Prop := later.cursor.rest <:+ l.cursor.rest

/-- If `outcome` is a lexer, it stands further on. -/
def MovesOn (l : Lexer) (outcome : Option Lexer) : Prop := ∀ later ∈ outcome, l.Onward later

variable {l middle later : Lexer}

theorem onward_of_cursor_eq (h : later.cursor = l.cursor) : l.Onward later := by
  simp only [Onward, h, List.suffix_refl]

theorem Onward.trans (hfirst : l.Onward middle) (hsecond : middle.Onward later) : l.Onward later :=
  List.IsSuffix.trans hsecond hfirst

theorem Onward.movesOn (h : l.Onward later) : l.MovesOn (some later) := by
  rintro _ ⟨⟩
  exact h

theorem MovesOn.bind {first : Option Lexer} {next : Lexer → Option Lexer}
    (hfirst : l.MovesOn first) (hnext : ∀ middle : Lexer, middle.MovesOn (next middle)) :
    l.MovesOn (first >>= next) := by
  intro later hlater
  obtain ⟨middle, hmiddle, hlater⟩ := Option.bind_eq_some_iff.1 hlater
  exact (hfirst middle hmiddle).trans (hnext middle later hlater)

theorem movesOn_bind {α : Type} {read : Option α} {next : α → Option Lexer}
    (hnext : ∀ a, l.MovesOn (next a)) : l.MovesOn (read >>= next) := by
  intro later hlater
  obtain ⟨a, -, hlater⟩ := Option.bind_eq_some_iff.1 hlater
  exact hnext a later hlater

theorem movesOn_none : l.MovesOn none := nofun

/-! ### Steps that stay in place -/

theorem cursor_setPossibleKey (l : Lexer) (key : Option PossibleKey) :
    (l.setPossibleKey key).cursor = l.cursor := by
  unfold setPossibleKey
  split <;> rfl

theorem cursor_closeWhile (isClosed : Nat → Bool) (l : Lexer) (columns : List Nat) :
    (closeWhile isClosed l columns).cursor = l.cursor := by
  induction columns generalizing l with
  | nil => rfl
  | cons column outer ih =>
    unfold closeWhile
    split
    · exact ih (l.emit .blockEnd)
    · rfl

theorem cursor_closeRightOf (l : Lexer) (column : Nat) :
    (l.closeRightOf column).cursor = l.cursor := by
  unfold closeRightOf
  split
  · rfl
  · exact cursor_closeWhile _ l _

theorem cursor_closeAll (l : Lexer) : l.closeAll.cursor = l.cursor := by
  unfold closeAll
  split
  · rfl
  · exact cursor_closeWhile _ l _

theorem cursor_openBlock (l : Lexer) (token : Token) : (l.openBlock token).cursor = l.cursor := by
  simp only [openBlock]
  split <;> rfl

theorem movesOn_forgetKey (l : Lexer) : l.MovesOn l.forgetKey := by
  unfold forgetKey
  split
  · split
    · exact movesOn_none
    · exact (onward_of_cursor_eq (cursor_setPossibleKey l none)).movesOn
  · exact (onward_of_cursor_eq rfl).movesOn

theorem movesOn_saveKey (l : Lexer) : l.MovesOn l.saveKey := by
  unfold saveKey
  split
  · exact l.movesOn_forgetKey.bind fun middle =>
      (onward_of_cursor_eq (cursor_setPossibleKey _ _)).movesOn
  · exact (onward_of_cursor_eq rfl).movesOn

theorem movesOn_forgetStaleKeys (l : Lexer) : l.MovesOn l.forgetStaleKeys :=
  movesOn_bind fun _ => movesOn_bind fun _ => (onward_of_cursor_eq rfl).movesOn

/-! ### Steps to the text behind -/

theorem onward_moveTo (l : Lexer) (rest : List Char) : l.Onward (l.moveTo rest) :=
  l.cursor.rest_skip_suffix _

theorem movesOn_take (l : Lexer) (token : Token) (rest : List Char) (may : Bool) :
    l.MovesOn (some (((l.emit token).moveTo rest).allowKey may)) :=
  Onward.movesOn ((l.emit token).onward_moveTo rest)

theorem movesOn_takeOuter (token : Token) (rest : List Char) :
    l.MovesOn (l.takeOuter token rest) := by
  refine MovesOn.bind ?_ fun middle => middle.movesOn_take _ _ _
  intro middle hmiddle
  exact (onward_of_cursor_eq l.cursor_closeAll).trans (l.closeAll.movesOn_forgetKey middle hmiddle)

theorem movesOn_takeOpening (token : Token) (rest : List Char) :
    l.MovesOn (l.takeOpening token rest) :=
  l.movesOn_saveKey.bind fun middle => Onward.movesOn ((middle.emit token).onward_moveTo rest)

theorem movesOn_takeClosing (token : Token) (rest : List Char) :
    l.MovesOn (l.takeClosing token rest) := by
  refine l.movesOn_forgetKey.bind fun middle => ?_
  split
  · exact movesOn_none
  · exact Onward.movesOn ((middle.emit token).onward_moveTo rest)

theorem movesOn_takeComma (rest : List Char) : l.MovesOn (l.takeComma rest) :=
  l.movesOn_forgetKey.bind fun middle => middle.movesOn_take _ _ _

theorem movesOn_forgetKey_openBlock (block : Token) :
    l.MovesOn (l.openBlock block).forgetKey := fun middle hmiddle =>
  (onward_of_cursor_eq (l.cursor_openBlock block)).trans
    ((l.openBlock block).movesOn_forgetKey middle hmiddle)

theorem movesOn_takeSign (block token : Token) (rest : List Char) :
    l.MovesOn (l.takeSign block token rest) := by
  unfold takeSign
  split
  · exact l.movesOn_forgetKey.bind fun middle => middle.movesOn_take _ _ _
  · split
    · exact (movesOn_forgetKey_openBlock block).bind fun middle => middle.movesOn_take _ _ _
    · exact movesOn_none

theorem movesOn_takeColon (rest : List Char) : l.MovesOn (l.takeColon rest) := by
  unfold takeColon
  split
  · next key _ =>
    refine Onward.movesOn ((onward_of_cursor_eq (l.cursor_setPossibleKey none)).trans ?_)
    exact onward_moveTo _ rest
  · split
    · exact l.movesOn_take _ _ _
    · split
      · exact (movesOn_forgetKey_openBlock _).bind fun middle => middle.movesOn_take _ _ _
      · exact movesOn_none

theorem movesOn_takeNode (token : Token) (rest : List Char) : l.MovesOn (l.takeNode token rest) :=
  l.movesOn_saveKey.bind fun middle => middle.movesOn_take _ _ _

theorem movesOn_takeBlock (isFolded : Bool) (rest : List Char) :
    l.MovesOn (l.takeBlock isFolded rest) :=
  l.movesOn_forgetKey.bind fun middle => movesOn_bind fun _ => middle.movesOn_take _ _ _

theorem movesOn_takePlain : l.MovesOn l.takePlain :=
  (movesOn_takeNode _ _).bind fun _ => (onward_of_cursor_eq rfl).movesOn

theorem movesOn_takeToken (c : Char) (rest : List Char) : l.MovesOn (l.takeToken c rest) := by
  unfold takeToken
  split
  · exact movesOn_takeOuter _ _
  · split
    · exact movesOn_takeOpening _ _
    · exact movesOn_takeOpening _ _
    · exact movesOn_takeClosing _ _
    · exact movesOn_takeClosing _ _
    · exact movesOn_takeComma _
    · exact movesOn_bind fun _ => movesOn_takeNode _ _
    · exact movesOn_bind fun _ => movesOn_takeNode _ _
    · exact movesOn_bind fun _ => movesOn_takeNode _ _
    · repeat' split
      · exact movesOn_takeSign _ _ _
      · exact movesOn_takeSign _ _ _
      · exact movesOn_takeColon _
      · exact movesOn_takeBlock _ _
      · exact movesOn_takeBlock _ _
      · exact movesOn_takePlain
      · exact movesOn_none

/-! ### Runs -/

/-- A lexer is left behind what it has read of `cs`. -/
abbrev ReadsOn (cs : List Char) (outcome : Except Fault Lexer) : Prop :=
  Reads Fault.Concerns (fun l => l.cursor.rest) cs outcome

theorem MovesOn.reads_required {outcome : Option Lexer} (h : l.MovesOn outcome) :
    ReadsOn l.cursor.rest (required outcome) :=
  Yaml.reads_required h

theorem reads_takeQuoted {quote : Char} {rest : List Char} (hrest : rest <:+ l.cursor.rest) :
    ReadsOn l.cursor.rest (l.takeQuoted quote rest) := by
  unfold takeQuoted
  split
  · exact reads_malformed
  · next middle hmiddle =>
    have honward := l.movesOn_saveKey middle hmiddle
    refine ((Quoted.reads_read quote rest).mono hrest).bind_same fun ⟨text, behind⟩ => .ok ?_
    exact honward.trans ((middle.emit _).onward_moveTo behind)

theorem reads_takeDirective {rest : List Char} (hrest : rest <:+ l.cursor.rest) :
    ReadsOn l.cursor.rest (l.takeDirective rest) :=
  ((reads_directive rest).mono hrest).bind_same fun _ =>
    MovesOn.reads_required (movesOn_takeOuter _ _)

theorem reads_step {c : Char} {rest : List Char} (hrest : l.cursor.rest = c :: rest) :
    ReadsOn l.cursor.rest (l.step c rest) := by
  have hsuffix : rest <:+ l.cursor.rest := hrest ▸ List.suffix_cons c rest
  unfold step
  split
  · exact reads_takeQuoted hsuffix
  · split
    · exact reads_takeDirective hsuffix
    · exact (movesOn_takeToken c rest).reads_required

theorem onward_toNextToken (l : Lexer) : l.Onward l.toNextToken := by
  have hplace (crosses : Bool) (rest : List Char) :
      l.Onward (if crosses = true then (l.moveTo rest).allowKey true else l.moveTo rest) := by
    split <;> exact l.onward_moveTo rest
  exact hplace _ _

theorem reads_run (fuel : Nat) (l : Lexer) :
    Reads Fault.Concerns (fun _ => []) l.cursor.rest (run fuel l) := by
  induction fuel generalizing l with
  | zero => exact reads_malformed
  | succ fuel ih =>
    simp only [run]
    split
    · exact reads_malformed
    · next fresh hfresh =>
      have honward := l.onward_toNextToken.trans
        (l.toNextToken.movesOn_forgetStaleKeys fresh hfresh)
      have hclosed := honward.trans
        (onward_of_cursor_eq (fresh.cursor_closeRightOf fresh.cursor.column))
      refine Reads.mono ?_ hclosed
      split
      · exact (reads_required_last _).bind_same fun _ => .ok List.nil_suffix
      · next c rest hrest => exact (reads_step hrest).bind ih

end Lexer

theorem Token.reads_scan (cs : List Char) :
    Reads Fault.Concerns (fun _ => []) cs (Token.scan cs) :=
  Lexer.reads_run _ (Lexer.start cs)

end Yaml

end ChatCommands

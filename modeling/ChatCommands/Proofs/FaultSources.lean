import ChatCommands.Json

/-!
# Where the faults of a text come from

A reader takes the start of a text and leaves an end of it. So whatever it finds fault with stands
in the text (`Reads`), however deep in the reading it is found (`Reads.bind`). In JSON this shows
that a number of too many digits stands in the text that is refused for it
(`Json.exists_digits_of_decode`).
-/

namespace ChatCommands

/-! ## Readers -/

theorem suffix_cons_cons {α : Type} (a b : α) (l : List α) : l <:+ a :: b :: l :=
  (List.suffix_cons b l).trans (List.suffix_cons a (b :: l))

/-- How a reader may end at the start of `cs`: it leaves an end of the text, or its fault `concerns`
a part of the text. -/
structure Reads {ε α : Type} (concerns : List Char → ε → Prop) (left : α → List Char)
    (cs : List Char) (outcome : Except ε α) : Prop where
  left_suffix : ∀ a, outcome = .ok a → left a <:+ cs
  exists_part : ∀ e, outcome = .error e → ∃ part, part <:+: cs ∧ concerns part e

namespace Reads

variable {ε α β : Type} {concerns : List Char → ε → Prop} {left : α → List Char}
  {leftNext : β → List Char} {cs rest part : List Char} {e : ε}

theorem ok {a : α} (h : left a <:+ cs) : Reads concerns left cs (.ok a) := by
  refine ⟨?_, nofun⟩
  rintro _ ⟨⟩
  exact h

theorem error (hpart : part <:+: cs) (h : concerns part e) :
    Reads concerns left cs (.error e) := by
  refine ⟨nofun, ?_⟩
  rintro _ ⟨⟩
  exact ⟨part, hpart, h⟩

theorem mono {outcome : Except ε α} (h : Reads concerns left rest outcome) (hrest : rest <:+ cs) :
    Reads concerns left cs outcome := by
  refine ⟨fun a ha => (h.left_suffix a ha).trans hrest, fun e he => ?_⟩
  obtain ⟨part, hpart, hconcerns⟩ := h.exists_part e he
  exact ⟨part, hpart.trans hrest.isInfix, hconcerns⟩

theorem retype (h : Reads concerns left cs (.error e)) : Reads concerns leftNext cs (.error e) := by
  obtain ⟨part, hpart, hconcerns⟩ := h.exists_part e rfl
  exact error hpart hconcerns

/-- Reading goes on where the first reader has left the text. -/
theorem bind {first : Except ε α} {next : α → Except ε β} (hfirst : Reads concerns left cs first)
    (hnext : ∀ a, Reads concerns leftNext (left a) (next a)) :
    Reads concerns leftNext cs (first >>= next) := by
  cases first with
  | error e => exact hfirst.retype
  | ok a => exact (hnext a).mono (hfirst.left_suffix a rfl)

theorem bind_same {first : Except ε α} {next : α → Except ε β}
    (hfirst : Reads concerns left cs first) (hnext : ∀ a, Reads concerns leftNext cs (next a)) :
    Reads concerns leftNext cs (first >>= next) := by
  cases first with
  | error e => exact hfirst.retype
  | ok a => exact hnext a

theorem keep {outcome : Except ε (α × List Char)} (h : Reads concerns Prod.snd cs outcome)
    (f : α → β) :
    Reads concerns Prod.snd cs (outcome >>= fun read => .ok (f read.1, read.2)) :=
  h.bind fun _ => .ok (List.suffix_refl _)

end Reads

/-! ## JSON -/

namespace Json

/-- The part of a text that a reader of numbers stops at. -/
def Stop.Concerns : List Char → Stop → Prop
  | part, digits count =>
    digitLimit < count ∧ part.length = count ∧ ∀ c ∈ part, Chars.isDecimal c = true
  | _, .at _ _ => True

/-- A reader that gives a value and what is left behind it. -/
abbrev ReadsThen {α : Type} (cs : List Char) (outcome : Except Stop (α × List Char)) : Prop :=
  Reads Stop.Concerns Prod.snd cs outcome

variable {α : Type} {cs rest start : List Char}

theorem reads_at {left : α → List Char} (cause : Cause) (rest : List Char) :
    Reads Stop.Concerns left cs (.error (.at cause rest)) :=
  .error List.nil_infix trivial

theorem skipSpace_suffix (cs : List Char) : skipSpace cs <:+ cs := List.dropWhile_suffix _

theorem suffix_of_skipSpace {c : Char} (h : skipSpace cs = c :: rest) : rest <:+ cs :=
  (List.suffix_cons c rest).trans (h ▸ skipSpace_suffix cs)

theorem reads_codePoint (start rest : List Char) :
    Reads Stop.Concerns (fun read => rest.drop read.1) rest (codePoint start rest) := by
  have hok (a : Nat × Nat) :
      Reads Stop.Concerns (fun read => rest.drop read.1) rest (.ok a) :=
    .ok (List.drop_suffix _ _)
  fun_cases codePoint start rest <;> first | exact hok _ | exact reads_at _ _

theorem reads_stringTail (start : List Char) (fuel : Nat) (cs : List Char) :
    ReadsThen cs (stringTail start fuel cs) := by
  fun_induction stringTail start fuel cs with
  | case3 fuel rest => exact .ok (List.suffix_cons _ _)
  | case5 fuel rest ih =>
    have hcode := (reads_codePoint ('u' :: rest) rest).mono (suffix_cons_cons '\\' 'u' rest)
    exact hcode.bind fun read => (ih read.1).keep _
  | case7 fuel c rest _ e _ ih =>
    exact (ih.keep (e :: ·)).mono (suffix_cons_cons _ _ _)
  | case9 fuel c rest _ _ _ _ _ ih => exact (ih.keep (c :: ·)).mono (List.suffix_cons _ _)
  | _ => exact reads_at _ _

theorem reads_string (start rest : List Char) : ReadsThen rest (string start rest) :=
  (reads_stringTail start _ rest).keep _

/-! ### Numbers -/

theorem integerPart_spec {integer : List Char × List Char}
    (h : integer = match cs with
      | '0' :: rest => (['0'], rest)
      | _ => takeDigits cs) :
    integer.1 ++ integer.2 = cs ∧ ∀ c ∈ integer.1, Chars.isDecimal c = true := by
  subst h
  split
  · refine ⟨rfl, fun c hc => ?_⟩
    obtain rfl := List.mem_singleton.1 hc
    rfl
  · exact ⟨List.takeWhile_append_dropWhile, List.all_eq_true.1 List.all_takeWhile⟩

theorem unsigned_suffix (isSigned : Bool) (cs : List Char) :
    (if isSigned = true then cs.tail else cs) <:+ cs := by
  split
  · exact List.tail_suffix cs
  · exact List.suffix_refl cs

theorem fractionPart_suffix (cs : List Char) : (fractionPart cs).2 <:+ cs := by
  fun_cases fractionPart cs with
  | case2 rest digits behind htake =>
    have hbehind : behind <:+ rest := (Prod.mk.inj htake).2 ▸ List.dropWhile_suffix _
    exact hbehind.trans (List.suffix_cons _ _)
  | _ => exact List.suffix_refl _

theorem exponentPart_suffix (cs : List Char) : (exponentPart cs).2 <:+ cs := by
  fun_cases exponentPart cs with
  | case2 e rest _ negative signed digits behind htake _ =>
    have hbehind : behind <:+ rest :=
      ((Prod.mk.inj htake).2 ▸ List.dropWhile_suffix _).trans (unsigned_suffix signed rest)
    exact hbehind.trans (List.suffix_cons _ _)
  | _ => exact List.suffix_refl _

theorem suffix_of_parts {integer : List Char × List Char} {fraction behind : List Char}
    {exponent : Option Int} (hinteger : integer.1 ++ integer.2 = cs)
    (hfraction : fractionPart integer.2 = (fraction, behind))
    (hexponent : exponentPart behind = (exponent, rest)) : rest <:+ cs := by
  have hbehind := fractionPart_suffix integer.2
  have hrest := exponentPart_suffix behind
  rw [hfraction] at hbehind
  rw [hexponent] at hrest
  exact (hrest.trans hbehind).trans ⟨integer.1, hinteger⟩

theorem reads_number (start : List Char) : ReadsThen start (number start) := by
  have hsigned := unsigned_suffix (start.head? == some '-') start
  fun_cases number start with
  | case1 => exact reads_at _ _
  | case2 =>
    rename_i cs integer _ _ _ _ _ _ _ _ hlimit
    have hparts : integer.1 ++ integer.2 = cs ∧ ∀ c ∈ integer.1, Chars.isDecimal c = true :=
      integerPart_spec rfl
    have hdigits : integer.1 <:+: cs := ⟨[], integer.2, hparts.1⟩
    exact .error (hdigits.trans hsigned.isInfix) ⟨hlimit, rfl, hparts.2⟩
  | case3 =>
    rename_i hfraction _ _ hexponent _ _ _
    exact .ok ((suffix_of_parts (integerPart_spec rfl).1 hfraction hexponent).trans hsigned)
  | case4 =>
    rename_i hfraction _ _ hexponent _ _
    exact .ok ((suffix_of_parts (integerPart_spec rfl).1 hfraction hexponent).trans hsigned)

/-! ### Values -/

theorem reads_scalar (cs : List Char) : ReadsThen cs (scalar cs) := by
  unfold scalar
  split
  · exact .ok (List.drop_suffix _ _)
  · exact reads_number cs

theorem reads_colon (cs : List Char) : Reads Stop.Concerns id cs (colon cs) := by
  unfold colon
  split
  next rest hspace => exact .ok ((skipSpace_suffix rest).trans (suffix_of_skipSpace hspace))
  next => exact reads_at _ _

section
variable {fuel : Nat} (hvalue : ∀ cs, ReadsThen cs (value fuel cs))
  (hitems : ∀ cs, ReadsThen cs (items fuel cs)) (hmembers : ∀ cs, ReadsThen cs (members fuel cs))

include hitems hmembers in
theorem reads_value_succ (cs : List Char) : ReadsThen cs (value (fuel + 1) cs) := by
  unfold value
  split
  next rest => exact ((reads_string _ rest).keep _).mono (List.suffix_cons _ _)
  next rest =>
    refine Reads.mono ?_ (List.suffix_cons '[' rest)
    split
    next behind hspace => exact .ok (suffix_of_skipSpace hspace)
    next => exact ((hitems _).keep _).mono (skipSpace_suffix rest)
  next rest =>
    refine Reads.mono ?_ (List.suffix_cons '\x7b' rest)
    split
    next behind hspace => exact .ok (suffix_of_skipSpace hspace)
    next =>
      exact ((hmembers _).keep fun entries => Document.map (Document.entriesOf entries)).mono
        (skipSpace_suffix rest)
  next => exact reads_scalar cs

include hvalue hitems in
theorem reads_items_succ (cs : List Char) : ReadsThen cs (items (fuel + 1) cs) := by
  unfold items
  refine (hvalue cs).bind fun ⟨item, rest⟩ => ?_
  simp only
  split
  next behind hspace => exact .ok (suffix_of_skipSpace hspace)
  next behind hspace =>
    exact ((hitems _).keep _).mono ((skipSpace_suffix behind).trans (suffix_of_skipSpace hspace))
  next => exact reads_at _ _

include hvalue hmembers in
theorem reads_members_succ (cs : List Char) : ReadsThen cs (members (fuel + 1) cs) := by
  unfold members
  split
  next behind =>
    refine Reads.mono ((reads_string _ behind).bind fun ⟨key, rest⟩ => ?_) (List.suffix_cons _ _)
    refine (reads_colon rest).bind fun rest => (hvalue rest).bind fun ⟨item, rest⟩ => ?_
    simp only
    split
    next behind hspace => exact .ok (suffix_of_skipSpace hspace)
    next behind hspace =>
      exact ((hmembers _).keep _).mono
        ((skipSpace_suffix behind).trans (suffix_of_skipSpace hspace))
    next => exact reads_at _ _
  next => exact reads_at _ _

end

theorem reads_value_items_members (fuel : Nat) :
    (∀ cs, ReadsThen cs (value fuel cs)) ∧ (∀ cs, ReadsThen cs (items fuel cs)) ∧
      ∀ cs, ReadsThen cs (members fuel cs) := by
  induction fuel with
  | zero => exact ⟨fun _ => reads_at _ _, fun _ => reads_at _ _, fun _ => reads_at _ _⟩
  | succ fuel ih =>
    obtain ⟨hvalue, hitems, hmembers⟩ := ih
    exact ⟨reads_value_succ hitems hmembers, reads_items_succ hvalue hitems,
      reads_members_succ hvalue hmembers⟩

theorem reads_document (cs : List Char) :
    Reads Stop.Concerns (fun _ => []) cs (document cs) := by
  unfold document
  refine Reads.mono (((reads_value_items_members _).1 _).bind fun ⟨item, rest⟩ => ?_)
    (skipSpace_suffix cs)
  simp only
  split
  · exact .ok List.nil_suffix
  · exact reads_at _ _

/-- If `decode` refuses an integer for its many digits, these digits stand in the text. -/
theorem exists_digits_of_decode {source : String} {count : Nat}
    (h : decode source = .error (.tooManyDigits count)) :
    digitLimit < count ∧ ∃ digits, digits <:+: source.toList ∧ digits.length = count ∧
      ∀ c ∈ digits, Chars.isDecimal c = true := by
  simp only [decode] at h
  split at h
  · cases h
  · split at h
    · cases h
    · cases h
    · next stopped hdocument =>
      cases h
      obtain ⟨digits, hdigits, hlimit, hlength, hdecimal⟩ :=
        (reads_document _).exists_part _ hdocument
      exact ⟨hlimit, digits, hdigits, hlength, hdecimal⟩

end Json

end ChatCommands

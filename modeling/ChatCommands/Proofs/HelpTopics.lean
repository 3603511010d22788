import ChatCommands.Proofs.LineStages
import ChatCommands.Proofs.Occurrences
import Mathlib.Data.List.Induction

/-!
# What a request for help is about

A line that mentions `help` anywhere is about what is left behind the name once the first `help`
there and the blanks around are taken away. The `help` that makes the line a request need not be
that one: it may stand in the name, reach over its end, or be part of what is asked for. This file
says in terms of the parts of a line what is left (`asksFor_iff`), and from it which lines get the
listing of all parameters, the details of one, or neither. The main statement is
`help_answered_by_what_is_left`.
-/

namespace ChatCommands

namespace Chars

/-! ## Trimming -/

def IsBlank (cs : List Char) : Prop := ∀ c ∈ cs, isBlank c = true

/-- A text without a blank at either end. -/
structure IsTrimmed (cs : List Char) : Prop where
  head : ∀ c ∈ cs.head?, isBlank c = false
  last : ∀ c ∈ cs.getLast?, isBlank c = false

theorem isTrimmed_nil : IsTrimmed [] := ⟨nofun, nofun⟩

/-- `trimEnd` cuts off blanks, and leaves no blank at the end. -/
theorem exists_trimEnd (cs : List Char) :
    ∃ behind, cs = trimEnd cs ++ behind ∧ IsBlank behind ∧
      ∀ c ∈ (trimEnd cs).getLast?, isBlank c = false := by
  induction cs using List.reverseRecOn with
  | nil => exact ⟨[], rfl, nofun, nofun⟩
  | append_singleton cs c ih =>
    cases hc : isBlank c with
    | false =>
      rw [trimEnd_append_last cs hc]
      exact ⟨[], (List.append_nil _).symm, nofun, by simpa using hc⟩
    | true =>
      obtain ⟨behind, hcs, hblank, hlast⟩ := ih
      rw [trimEnd_append_blank cs hc]
      refine ⟨behind ++ [c], ?_, ?_, hlast⟩
      · rw [← List.append_assoc, ← hcs]
      · intro d hd
        rcases List.mem_append.1 hd with hd | hd
        · exact hblank d hd
        · rw [List.mem_singleton.1 hd, hc]

theorem exists_trim (cs : List Char) :
    ∃ before behind, cs = before ++ trim cs ++ behind ∧ IsBlank before ∧ IsBlank behind ∧
      IsTrimmed (trim cs) := by
  obtain ⟨behind, hcs, hbehind, hlast⟩ := exists_trimEnd cs
  have hsplit : trimEnd cs = (trimEnd cs).takeWhile isBlank ++ trim cs :=
    List.takeWhile_append_dropWhile.symm
  refine ⟨(trimEnd cs).takeWhile isBlank, behind, ?_, ?_, hbehind, ?_, ?_⟩
  · rw [← hsplit, ← hcs]
  · exact fun c hc => List.all_eq_true.1 List.all_takeWhile c hc
  · intro c hc
    have hhead := List.head?_dropWhile_not isBlank (trimEnd cs)
    rw [trim, trimStart] at hc
    rw [Option.mem_def.1 hc] at hhead
    simpa using hhead
  · intro c hc
    refine hlast c ?_
    rw [hsplit, List.getLast?_append, Option.mem_def.1 hc]
    rfl

theorem trimEnd_append_of_isBlank (cs : List Char) {behind : List Char} (h : IsBlank behind) :
    trimEnd (cs ++ behind) = trimEnd cs := by
  induction behind using List.reverseRecOn with
  | nil => rw [List.append_nil]
  | append_singleton behind c ih =>
    rw [← List.append_assoc, trimEnd_append_blank _ (h c (by simp))]
    exact ih fun d hd => h d (List.mem_append_left _ hd)

theorem trim_append {before core behind : List Char} (hbefore : IsBlank before)
    (hcore : IsTrimmed core) (hbehind : IsBlank behind) :
    trim (before ++ core ++ behind) = core := by
  rw [trim, trimEnd_append_of_isBlank _ hbehind]
  rcases List.eq_nil_or_concat core with rfl | ⟨front, c, hconcat⟩
  · have hnothing := trimEnd_append_of_isBlank [] hbefore
    rw [List.nil_append] at hnothing
    rw [List.append_nil, hnothing]
    rfl
  · rw [List.concat_eq_append] at hconcat
    subst hconcat
    have hc : isBlank c = false := hcore.last c (by simp)
    rw [← List.append_assoc, trimEnd_append_last _ hc, List.append_assoc, trimStart,
      List.dropWhile_append_of_pos hbefore]
    cases front with
    | nil => exact List.dropWhile_cons_of_neg (by simp [hc])
    | cons d front =>
      have hd : isBlank d = false := hcore.head d (by simp)
      exact List.dropWhile_cons_of_neg (by simp [hd])

/-! ## Taking the first mention away -/

/-- What is left of `text` without the first mention of `pattern`. -/
inductive Leaves (pattern text : List Char) : List Char → Prop
  -- no mention starts further to the left than the one that is taken away
  | first {before behind : List Char} (heq : text = before ++ pattern ++ behind)
    (hfirst : ∀ other rest, text = other ++ pattern ++ rest → before.length ≤ other.length) :
    Leaves pattern text (before ++ behind)
  | absent (h : ¬pattern <:+: text) : Leaves pattern text text

theorem leaves_eraseFirst {pattern : List Char} (hne : pattern ≠ []) (text : List Char) :
    Leaves pattern text (eraseFirst pattern text) := by
  induction text with
  | nil => exact .absent fun h => hne (List.infix_nil.1 h)
  | cons c text ih =>
    rw [eraseFirst]
    by_cases hprefix : pattern.isPrefixOf (c :: text) = true
    · rw [if_pos hprefix]
      obtain ⟨behind, hbehind⟩ := List.isPrefixOf_iff_prefix.1 hprefix
      rw [← hbehind, List.drop_left]
      exact @Leaves.first _ _ [] behind rfl fun _ _ _ => Nat.zero_le _
    · rw [if_neg hprefix]
      rw [List.isPrefixOf_iff_prefix] at hprefix
      generalize eraseFirst pattern text = left at ih
      cases ih with
      | absent h =>
        refine .absent fun hinfix => ?_
        exact (List.infix_cons_iff.1 hinfix).elim hprefix h
      | @first before behind heq hfirst =>
        refine @Leaves.first _ _ (c :: before) behind (by rw [heq]; rfl) fun other rest hother => ?_
        cases other with
        | nil => exact absurd ⟨rest, hother.symm⟩ hprefix
        | cons d other =>
          obtain ⟨-, htext⟩ := List.cons.inj hother
          exact Nat.succ_le_succ (hfirst other rest htext)

theorem Leaves.unique {pattern text left right : List Char} (h : Leaves pattern text left)
    (h' : Leaves pattern text right) : left = right := by
  cases h with
  | absent habsent =>
    cases h' with
    | absent => rfl
    | first heq => exact absurd ⟨_, _, heq.symm⟩ habsent
  | @first before behind heq hfirst =>
    cases h' with
    | absent habsent => exact absurd ⟨_, _, heq.symm⟩ habsent
    | @first other rest heq' hfirst' =>
      have hlength := Nat.le_antisymm (hfirst _ _ heq') (hfirst' _ _ heq)
      rw [heq, List.append_assoc, List.append_assoc] at heq'
      obtain ⟨rfl, hrest⟩ := List.append_inj heq' hlength
      rw [List.append_cancel_left hrest]

/-- A mention with nothing but blanks in front of it is the first. -/
theorem leaves_of_isBlank {c : Char} (hc : isBlank c = false) (cs : List Char)
    {before : List Char} (hbefore : IsBlank before) (behind : List Char) :
    Leaves (c :: cs) (before ++ (c :: cs) ++ behind) (before ++ behind) := by
  refine .first rfl fun other rest hother => ?_
  simp only [List.append_assoc] at hother
  rcases List.append_eq_append_iff.1 hother with ⟨gap, hlong, -⟩ | ⟨gap, hshort, hrest⟩
  · rw [hlong, List.length_append]
    exact Nat.le_add_right _ _
  · cases gap with
    | nil => exact Nat.le_of_eq (by rw [hshort, List.append_nil])
    | cons d gap =>
      -- the mention would start at a blank
      obtain ⟨rfl, -⟩ := List.cons.inj (show c :: (cs ++ rest) = d :: _ from hrest)
      have hblank := hbefore c (by simp [hshort])
      rw [hc] at hblank
      cases hblank

end Chars

namespace Text

def IsBlank (text : String) : Prop := Chars.IsBlank text.toList

def IsTrimmed (text : String) : Prop := Chars.IsTrimmed text.toList

end Text

namespace Command

/-! ## What is left -/

/-- `rest` without its first `help`, if there is one, is `topic` with blanks around. -/
def AsksFor (rest topic : String) : Prop :=
  ∃ left before behind, Chars.Leaves helpWord.toList rest.toList left ∧
    left = before ++ topic.toList ++ behind ∧ Chars.IsBlank before ∧ Chars.IsBlank behind ∧
    Text.IsTrimmed topic

/-- `AsksFor` in terms of `trim` and `eraseFirst`. -/
theorem asksFor_iff {rest topic : String} :
    AsksFor rest topic ↔ Text.trim (Text.eraseFirst rest helpWord) = topic := by
  have hne : helpWord.toList ≠ [] := nofun
  have hleaves := Chars.leaves_eraseFirst hne rest.toList
  rw [Text.trim, Text.eraseFirst, String.toList_ofList]
  constructor
  · rintro ⟨left, before, behind, hleft, rfl, hbefore, hbehind, htopic⟩
    rw [← hleft.unique hleaves, Chars.trim_append hbefore htopic hbehind, String.ofList_toList]
  · rintro rfl
    obtain ⟨before, behind, heq, hbefore, hbehind, htrimmed⟩ :=
      Chars.exists_trim (Chars.eraseFirst helpWord.toList rest.toList)
    refine ⟨_, before, behind, hleaves, ?_, hbefore, hbehind, ?_⟩
    · rw [String.toList_ofList]
      exact heq
    · rw [Text.IsTrimmed, String.toList_ofList]
      exact htrimmed

/-- The empty topic is asked for by blanks, and by one `help` with blanks around. -/
theorem asksFor_empty_iff {rest : String} :
    AsksFor rest "" ↔ Text.IsBlank rest ∨
      ∃ before behind, rest = before ++ helpWord ++ behind ∧ Text.IsBlank before ∧
        Text.IsBlank behind := by
  have happend {before behind : List Char} (hbefore : Chars.IsBlank before)
      (hbehind : Chars.IsBlank behind) : Chars.IsBlank (before ++ "".toList ++ behind) := by
    intro c hc
    rw [String.toList_empty, List.append_nil] at hc
    exact (List.mem_append.1 hc).elim (hbefore c) (hbehind c)
  constructor
  · rintro ⟨left, before, behind, hleft, heq, hbefore, hbehind, -⟩
    have hblank : Chars.IsBlank left := heq ▸ happend hbefore hbehind
    cases hleft with
    | absent => exact .inl hblank
    | @first front back hrest =>
      refine .inr ⟨String.ofList front, String.ofList back, String.toList_inj.1 ?_, ?_, ?_⟩
      · simpa using hrest
      · intro c hc
        exact hblank c (List.mem_append_left _ (by simpa using hc))
      · intro c hc
        exact hblank c (List.mem_append_right _ (by simpa using hc))
  · rintro (hblank | ⟨before, behind, rfl, hbefore, hbehind⟩)
    · refine ⟨rest.toList, rest.toList, [], .absent fun hmention => ?_, by simp, hblank, nofun,
        Chars.isTrimmed_nil⟩
      -- the `h` would be a blank
      have hfirst := hblank 'h' (hmention.subset (by decide))
      cases hfirst
    · refine ⟨before.toList ++ behind.toList, before.toList, behind.toList, ?_, by simp, hbefore,
        hbehind, Chars.isTrimmed_nil⟩
      rw [String.toList_append, String.toList_append]
      exact Chars.leaves_of_isBlank rfl _ hbefore _

/-- A key without blanks around it is asked for by a `help` in front of it, with any blanks before,
between and behind. -/
theorem asksFor_of_parts {before between key behind : String} (hbefore : Text.IsBlank before)
    (hbetween : Text.IsBlank between) (hkey : Text.IsTrimmed key) (hbehind : Text.IsBlank behind) :
    AsksFor (before ++ helpWord ++ between ++ key ++ behind) key := by
  refine ⟨before.toList ++ (between.toList ++ key.toList ++ behind.toList),
    before.toList ++ between.toList, behind.toList, ?_, by simp, ?_, hbehind, hkey⟩
  · have hword : isBlank 'h' = false := rfl
    have hleaves := Chars.leaves_of_isBlank hword ['e', 'l', 'p'] hbefore
      (between.toList ++ key.toList ++ behind.toList)
    simpa [helpWord] using hleaves
  · intro c hc
    exact (List.mem_append.1 hc).elim (hbefore c) (hbetween c)

/-! ## Answers -/

/-- `topic` of an addressed line is that of `rest`. -/
theorem topic_append (c : Command) (rest : String) :
    c.topic (c.name ++ rest) = Text.trim (Text.eraseFirst rest helpWord) := by
  rw [topic, Text.drop, String.toList_append, ← String.length_toList, List.drop_left,
    String.ofList_toList]

/-- The answer with the listing of all parameters. -/
def generalAnswer (c : Command) (frame : Frame) : Except Failure Value × Frame :=
  (.ok (.text c.generalHelp), ⟨frame.model, frame.events ++ [.gaveHelp c.name]⟩)

/-- The answer with the details of the parameter under `key`. -/
def detailAnswer (c : Command) (key : String) (p : Parameter) (frame : Frame) :
    Except Failure Value × Frame :=
  (.ok (.text (parameterHelp p)), ⟨frame.model, frame.events ++ [.gaveTopic c.name key]⟩)

/-- The refusal of a topic under which there is no parameter. -/
def topicRefusal (c : Command) (topic : String) (frame : Frame) : Except Failure Value × Frame :=
  (.error (.command (.unknownTopic c.name topic)), frame)

section
variable {c : Command} {rest topic : String}

theorem run_execute_of_asksFor (hhelp : Text.contains (c.name ++ rest) helpWord = true)
    (hasks : AsksFor rest topic) (frame : Frame) :
    (c.execute (c.name ++ rest)).run.run frame =
      if topic = "" then c.generalAnswer frame
      else
        match c.parameters.get? topic with
        | none => c.topicRefusal topic frame
        | some p => c.detailAnswer topic p frame := by
  have htopic : c.topic (c.name ++ rest) = topic := by
    rw [topic_append, asksFor_iff.1 hasks]
  rw [execute_of_help (c.accepts_append rest) hhelp, run_run_bind, renderHelp, htopic]
  by_cases hempty : topic = ""
  · rw [if_pos hempty, if_pos hempty]
    rfl
  · rw [if_neg hempty, if_neg hempty]
    cases c.parameters.get? topic <;> rfl

theorem AsksFor.unique {other : String} (h : AsksFor rest topic) (h' : AsksFor rest other) :
    topic = other := (asksFor_iff.1 h).symm.trans (asksFor_iff.1 h')

/-- The listing, the details of a parameter, or a refusal: each is answered to one kind of `rest`
only. -/
theorem answer_cases (hhelp : Text.contains (c.name ++ rest) helpWord = true) (frame : Frame) :
    AsksFor rest "" ∧ (c.execute (c.name ++ rest)).run.run frame = c.generalAnswer frame ∨
      (∃ key p, key ≠ "" ∧ c.parameters.get? key = some p ∧ AsksFor rest key ∧
        (c.execute (c.name ++ rest)).run.run frame = c.detailAnswer key p frame) ∨
      ∃ topic, topic ≠ "" ∧ c.parameters.get? topic = none ∧ AsksFor rest topic ∧
        (c.execute (c.name ++ rest)).run.run frame = c.topicRefusal topic frame := by
  obtain ⟨topic, hasks⟩ : ∃ topic, AsksFor rest topic := ⟨_, asksFor_iff.2 rfl⟩
  have hrun := run_execute_of_asksFor hhelp hasks frame
  by_cases hempty : topic = ""
  · rw [if_pos hempty] at hrun
    exact .inl ⟨hempty ▸ hasks, hrun⟩
  · rw [if_neg hempty] at hrun
    cases hget : c.parameters.get? topic with
    | none =>
      rw [hget] at hrun
      exact .inr (.inr ⟨topic, hempty, hget, hasks, hrun⟩)
    | some p =>
      rw [hget] at hrun
      exact .inr (.inl ⟨topic, p, hempty, hget, hasks, hrun⟩)

end

/-! ### Telling answers apart -/

section
variable (c : Command) (key topic : String) (p : Parameter) (frame : Frame)

theorem generalAnswer_ne_detailAnswer : c.generalAnswer frame ≠ c.detailAnswer key p frame := by
  simp [generalAnswer, detailAnswer]

theorem generalAnswer_ne_topicRefusal : c.generalAnswer frame ≠ c.topicRefusal topic frame := nofun

theorem detailAnswer_ne_topicRefusal : c.detailAnswer key p frame ≠ c.topicRefusal topic frame :=
  nofun

variable {c key topic p frame}

/-- Details may have the same wording, but the events tell the keys. -/
theorem key_eq_of_detailAnswer_eq {other : String} {q : Parameter}
    (h : c.detailAnswer key p frame = c.detailAnswer other q frame) : key = other := by
  simp only [detailAnswer, Prod.mk.injEq, Frame.mk.injEq, List.append_cancel_left_eq,
    List.cons.injEq, Event.gaveTopic.injEq] at h
  exact h.2.2.1.2

theorem topic_eq_of_topicRefusal_eq {other : String}
    (h : c.topicRefusal topic frame = c.topicRefusal other frame) : topic = other := by
  simp only [topicRefusal, Prod.mk.injEq, Except.error.injEq, Failure.command.injEq,
    CommandFailure.unknownTopic.injEq] at h
  exact h.1.2

end

/-! ### The classes of requests -/

/-- How a command answers the lines that mention `help`. The rest of a line is what stands behind
the name. -/
structure AnswersHelp (c : Command) : Prop where
  -- the listing of all parameters answers a blank rest, and one `help` with blanks around
  general_iff : ∀ rest frame, Text.contains (c.name ++ rest) helpWord = true →
    ((c.execute (c.name ++ rest)).run.run frame = c.generalAnswer frame ↔
      Text.IsBlank rest ∨ ∃ before behind, rest = before ++ helpWord ++ behind ∧
        Text.IsBlank before ∧ Text.IsBlank behind)
  -- the details of the parameter under a key answer a rest that asks for the key
  detail_iff : ∀ rest frame key p, Text.contains (c.name ++ rest) helpWord = true →
    c.parameters.get? key = some p →
      ((c.execute (c.name ++ rest)).run.run frame = c.detailAnswer key p frame ↔
        key ≠ "" ∧ AsksFor rest key)
  refused_iff : ∀ rest frame topic, Text.contains (c.name ++ rest) helpWord = true →
    ((c.execute (c.name ++ rest)).run.run frame = c.topicRefusal topic frame ↔
      topic ≠ "" ∧ c.parameters.get? topic = none ∧ AsksFor rest topic)
  -- every line that mentions `help` has one of these answers
  refused_otherwise : ∀ rest frame, Text.contains (c.name ++ rest) helpWord = true →
    (c.execute (c.name ++ rest)).run.run frame ≠ c.generalAnswer frame →
    (∀ key p, c.parameters.get? key = some p →
      (c.execute (c.name ++ rest)).run.run frame ≠ c.detailAnswer key p frame) →
    ∃ topic, AsksFor rest topic ∧
      (Failure.command (.unknownTopic c.name topic)).kind = .parse ∧
      (c.execute (c.name ++ rest)).run.run frame = c.topicRefusal topic frame
  -- the details of every parameter whose key has no blanks around it can be asked for
  reachable : ∀ key p before between behind frame, c.parameters.get? key = some p → key ≠ "" →
    Text.IsTrimmed key → Text.IsBlank before → Text.IsBlank between → Text.IsBlank behind →
      (c.execute (c.name ++ (before ++ helpWord ++ between ++ key ++ behind))).run.run frame =
        c.detailAnswer key p frame

/-- Every line that mentions `help` is answered by what is left of the rest without its first
`help`. -/
theorem help_answered_by_what_is_left (c : Command) : AnswersHelp c where
  general_iff rest frame hhelp := by
    rw [← asksFor_empty_iff]
    rcases answer_cases hhelp frame with ⟨hasks, hrun⟩ | ⟨key, p, hne, -, hasks, hrun⟩ |
      ⟨topic, hne, -, hasks, hrun⟩ <;> rw [hrun]
    · exact iff_of_true rfl hasks
    · exact iff_of_false (generalAnswer_ne_detailAnswer c key p frame).symm
        fun hnothing => hne (hasks.unique hnothing)
    · exact iff_of_false (generalAnswer_ne_topicRefusal c topic frame).symm
        fun hnothing => hne (hasks.unique hnothing)
  detail_iff rest frame key p hhelp hget := by
    constructor
    · intro hanswer
      rcases answer_cases hhelp frame with ⟨-, hrun⟩ | ⟨other, q, hne, -, hasks, hrun⟩ |
        ⟨topic, -, -, -, hrun⟩ <;> rw [hrun] at hanswer
      · exact absurd hanswer (generalAnswer_ne_detailAnswer c key p frame)
      · obtain rfl := key_eq_of_detailAnswer_eq hanswer
        exact ⟨hne, hasks⟩
      · exact absurd hanswer.symm (detailAnswer_ne_topicRefusal c key topic p frame)
    · rintro ⟨hne, hasks⟩
      rw [run_execute_of_asksFor hhelp hasks, if_neg hne, hget]
  refused_iff rest frame topic hhelp := by
    constructor
    · intro hanswer
      rcases answer_cases hhelp frame with ⟨-, hrun⟩ | ⟨key, p, -, -, -, hrun⟩ |
        ⟨other, hne, hget, hasks, hrun⟩ <;> rw [hrun] at hanswer
      · exact absurd hanswer (generalAnswer_ne_topicRefusal c topic frame)
      · exact absurd hanswer (detailAnswer_ne_topicRefusal c key topic p frame)
      · obtain rfl := topic_eq_of_topicRefusal_eq hanswer
        exact ⟨hne, hget, hasks⟩
    · rintro ⟨hne, hget, hasks⟩
      rw [run_execute_of_asksFor hhelp hasks, if_neg hne, hget]
  refused_otherwise rest frame hhelp hgeneral hdetail := by
    rcases answer_cases hhelp frame with ⟨-, hrun⟩ | ⟨key, p, -, hget, -, hrun⟩ |
      ⟨topic, -, -, hasks, hrun⟩
    · exact absurd hrun hgeneral
    · exact absurd hrun (hdetail key p hget)
    · exact ⟨topic, hasks, rfl, hrun⟩
  reachable key p before between behind frame hget hne hkey hbefore hbetween hbehind := by
    have hasks := asksFor_of_parts hbefore hbetween hkey hbehind
    have hhelp : Text.contains (c.name ++ (before ++ helpWord ++ between ++ key ++ behind))
        helpWord = true := by
      rw [Text.contains_iff_isInfix]
      exact ⟨c.name.toList ++ before.toList, between.toList ++ key.toList ++ behind.toList, by simp⟩
    rw [run_execute_of_asksFor hhelp hasks, if_neg hne, hget]

end Command

end ChatCommands

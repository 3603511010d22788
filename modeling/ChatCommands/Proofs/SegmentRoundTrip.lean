import ChatCommands.Bundled.Echo
import ChatCommands.Bundled.Schedule
import ChatCommands.Proofs.LineStages
import Mathlib.Data.List.Basic

/-!
# Segments written down and read again

A line can be made from segments: their keys and words are written one after another, with any
blanks between them. This file proves that parsing such a line hands over exactly these segments
(`segments_survive`), and that the segments of any line, written back with single spaces, are handed
over again.

The proof goes through words. A *layout* is a text that is made from words and blanks, and splitting
it gives the words back; words made from segments are cut into these segments again; and the values
that parsing hands over are read off from the segments of the words.
-/

namespace ChatCommands

/-! ## Layouts -/

namespace Chars

theorem words_append_of_blank {gap : List Char} (h : ∀ c ∈ gap, isBlank c = true)
    (cs : List Char) : words (gap ++ cs) = words cs := by
  induction gap with
  | nil => rfl
  | cons c gap ih =>
    have hstep : words ([] ++ c :: (gap ++ cs)) = words [] ++ words (gap ++ cs) :=
      words_append_blank (h c List.mem_cons_self) [] (gap ++ cs)
    rw [List.cons_append, ← ih fun d hd => h d (List.mem_cons_of_mem _ hd)]
    exact hstep

/-- A word is the first of the words if a blank or nothing stands behind it. -/
theorem words_isWord_append {word gap cs : List Char} (hword : IsWord word)
    (hblank : ∀ c ∈ gap, isBlank c = true) (h : gap ≠ [] ∨ cs = []) :
    words (word ++ (gap ++ cs)) = word :: words cs := by
  cases gap with
  | nil =>
    obtain rfl : cs = [] := h.resolve_left fun hne => hne rfl
    rw [List.append_nil, List.append_nil, words_of_isWord hword, words_nil]
  | cons c gap =>
    rw [List.cons_append, words_append_blank (hblank c List.mem_cons_self), words_of_isWord hword,
      words_append_of_blank fun d hd => hblank d (List.mem_cons_of_mem _ hd)]
    rfl

end Chars

namespace Text

def AllBlank (text : String) : Prop := ∀ c ∈ text.toList, isBlank c = true

instance (text : String) : Decidable (AllBlank text) :=
  decidable_of_iff (text.toList.all isBlank = true) List.all_eq_true

/-- Words written down with any blanks in front of them, between them and behind them. -/
structure Layout where
  front : String
  items : List (String × String)
  blank_front : AllBlank front
  isWord : ∀ item ∈ items, IsWord item.1
  -- behind the words there is nothing but blanks
  blank_gap : ∀ item ∈ items, AllBlank item.2
  -- there are blanks behind each word but the last
  gap_ne : ∀ item ∈ items.dropLast, item.2 ≠ ""

namespace Layout

def words (l : Layout) : List String := l.items.map Prod.fst

def text (l : Layout) : String :=
  l.front ++ String.join (l.items.map fun item => item.1 ++ item.2)

theorem words_join {items : List (String × String)} (hword : ∀ item ∈ items, IsWord item.1)
    (hblank : ∀ item ∈ items, AllBlank item.2)
    (hne : ∀ item ∈ items.dropLast, item.2 ≠ "") :
    Text.words (String.join (items.map fun item => item.1 ++ item.2)) = items.map Prod.fst := by
  induction items with
  | nil => rfl
  | cons item items ih =>
    have hitems := ih (fun other hother => hword other (List.mem_cons_of_mem _ hother))
      (fun other hother => hblank other (List.mem_cons_of_mem _ hother))
    rw [Text.words, List.map_cons, String.join_cons, String.toList_append, String.toList_append,
      List.append_assoc, Chars.words_isWord_append (hword item List.mem_cons_self)
      (hblank item List.mem_cons_self), List.map_cons, String.ofList_toList, List.map_cons]
    · cases items with
      | nil => rfl
      | cons next items =>
        exact congrArg _ (hitems fun other hother => hne other (List.mem_cons_of_mem _ hother))
    · -- behind the last word nothing comes
      cases items with
      | nil => exact .inr rfl
      | cons next items =>
        exact .inl fun hempty => hne item List.mem_cons_self (String.toList_eq_nil_iff.1 hempty)

/-- `Text.words` finds the words of a layout in its text. -/
theorem words_text (l : Layout) : Text.words l.text = l.words := by
  rw [Text.words, text, String.toList_append, Chars.words_append_of_blank l.blank_front]
  exact words_join l.isWord l.blank_gap l.gap_ne

end Layout

end Text

namespace Segment

/-! ## Segments -/

/-- Segments behind some leading words that belong to none. `isKey` tells the keys. -/
structure Encoding (isKey : String → Bool) where
  leading : List String
  segments : List Segment
  leading_not_key : ∀ word ∈ leading, isKey word = false
  isKey_key : ∀ s ∈ segments, isKey s.key = true
  words_not_key : ∀ s ∈ segments, ∀ word ∈ s.words, isKey word = false

namespace Encoding

variable {isKey : String → Bool}

def words (e : Encoding isKey) : List String :=
  e.leading ++ e.segments.flatMap fun s => s.key :: s.words

/-- `Segment.ofWords` cuts the words of an encoding into its segments. -/
theorem ofWords_words (e : Encoding isKey) : ofWords isKey e.words = e.segments := by
  rw [ofWords, words, split_append e.leading_not_key]
  exact ofWords_flatMap e.isKey_key e.words_not_key

end Encoding

theorem key_mem_of_mem {isKey : String → Bool} {words : List String} {s : Segment}
    (h : s ∈ ofWords isKey words) : s.key ∈ words := by
  induction words with
  | nil => cases h
  | cons word words ih =>
    cases hword : isKey word with
    | false =>
      rw [ofWords_cons_word words hword] at h
      exact List.mem_cons_of_mem _ (ih h)
    | true =>
      rw [ofWords_cons_key words hword] at h
      rcases List.mem_cons.1 h with rfl | h
      · exact List.mem_cons_self
      · exact List.mem_cons_of_mem _ (ih h)

end Segment

/-- The key and the value of a segment that is handed over. -/
def Event.segment? : Event → Option (String × String)
  | .delivered delivery => if delivery.isWhole then none else some (delivery.key, delivery.value)
  | _ => none

namespace Command

variable {c : Command} {line : String}

/-! ## What parsing hands over -/

/-- What parsing a line on a fresh command hands to parameters without `wholeInput`, in order. -/
def handedOver (c : Command) (line : String) : List (String × String) :=
  (start (c.parse line)).2.events.filterMap Event.segment?

/-- The line that gives `values`, each behind its key, with single spaces. -/
def written (c : Command) (values : List (String × String)) : String :=
  Text.unwords (c.name :: values.flatMap fun entry => [entry.1, entry.2])

theorem made_of_ok {calls : List Call} {model : Model} (h : (carryOut calls model).1 = .ok ()) :
    (carryOut calls model).2.2 = calls.map Prod.snd := by
  induction calls generalizing model with
  | nil => rfl
  | cons call calls ih =>
    obtain ⟨p, delivery⟩ := call
    rw [carryOut] at h ⊢
    rcases hparse : (p.parse delivery.value).run.run model with ⟨failure | _, after⟩
    · rw [hparse] at h
      cases h
    · rw [hparse] at h
      exact congrArg (delivery :: ·) (ih h)

theorem filterMap_calls (c : Command) (arguments : String) :
    (((c.calls arguments).map Prod.snd).map Event.delivered).filterMap Event.segment? =
      (Segment.ofWords c.isKey (Text.words arguments)).map fun s => (s.key, s.value) := by
  have hwhole : ∀ call ∈ c.wholeCalls arguments, Event.segment? (.delivered call.2) = none := by
    intro call hcall
    obtain ⟨entry, -, rfl⟩ := List.mem_map.1 hcall
    rfl
  have hsegment : ∀ s ∈ Segment.ofWords c.isKey (Text.words arguments),
      (c.callOf? s).bind (fun call => Event.segment? (.delivered call.2)) =
        some (s.key, s.value) := by
    intro s hs
    obtain ⟨p, hp⟩ := Option.isSome_iff_exists.1 (Segment.isKey_of_mem hs)
    rw [callOf?, hp]
    rfl
  have hcomp : (Event.segment? ∘ Event.delivered) ∘ Prod.snd =
      fun call : Call => Event.segment? (.delivered call.2) := rfl
  rw [List.filterMap_map, List.filterMap_map, hcomp, calls, List.filterMap_append,
    List.filterMap_eq_nil_iff.2 hwhole, segmentCalls_eq, List.filterMap_filterMap]
  exact List.filterMap_eq_map_iff_forall_eq_some.2 hsegment

/-- If no parameter refuses its value, `handedOver` are the segments of the words. -/
theorem handedOver_eq (haccepts : c.accepts line = true)
    (hok : (start (c.handOut line)).1 = .ok ()) :
    c.handedOver line = (Segment.ofWords c.isKey (Text.words (c.argumentText line))).map
      fun s => (s.key, s.value) := by
  rw [start, run_handOut] at hok
  have hmade := made_of_ok hok
  rw [handedOver, start, run_parse_of_accepts haccepts, filled, ← filterMap_calls]
  rcases hcarry : carryOut (c.calls (c.argumentText line)) ∅ with ⟨failure | _, model, made⟩
  · rw [hcarry] at hok
    cases hok
  · -- behind the calls stands the validation, which hands nothing over
    obtain rfl : made = (c.calls (c.argumentText line)).map Prod.snd := by rwa [hcarry] at hmade
    have hvalidated : [Event.validated].filterMap Event.segment? = [] := rfl
    simp only [List.nil_append, List.filterMap_append, hvalidated, List.append_nil]

/-! ## The round trips -/

/-- The name, one more character, and the text of a layout. -/
def lineOf (c : Command) (skipped : Char) (l : Text.Layout) : String :=
  c.name ++ (String.singleton skipped ++ l.text)

/-- `handedOver` on a line of a layout are the segments of the encoding. -/
theorem handedOver_lineOf {e : Segment.Encoding c.isKey} {l : Text.Layout}
    (hwords : l.words = e.words) {skipped : Char}
    (hok : (start (c.handOut (c.lineOf skipped l))).1 = .ok ()) :
    c.handedOver (c.lineOf skipped l) = e.segments.map fun s => (s.key, s.value) := by
  have htext : c.argumentText (c.lineOf skipped l) = l.text := by
    rw [lineOf, argumentText_append, Text.drop, String.toList_append, String.toList_singleton]
    exact String.ofList_toList
  have haccepts : c.accepts (c.lineOf skipped l) = true := c.accepts_append _
  rw [handedOver_eq haccepts hok, htext, l.words_text, hwords, e.ofWords_words]

theorem flatMap_words {isKey : String → Bool} {words : List String}
    (hwords : ∀ word ∈ words, Text.IsWord word) {s : Segment}
    (hs : s ∈ Segment.ofWords isKey words) :
    [s.key, s.value].flatMap Text.words = s.key :: s.words := by
  have hvalue : ∀ word ∈ s.words, Text.IsWord word := fun word hword =>
    hwords word (Segment.not_isKey_of_mem hs word hword).1
  have hkey := Text.words_of_isWord (hwords s.key (Segment.key_mem_of_mem hs))
  have hsplit : Text.words s.value = s.words := Text.words_unwords_of_isWord hvalue
  simp [hkey, hsplit]

/-- `handedOver` on `written` of what a line has handed over is the same again. -/
theorem handedOver_written (haccepts : c.accepts line = true)
    (hok : (start (c.handOut line)).1 = .ok ())
    (hagain : (start (c.handOut (c.written (c.handedOver line)))).1 = .ok ()) :
    c.handedOver (c.written (c.handedOver line)) = c.handedOver line := by
  have hwords : ∀ word ∈ Text.words (c.argumentText line), Text.IsWord word :=
    fun word hword => Text.isWord_of_mem_words hword
  generalize hsegments : Segment.ofWords c.isKey (Text.words (c.argumentText line)) = segments
  have hread : Segment.ofWords c.isKey (segments.flatMap fun s => s.key :: s.words) = segments := by
    subst hsegments
    exact Segment.ofWords_flatMap (fun s hs => Segment.isKey_of_mem hs)
      fun s hs word hword => (Segment.not_isKey_of_mem hs word hword).2
  have hback : ((segments.map fun s => (s.key, s.value)).flatMap
      fun entry => [entry.1, entry.2]).flatMap Text.words =
        segments.flatMap fun s => s.key :: s.words := by
    subst hsegments
    rw [List.flatMap_map, List.flatMap_assoc]
    exact List.flatMap_congr fun s hs => flatMap_words hwords hs
  have haddressed : c.accepts (c.written (c.handedOver line)) = true := c.accepts_unwords _
  rw [handedOver_eq haddressed hagain, written, words_argumentText_unwords,
    handedOver_eq haccepts hok, hsegments, hback, hread]

/-- Reading takes writing back, and writing takes reading back. A line that writes an encoding down
with any blanks hands over just its segments; and what any line hands over is handed over again by
`written`. -/
theorem segments_survive (c : Command) :
    (∀ (e : Segment.Encoding c.isKey) (l : Text.Layout) (skipped : Char), l.words = e.words →
      (start (c.handOut (c.lineOf skipped l))).1 = .ok () →
        c.handedOver (c.lineOf skipped l) = e.segments.map fun s => (s.key, s.value)) ∧
    ∀ line, c.accepts line = true → (start (c.handOut line)).1 = .ok () →
      (start (c.handOut (c.written (c.handedOver line)))).1 = .ok () →
        c.handedOver (c.written (c.handedOver line)) = c.handedOver line :=
  ⟨fun _ _ _ hwords hok => handedOver_lineOf hwords hok,
    fun _ haccepts hok hagain => handedOver_written haccepts hok hagain⟩

/-- The schedule command with one more parameter, which takes the whole input. -/
def scheduleWithText : Command := Schedule.command.addParameter Echo.text

/-- Two notes, one with the name of the parameter that takes the whole input and one empty, behind a
word that belongs to neither. -/
def notes : Segment.Encoding scheduleWithText.isKey where
  leading := ["now"]
  segments := [⟨"note", ["a", "text"]⟩, ⟨"note", []⟩]
  leading_not_key := by decide
  isKey_key := by decide
  words_not_key := by decide

def writtenNotes : Text.Layout where
  front := "\u3000"
  items := [("now", "  "), ("note", "\t"), ("a", "\u2003\n"), ("text", "\x1c"), ("note", "")]
  blank_front := by decide
  isWord := by decide
  blank_gap := by decide
  gap_ne := by decide

theorem handOut_scheduleWithText {line : String}
    (h : Segment.ofWords scheduleWithText.isKey
      (Text.words (scheduleWithText.argumentText line)) = notes.segments) :
    (start (scheduleWithText.handOut line)).1 = .ok () := by
  rw [start, run_handOut, calls, segmentCalls_eq, h]
  generalize scheduleWithText.argumentText line = arguments
  rfl

theorem segments_survive_of_notes :
    let c := scheduleWithText
    let line := c.lineOf ':' writtenNotes
    let values := [("note", "a text"), ("note", "")]
    writtenNotes.words = notes.words ∧ (start (c.handOut line)).1 = .ok () ∧
      c.handedOver line = values ∧ c.accepts line = true ∧
      c.written values = "schedule note a text note " ∧
      (start (c.handOut (c.written values))).1 = .ok () ∧
      c.handedOver (c.written values) = values := by
  intro c line values
  have hwords : writtenNotes.words = notes.words := by decide
  have hok : (start (c.handOut line)).1 = .ok () := handOut_scheduleWithText (by decide)
  have hvalues : c.handedOver line = values :=
    ((segments_survive c).1 notes writtenNotes ':' hwords hok).trans (by decide)
  have haccepts : c.accepts line = true := by decide
  have hagain : (start (c.handOut (c.written values))).1 = .ok () :=
    handOut_scheduleWithText (by decide)
  have hback := (segments_survive c).2 line haccepts hok (by rw [hvalues]; exact hagain)
  rw [hvalues] at hback
  exact ⟨hwords, hok, hvalues, haccepts, by decide, hagain, hback⟩

end Command

end ChatCommands

import ChatCommands.Proofs.OrderedMaps
import ChatCommands.Proofs.Running
import ChatCommands.Proofs.Words
import ChatCommands.Segment

/-!
# What a line delivers

A command reads the words of a line one after another, with a current parameter and the text read
for it so far. This file says by positions which calls that comes to: a *boundary* is the position
of a word that is a key, and a segment is what stands between a boundary and the next one. The main
statement, `fill_eq_carryOut`, is that filling a model makes exactly these calls, up to the first
that fails.
-/

namespace ChatCommands

/-! ## Segments by position -/

namespace Segment

/-- The positions of the words that are keys, in order. -/
def boundaries (isKey : String → Bool) (words : List String) : List Nat :=
  (List.range words.length).filter fun b => words[b]?.any isKey

/-- Where the segment that starts at `b` ends: at the next boundary, or behind all words. -/
def nextBoundary (isKey : String → Bool) (words : List String) (b : Nat) : Nat :=
  ((boundaries isKey words).find? (b < ·)).getD words.length

/-- The segment that starts at `b`: the key there, and the words strictly between `b` and
`nextBoundary`. -/
def startingAt (isKey : String → Bool) (words : List String) (b : Nat) : Segment :=
  ⟨words.getD b "", (words.take (nextBoundary isKey words b)).drop (b + 1)⟩

theorem boundaries_cons (isKey : String → Bool) (word : String) (words : List String) :
    boundaries isKey (word :: words) =
      (if isKey word then [0] else []) ++ (boundaries isKey words).map (· + 1) := by
  have htail : (List.map Nat.succ (List.range words.length)).filter
      (fun b => (word :: words)[b]?.any isKey) = (boundaries isKey words).map (· + 1) := by
    rw [List.filter_map]
    rfl
  rw [boundaries, List.length_cons, List.range_succ_eq_map, List.filter_cons, htail]
  cases h : isKey word <;> simp [h]

theorem nextBoundary_succ (isKey : String → Bool) (word : String) (words : List String) (b : Nat) :
    nextBoundary isKey (word :: words) (b + 1) = nextBoundary isKey words b + 1 := by
  -- a boundary at the head lies before every position that is shifted
  have hhead : (if isKey word then [0] else []).find? (b + 1 < ·) = none := by
    split <;> simp
  have hshift : ((b + 1 < ·) ∘ (· + 1) : Nat → Prop) = (b < ·) := by
    funext i
    simp
  rw [nextBoundary, boundaries_cons, List.find?_append, hhead, List.find?_map]
  cases h : (boundaries isKey words).find? (b < ·) <;> simp_all [nextBoundary, Function.comp_def]

/-- The words that `Segment.ofWords` passes over stand before the first of `boundaries`. -/
theorem takeWhile_eq_take (isKey : String → Bool) (words : List String) :
    words.takeWhile (!isKey ·) =
      words.take ((boundaries isKey words).head?.getD words.length) := by
  induction words with
  | nil => rfl
  | cons word words ih =>
    rw [boundaries_cons]
    cases h : isKey word with
    | true => simp [h]
    | false =>
      cases hb : (boundaries isKey words).head? <;> simp_all

theorem nextBoundary_zero (isKey : String → Bool) (word : String) (words : List String) :
    nextBoundary isKey (word :: words) 0 =
      (boundaries isKey words).head?.getD words.length + 1 := by
  rw [nextBoundary, boundaries_cons, List.find?_append, List.find?_map]
  cases h : isKey word <;> cases hb : boundaries isKey words <;> simp

theorem startingAt_succ (isKey : String → Bool) (word : String) (words : List String) (b : Nat) :
    startingAt isKey (word :: words) (b + 1) = startingAt isKey words b := by
  simp [startingAt, nextBoundary_succ]

theorem startingAt_zero (isKey : String → Bool) (word : String) (words : List String) :
    startingAt isKey (word :: words) 0 = ⟨word, (split isKey words).1⟩ := by
  simp [startingAt, nextBoundary_zero, split_fst, takeWhile_eq_take]

/-- `Segment.ofWords`, which cuts off one segment after another, and `startingAt` at all
`boundaries` agree. -/
theorem ofWords_eq_map_startingAt (isKey : String → Bool) (words : List String) :
    ofWords isKey words = (boundaries isKey words).map (startingAt isKey words) := by
  induction words with
  | nil => rfl
  | cons word words ih =>
    -- the segments behind the head start at the same words, one position later
    have htail : ((boundaries isKey words).map (· + 1)).map (startingAt isKey (word :: words)) =
        ofWords isKey words := by
      rw [ih, List.map_map]
      exact List.map_congr_left fun b _ => startingAt_succ isKey word words b
    rw [boundaries_cons, List.map_append, htail]
    cases h : isKey word with
    | true => simp [ofWords_cons_key words h, startingAt_zero]
    | false => simp [ofWords_cons_word words h]

end Segment

namespace Command

/-! ## The calls of a line -/

/-- A value on its way to a parameter. -/
abbrev Call := Parameter × Delivery

/-- The parameter that takes the segments behind a word; none if the word is no key, or the key of a
parameter that takes the whole input. -/
def taker? (c : Command) (word : String) : Option Parameter :=
  (c.parameters.get? word).filter (!·.wholeInput)

/-- Whether `taker?` finds a parameter. -/
def isKey (c : Command) (word : String) : Bool := (c.taker? word).isSome

/-- A call with the whole argument text for each parameter with `wholeInput`, in insertion order. -/
def wholeCalls (c : Command) (arguments : String) : List Call :=
  (c.parameters.entries.filter (·.2.wholeInput)).map fun (key, p) =>
    (p, ⟨key, p.name, true, arguments⟩)

/-- The call that hands a segment to the parameter under its key. -/
def callOf? (c : Command) (s : Segment) : Option Call :=
  (c.taker? s.key).map fun p => (p, ⟨s.key, p.name, false, s.value⟩)

/-- The call for each segment of `Segment.boundaries`, in the order of the text. -/
def segmentCalls (c : Command) (arguments : String) : List Call :=
  let words := Text.words arguments
  (Segment.boundaries c.isKey words).filterMap fun b =>
    c.callOf? (Segment.startingAt c.isKey words b)

/-- `wholeCalls`, and behind them `segmentCalls`. -/
def calls (c : Command) (arguments : String) : List Call :=
  c.wholeCalls arguments ++ c.segmentCalls arguments

/-- The parameter of a call is the one that `c.parameters` holds under the key. -/
theorem get?_of_mem_calls {c : Command} {arguments : String} {call : Call}
    (h : call ∈ c.calls arguments) : c.parameters.get? call.2.key = some call.1 := by
  rcases List.mem_append.1 h with h | h
  · obtain ⟨entry, hentry, rfl⟩ := List.mem_map.1 h
    exact OrderedMap.lookup_of_mem c.parameters.nodup_keys (List.mem_filter.1 hentry).1
  · obtain ⟨b, -, hcall⟩ := List.mem_filterMap.1 h
    obtain ⟨p, hp, rfl⟩ := Option.map_eq_some_iff.1 hcall
    exact (Option.filter_eq_some_iff.1 hp).1

/-- Make calls on a model until one fails. The result is the outcome, the model after it, and the
deliveries of the calls made, the failed one included. -/
def carryOut : List Call → Model → Except Failure Unit × Model × List Delivery
  | [], model => (.ok (), model, [])
  | (p, delivery) :: calls, model =>
    match (p.parse delivery.value).run.run model with
    | (.error failure, model) => (.error failure, model, [delivery])
    | (.ok (), model) =>
      let (outcome, model, made) := carryOut calls model
      (outcome, model, delivery :: made)

/-! ## Reading the words -/

theorem segmentCalls_eq (c : Command) (arguments : String) :
    c.segmentCalls arguments =
      (Segment.ofWords c.isKey (Text.words arguments)).filterMap c.callOf? := by
  rw [segmentCalls, Segment.ofWords_eq_map_startingAt, List.filterMap_map]
  rfl

theorem scanWord_of_taker {c : Command} {word : String} {p : Parameter}
    (h : c.taker? word = some p) (scan : Scan) :
    c.scanWord scan word = (do scan.finish; return ⟨some (word, p), ""⟩) := by
  obtain ⟨hget, hwhole⟩ := Option.filter_eq_some_iff.1 h
  simp_all [scanWord]

theorem scanWord_of_not_key {c : Command} {word : String} (h : c.taker? word = none)
    (scan : Scan) : c.scanWord scan word = pure (scan.push word) := by
  rw [scanWord]
  cases hget : c.parameters.get? word with
  | none => rfl
  | some p =>
    have hwhole : p.wholeInput = true := by simpa [taker?, hget] using h
    simp [hwhole]

/-- The call that a scan with parameter `current` is about to make. -/
def pendingCall (current : Option (String × Parameter)) (words : List String) : List Call :=
  match current with
  | none => []
  | some (key, p) => [(p, ⟨key, p.name, false, Text.unwords words⟩)]

def makeCall (call : Call) : Work Unit := deliver call.1 call.2

theorem finish_eq (current : Option (String × Parameter)) {words : List String}
    (h : ∀ w ∈ words, Text.IsWord w) :
    Scan.finish ⟨current, Text.spaced words⟩ = (pendingCall current words).forM makeCall := by
  cases current with
  | none => rfl
  | some entry =>
    simp [Scan.finish, pendingCall, makeCall, Text.trim_spaced h]

/-- Scanning `words` with `pending` in the buffer first makes the call of the current parameter,
whose value also gets the words up to the next key, and then the calls of `Segment.ofWords`. -/
theorem foldlM_scanWord (c : Command) (words pending : List String)
    (current : Option (String × Parameter)) (hwords : ∀ w ∈ words, Text.IsWord w)
    (hpending : ∀ w ∈ pending, Text.IsWord w) :
    (words.foldlM c.scanWord ⟨current, Text.spaced pending⟩ >>= Scan.finish) =
      (pendingCall current (pending ++ (Segment.split c.isKey words).1) ++
        (Segment.ofWords c.isKey words).filterMap c.callOf?).forM makeCall := by
  induction words generalizing pending current with
  | nil => simp [Segment.split, finish_eq current hpending]
  | cons word words ih =>
    have hrest : ∀ w ∈ words, Text.IsWord w := fun w hw => hwords w (List.mem_cons_of_mem _ hw)
    rw [List.foldlM_cons]
    cases h : c.taker? word with
    | none =>
      -- the word goes into the buffer
      have hkey : c.isKey word = false := by simp [isKey, h]
      have hpush : Scan.push ⟨current, Text.spaced pending⟩ word =
          ⟨current, Text.spaced (pending ++ [word])⟩ := by
        rw [Text.spaced_append_singleton]
        rfl
      have hall : ∀ w ∈ pending ++ [word], Text.IsWord w := by
        intro w hw
        rcases List.mem_append.1 hw with hw | hw
        · exact hpending w hw
        · exact hwords w (by simp_all)
      rw [scanWord_of_not_key h, pure_bind, hpush, ih (pending ++ [word]) current hrest hall,
        Segment.ofWords_cons_word words hkey]
      simp [Segment.split, hkey]
    | some p =>
      -- the word ends the pending call, and the next one starts with an empty buffer
      have hkey : c.isKey word = true := by simp [isKey, h]
      have hcall : c.callOf? ⟨word, (Segment.split c.isKey words).1⟩ =
          some (p, ⟨word, p.name, false, Text.unwords (Segment.split c.isKey words).1⟩) := by
        simp [callOf?, h, Segment.value, Text.unwords]
      have hnext := ih [] (some (word, p)) hrest (by simp)
      rw [scanWord_of_taker h, Segment.ofWords_cons_key words hkey, List.filterMap_cons, hcall,
        finish_eq current hpending]
      simp only [bind_assoc, pure_bind]
      rw [← Text.spaced_nil, hnext]
      simp [Segment.split, hkey, pendingCall, List.forM_append]

theorem deliverSegments_eq (c : Command) (arguments : String) :
    c.deliverSegments arguments = (c.segmentCalls arguments).forM makeCall := by
  have h := c.foldlM_scanWord (Text.words arguments) [] none
    (fun _ hw => Text.isWord_of_mem_words hw) (by simp)
  rw [segmentCalls_eq]
  simpa [deliverSegments, Scan.start, pendingCall] using h

theorem deliverWhole_eq (c : Command) (arguments : String) :
    c.deliverWhole arguments = (c.wholeCalls arguments).forM makeCall := by
  rw [deliverWhole, wholeCalls]
  induction c.parameters.entries with
  | nil => rfl
  | cons entry entries ih =>
    obtain ⟨key, p⟩ := entry
    simp only [List.forM_eq_forM, List.forM_map, makeCall] at ih
    cases h : p.wholeInput with
    | false => simpa [h, makeCall] using ih
    | true => simp [h, makeCall, ih]

/-! ## Making the calls -/

theorem run_makeCall (p : Parameter) (delivery : Delivery) (frame : Frame) :
    (makeCall (p, delivery)).run.run frame =
      let (outcome, model) := (p.parse delivery.value).run.run frame.model
      (outcome, ⟨model, frame.events ++ [.delivered delivery]⟩) := by
  rw [makeCall, deliver, run_run_bind, Work.run_note]
  exact Work.run_act _ _

theorem run_forM_makeCall (calls : List Call) (frame : Frame) :
    (calls.forM makeCall).run.run frame =
      let (outcome, model, made) := carryOut calls frame.model
      (outcome, ⟨model, frame.events ++ made.map .delivered⟩) := by
  induction calls generalizing frame with
  | nil =>
    rw [carryOut]
    simp only [List.map_nil, List.append_nil]
    rfl
  | cons call calls ih =>
    obtain ⟨p, delivery⟩ := call
    have hcons : (((p, delivery) :: calls).forM makeCall) =
        (makeCall (p, delivery) >>= fun _ => calls.forM makeCall) := rfl
    rw [hcons, run_run_bind, run_makeCall, carryOut]
    -- a call that fails ends the calls on both sides
    rcases h : (p.parse delivery.value).run.run frame.model with ⟨failure | _, model⟩
    · rfl
    · simp only [ih, List.map_cons, List.append_assoc, List.singleton_append]

/-- `Command.fill` is to reset the model, make `calls` of the argument text, and validate. -/
theorem fill_eq (c : Command) (line : String) :
    c.fill line = (do
      Work.reset
      (c.calls (c.argumentText line)).forM makeCall
      c.ensureValid) := by
  simp only [fill, deliverWhole_eq, deliverSegments_eq, calls, List.forM_eq_forM,
    List.forM_append, bind_assoc]

theorem argumentText_append (c : Command) (rest : String) :
    c.argumentText (c.name ++ rest) = Text.drop rest 1 := by
  rw [argumentText, Text.drop, Text.drop, String.toList_append, ← String.length_toList,
    List.drop_length_add_append]

theorem accepts_append (c : Command) (rest : String) : c.accepts (c.name ++ rest) = true := by
  rw [accepts, Text.startsWith, List.isPrefixOf_iff_prefix, String.toList_append]
  exact List.prefix_append _ _

theorem accepts_unwords (c : Command) (texts : List String) :
    c.accepts (Text.unwords (c.name :: texts)) = true := by
  by_cases h : texts = []
  · subst h
    simpa [Text.unwords] using c.accepts_append ""
  · rw [Text.unwords_cons h]
    exact c.accepts_append _

theorem words_argumentText_unwords (c : Command) (texts : List String) :
    Text.words (c.argumentText (Text.unwords (c.name :: texts))) = texts.flatMap Text.words := by
  by_cases h : texts = []
  · subst h
    have hnothing : Text.words (c.argumentText (c.name ++ "")) = [] := by
      rw [argumentText_append]
      rfl
    simpa [Text.unwords] using hnothing
  · rw [Text.unwords_cons h, argumentText_append, ← Text.words_unwords, Text.drop,
      String.toList_append]
    show Text.words (String.ofList (Text.unwords texts).toList) = _
    rw [String.ofList_toList]

/-- The words of `argumentText` are those behind the name, if the line starts with the name as a
word. -/
theorem words_argumentText_of_words {c : Command} {line : String} {more : List String}
    (hname : Text.IsWord c.name) (haccepts : c.accepts line = true)
    (h : Text.words line = c.name :: more) : Text.words (c.argumentText line) = more := by
  rw [accepts, Text.startsWith, List.isPrefixOf_iff_prefix] at haccepts
  obtain ⟨rest, hline⟩ := haccepts
  have hchars := congrArg (List.map String.toList) h
  simp only [Text.words, ← hline, List.map_map, Function.comp_def, String.toList_ofList,
    List.map_id', List.map_cons] at hchars
  rw [argumentText, Text.drop, ← hline, ← String.length_toList, List.drop_length_add_append,
    Text.words, String.toList_ofList, Chars.words_drop_one hname hchars, List.map_map]
  simp [Function.comp_def]

/-- `Command.fill` on a line that starts with the name runs `carryOut` on the empty model and the
`calls` of the argument text. If a call fails, its failure is the outcome and the model stays as the
calls have made it; otherwise the model is validated. -/
theorem fill_eq_carryOut (c : Command) (rest : String) (frame : Frame) :
    (c.fill (c.name ++ rest)).run.run frame =
      let (outcome, model, made) := carryOut (c.calls (Text.drop rest 1)) ∅
      let after : Frame := ⟨model, frame.events ++ made.map .delivered⟩
      match outcome with
      | .error failure => (.error failure, after)
      | .ok () => c.ensureValid.run.run after := by
  rw [fill_eq, argumentText_append, run_run_bind, Work.run_reset]
  simp only [run_run_bind, run_forM_makeCall]
  rcases carryOut (c.calls (Text.drop rest 1)) ∅ with ⟨failure | _, model, made⟩ <;> rfl

end Command

end ChatCommands

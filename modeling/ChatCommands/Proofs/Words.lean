import ChatCommands.Text.Blank

/-!
# Words and the texts that are made of them

What the words of a text are, and how a text is put together from words again. Two ways of writing
words down matter: with a single space between them, and with a space behind each. Trimming takes
the second to the first, and splitting takes the first back to the words.
-/

namespace ChatCommands

namespace Chars

/-- A word: not empty, and `isBlank` holds of none of its characters. -/
def IsWord (word : List Char) : Prop := word ≠ [] ∧ ∀ c ∈ word, isBlank c = false

instance (word : List Char) : Decidable (IsWord word) :=
  decidable_of_iff (word ≠ [] ∧ word.all (!isBlank ·) = true) (by simp [IsWord])

/-! ## Trimming -/

theorem trimEnd_append_blank (cs : List Char) {c : Char} (h : isBlank c = true) :
    trimEnd (cs ++ [c]) = trimEnd cs := by
  simp [trimEnd, List.foldr_append, h]

theorem trimEnd_append_last (cs : List Char) {c : Char} (h : isBlank c = false) :
    trimEnd (cs ++ [c]) = cs ++ [c] := by
  induction cs with
  | nil => simp [trimEnd, h]
  | cons d ds ih =>
    -- what follows `d` is not cut to nothing, so `d` stays as well
    have hstep : trimEnd (d :: (ds ++ [c])) =
        if (trimEnd (ds ++ [c])).isEmpty && isBlank d then [] else d :: trimEnd (ds ++ [c]) := rfl
    rw [List.cons_append, hstep, ih]
    simp

/-- `trim` leaves a text alone that starts and ends with a character that is not blank. -/
theorem trim_eq_self {cs : List Char} (hhead : ∃ c rest, cs = c :: rest ∧ isBlank c = false)
    (hlast : ∃ c front, cs = front ++ [c] ∧ isBlank c = false) : trim cs = cs := by
  obtain ⟨c, front, hc, hcb⟩ := hlast
  obtain ⟨d, rest, hd, hdb⟩ := hhead
  rw [trim, hc, trimEnd_append_last front hcb, ← hc, hd, trimStart,
    List.dropWhile_cons_of_neg (by simp [hdb])]

/-! ## Words written down -/

/-- The words with a space behind each. -/
def spaced (words : List (List Char)) : List Char := words.flatMap (· ++ [' '])

/-- `spaced` puts one space more behind the last word than `intercalate`. -/
theorem spaced_eq_intercalate (word : List Char) (words : List (List Char)) :
    spaced (word :: words) = [' '].intercalate (word :: words) ++ [' '] := by
  induction words generalizing word with
  | nil => simp [spaced]
  | cons next words ih =>
    have hstep : spaced (word :: next :: words) = word ++ [' '] ++ spaced (next :: words) := rfl
    rw [hstep, ih, List.intercalate_cons_cons]
    simp

theorem head_intercalate {word : List Char} (words : List (List Char)) (h : IsWord word) :
    ∃ c rest, [' '].intercalate (word :: words) = c :: rest ∧ isBlank c = false := by
  obtain ⟨hne, hblank⟩ := h
  obtain ⟨c, cs, rfl⟩ := List.exists_cons_of_ne_nil hne
  cases words with
  | nil => exact ⟨c, cs, by simp, hblank c (by simp)⟩
  | cons next words =>
    exact ⟨c, cs ++ [' '] ++ [' '].intercalate (next :: words),
      by rw [List.intercalate_cons_cons]; simp, hblank c (by simp)⟩

theorem last_intercalate {word : List Char} {words : List (List Char)}
    (h : ∀ w ∈ word :: words, IsWord w) :
    ∃ c front, [' '].intercalate (word :: words) = front ++ [c] ∧ isBlank c = false := by
  induction words generalizing word with
  | nil =>
    obtain ⟨hne, hblank⟩ := h word (by simp)
    refine ⟨word.getLast hne, word.dropLast, ?_, hblank _ (List.getLast_mem hne)⟩
    rw [List.intercalate_singleton, List.dropLast_concat_getLast]
  | cons next words ih =>
    obtain ⟨c, front, heq, hblank⟩ := ih fun w hw => h w (List.mem_cons_of_mem _ hw)
    refine ⟨c, word ++ [' '] ++ front, ?_, hblank⟩
    rw [List.intercalate_cons_cons, heq]
    simp

/-- `trim` takes the space behind the last word away. -/
theorem trim_spaced {words : List (List Char)} (h : ∀ w ∈ words, IsWord w) :
    trim (spaced words) = [' '].intercalate words := by
  cases words with
  | nil => rfl
  | cons word words =>
    have htrim : trim ([' '].intercalate (word :: words)) = [' '].intercalate (word :: words) :=
      trim_eq_self (head_intercalate words (h word (by simp))) (last_intercalate h)
    -- the space behind the last word is cut, and then there is nothing more to cut
    rw [spaced_eq_intercalate, trim, trimEnd_append_blank _ (by decide)]
    exact htrim

/-! ## Splitting -/

theorem splitWord_fst (cs : List Char) : (splitWord cs).1 = cs.takeWhile (!isBlank ·) := by
  induction cs with
  | nil => rfl
  | cons c cs ih => cases h : isBlank c <;> simp [splitWord, h, ih]

theorem not_blank_of_mem_splitWord {cs : List Char} {c : Char} (h : c ∈ (splitWord cs).1) :
    isBlank c = false := by
  rw [splitWord_fst] at h
  have hall := List.all_eq_true.1 (List.all_takeWhile (l := cs) (p := (!isBlank ·))) c h
  simpa using hall

theorem isWord_of_mem_consWord {word w : List Char} {words : List (List Char)}
    (hword : ∀ c ∈ word, isBlank c = false) (hwords : ∀ w ∈ words, IsWord w)
    (h : w ∈ consWord word words) : IsWord w := by
  unfold consWord at h
  split at h
  · exact hwords w h
  · rename_i hne
    rcases List.mem_cons.1 h with rfl | h
    · exact ⟨by simpa using hne, hword⟩
    · exact hwords w h

theorem isWord_of_mem_splitWord {cs w : List Char} (h : w ∈ (splitWord cs).2) : IsWord w := by
  induction cs generalizing w with
  | nil => simp [splitWord] at h
  | cons c cs ih =>
    cases hc : isBlank c with
    | false => exact ih (by simpa [splitWord, hc] using h)
    | true =>
      have hmem : w ∈ consWord (splitWord cs).1 (splitWord cs).2 := by
        simpa [splitWord, hc] using h
      exact isWord_of_mem_consWord (fun d hd => not_blank_of_mem_splitWord hd) (fun w hw => ih hw)
        hmem

theorem isWord_of_mem_words {cs w : List Char} (h : w ∈ words cs) : IsWord w :=
  isWord_of_mem_consWord (fun _ hd => not_blank_of_mem_splitWord hd)
    (fun _ hw => isWord_of_mem_splitWord hw) h

theorem consWord_append (word : List Char) (words more : List (List Char)) :
    consWord word (words ++ more) = consWord word words ++ more := by
  unfold consWord
  split <;> rfl

theorem splitWord_append_blank {c : Char} (h : isBlank c = true) (cs ds : List Char) :
    splitWord (cs ++ c :: ds) = ((splitWord cs).1, (splitWord cs).2 ++ words ds) := by
  -- the first word ends in front of the blank at the latest
  induction cs with
  | nil => simp [splitWord, words, h]
  | cons d cs ih => cases hd : isBlank d <;> simp [splitWord, ih, hd, consWord_append]

/-- `words` splits at a blank: the words in front of it, then those behind it. -/
theorem words_append_blank {c : Char} (h : isBlank c = true) (cs ds : List Char) :
    words (cs ++ c :: ds) = words cs ++ words ds := by
  simp only [words, splitWord_append_blank h, consWord_append]

theorem splitWord_of_not_blank {cs : List Char} (h : ∀ c ∈ cs, isBlank c = false) :
    splitWord cs = (cs, []) := by
  induction cs with
  | nil => rfl
  | cons c cs ih =>
    rw [splitWord, ih fun d hd => h d (List.mem_cons_of_mem _ hd)]
    simp [h c (by simp)]

theorem words_of_isWord {word : List Char} (h : IsWord word) : words word = [word] := by
  simp [words, splitWord_of_not_blank h.2, consWord, h.1]

/-- Behind a first word there is a blank or nothing, so `drop 1` loses no word. -/
theorem words_drop_one {word cs : List Char} {more : List (List Char)} (hword : IsWord word)
    (h : words (word ++ cs) = word :: more) : words (cs.drop 1) = more := by
  cases cs with
  | nil =>
    rw [List.append_nil, words_of_isWord hword] at h
    exact (List.cons.inj h).2
  | cons c cs =>
    cases hc : isBlank c with
    | true =>
      rw [words_append_blank hc, words_of_isWord hword] at h
      exact (List.cons.inj h).2
    | false =>
      -- the first word would be longer
      have hfirst : (splitWord (word ++ c :: cs)).1 = word ++ c :: cs.takeWhile (!isBlank ·) := by
        rw [splitWord_fst, List.takeWhile_append_of_pos fun d hd => by simp [hword.2 d hd],
          List.takeWhile_cons_of_pos (by simp [hc])]
      have hwords : words (word ++ c :: cs) =
          (splitWord (word ++ c :: cs)).1 :: (splitWord (word ++ c :: cs)).2 :=
        if_neg (by simp [hfirst])
      rw [hwords, hfirst] at h
      have hlength := congrArg List.length (List.cons.inj h).1
      simp at hlength

/-- `words` of texts joined by single spaces are the words of all the texts. -/
theorem words_intercalate (texts : List (List Char)) :
    words ([' '].intercalate texts) = texts.flatMap words := by
  induction texts with
  | nil => rfl
  | cons text texts ih =>
    cases texts with
    | nil => simp
    | cons next texts =>
      rw [List.intercalate_cons_cons, List.append_assoc, List.singleton_append,
        words_append_blank (by decide), ih, ← List.flatMap_cons]

theorem infix_splitWord_fst (cs : List Char) : (splitWord cs).1 <:+: cs := by
  rw [splitWord_fst]
  exact (List.takeWhile_prefix _).isInfix

theorem infix_of_mem_consWord {word w cs : List Char} {words : List (List Char)}
    (hword : word <:+: cs) (hwords : ∀ w ∈ words, w <:+: cs) (h : w ∈ consWord word words) :
    w <:+: cs := by
  unfold consWord at h
  split at h
  · exact hwords w h
  · rcases List.mem_cons.1 h with rfl | h
    · exact hword
    · exact hwords w h

theorem infix_of_mem_splitWord {cs w : List Char} (h : w ∈ (splitWord cs).2) : w <:+: cs := by
  induction cs generalizing w with
  | nil => simp [splitWord] at h
  | cons c cs ih =>
    have hcons {v : List Char} (hv : v <:+: cs) : v <:+: c :: cs :=
      hv.trans (List.suffix_cons c cs).isInfix
    cases hc : isBlank c with
    | false => exact hcons (ih (by simpa [splitWord, hc] using h))
    | true =>
      have hmem : w ∈ consWord (splitWord cs).1 (splitWord cs).2 := by
        simpa [splitWord, hc] using h
      exact hcons (infix_of_mem_consWord (infix_splitWord_fst cs) (fun v hv => ih hv) hmem)

/-- A word of `words cs` stands in `cs` as it is. -/
theorem infix_of_mem_words {cs w : List Char} (h : w ∈ words cs) : w <:+: cs :=
  infix_of_mem_consWord (infix_splitWord_fst cs) (fun _ hv => infix_of_mem_splitWord hv) h

end Chars

namespace Text

/-- `Chars.IsWord` for strings. -/
def IsWord (word : String) : Prop := Chars.IsWord word.toList

instance (word : String) : Decidable (IsWord word) :=
  inferInstanceAs (Decidable (Chars.IsWord word.toList))

/-- `Chars.spaced` for strings. -/
def spaced (words : List String) : String := String.ofList (Chars.spaced (words.map String.toList))

@[simp] theorem spaced_nil : spaced [] = "" := rfl

theorem spaced_append_singleton (words : List String) (word : String) :
    spaced (words ++ [word]) = spaced words ++ (word ++ " ") := by
  apply String.toList_inj.1
  simp [spaced, Chars.spaced]

theorem isWord_of_mem_words {text word : String} (h : word ∈ words text) : IsWord word := by
  obtain ⟨cs, hcs, rfl⟩ := List.mem_map.1 h
  simpa [IsWord] using Chars.isWord_of_mem_words hcs

/-- `trim` takes `spaced words` to `unwords words`. -/
theorem trim_spaced {words : List String} (h : ∀ w ∈ words, IsWord w) :
    trim (spaced words) = unwords words := by
  apply String.toList_inj.1
  have hchars : ∀ w ∈ words.map String.toList, Chars.IsWord w := by
    intro w hw
    obtain ⟨word, hword, rfl⟩ := List.mem_map.1 hw
    exact h word hword
  simp only [trim, spaced, unwords, String.toList_ofList, String.toList_intercalate]
  rw [Chars.trim_spaced hchars]
  rfl

theorem words_of_isWord {word : String} (h : IsWord word) : words word = [word] := by
  rw [words, Chars.words_of_isWord h, List.map_singleton, String.ofList_toList]

theorem words_unwords (texts : List String) : words (unwords texts) = texts.flatMap words := by
  have hspace : " ".toList = [' '] := rfl
  rw [words, unwords, String.toList_intercalate, hspace, Chars.words_intercalate,
    List.flatMap_map, List.map_flatMap]
  rfl

theorem unwords_cons {text : String} {texts : List String} (h : texts ≠ []) :
    unwords (text :: texts) = text ++ (" " ++ unwords texts) := by
  obtain ⟨next, texts, rfl⟩ := List.exists_cons_of_ne_nil h
  apply String.toList_inj.1
  simp [unwords]

/-- `words` takes `unwords texts` back to `texts`, if these are words. -/
theorem words_unwords_of_isWord {texts : List String} (h : ∀ w ∈ texts, IsWord w) :
    words (unwords texts) = texts := by
  rw [words_unwords]
  induction texts with
  | nil => rfl
  | cons text texts ih =>
    rw [List.flatMap_cons, words_of_isWord (h text (by simp)),
      ih fun w hw => h w (List.mem_cons_of_mem _ hw), List.singleton_append]

end Text

end ChatCommands

/-!
# Segments

The words of an argument text fall into segments: each starts at a word that is the key of a
parameter, and runs up to the next such word. The words in front of the first key belong to no
segment.
-/

namespace ChatCommands

/-- A key and the words behind it. -/
structure Segment where
  key : String
  words : List String
deriving DecidableEq

namespace Segment

/-- The words in front of the first key, and the segments in order. -/
def split (isKey : String → Bool) : List String → List String × List Segment
  | [] => ([], [])
  | word :: words =>
    let (leading, segments) := split isKey words
    if isKey word then ([], ⟨word, leading⟩ :: segments) else (word :: leading, segments)

def ofWords (isKey : String → Bool) (words : List String) : List Segment :=
  (split isKey words).2

/-- The words of a segment with single spaces between them. -/
def value (s : Segment) : String :=
  String.intercalate " " s.words

@[simp] theorem ofWords_nil (isKey : String → Bool) : ofWords isKey [] = [] := rfl

/-- A key starts a segment, which holds the words up to the next key. -/
theorem ofWords_cons_key {isKey : String → Bool} {word : String} (words : List String)
    (h : isKey word = true) :
    ofWords isKey (word :: words) = ⟨word, (split isKey words).1⟩ :: ofWords isKey words := by
  simp [ofWords, split, h]

theorem ofWords_cons_word {isKey : String → Bool} {word : String} (words : List String)
    (h : isKey word = false) : ofWords isKey (word :: words) = ofWords isKey words := by
  simp [ofWords, split, h]

/-- The words in front of the first key are those that `takeWhile` takes. -/
theorem split_fst (isKey : String → Bool) (words : List String) :
    (split isKey words).1 = words.takeWhile (!isKey ·) := by
  induction words with
  | nil => rfl
  | cons word words ih =>
    cases h : isKey word <;> simp [split, h, ih]

theorem isKey_of_mem {isKey : String → Bool} {words : List String} {s : Segment}
    (h : s ∈ ofWords isKey words) : isKey s.key = true := by
  induction words with
  | nil => simp at h
  | cons word words ih =>
    cases hword : isKey word with
    | false => exact ih (by rwa [ofWords_cons_word words hword] at h)
    | true =>
      rw [ofWords_cons_key words hword] at h
      rcases List.mem_cons.1 h with rfl | h
      · exact hword
      · exact ih h

/-- The words of a segment are words of the list, and no keys. -/
theorem not_isKey_of_mem {isKey : String → Bool} {words : List String} {s : Segment}
    (h : s ∈ ofWords isKey words) : ∀ word ∈ s.words, word ∈ words ∧ isKey word = false := by
  induction words with
  | nil => simp at h
  | cons first words ih =>
    have hlater (h : s ∈ ofWords isKey words) : ∀ word ∈ s.words,
        word ∈ first :: words ∧ isKey word = false :=
      fun word hword => ⟨List.mem_cons_of_mem _ (ih h word hword).1, (ih h word hword).2⟩
    cases hfirst : isKey first with
    | false => exact hlater (by rwa [ofWords_cons_word words hfirst] at h)
    | true =>
      rw [ofWords_cons_key words hfirst] at h
      rcases List.mem_cons.1 h with rfl | h
      · -- the words of the first segment lead up to the next key
        intro word hword
        rw [split_fst] at hword
        have hall :=
          List.all_eq_true.1 (List.all_takeWhile (l := words) (p := (!isKey ·))) word hword
        exact ⟨List.mem_cons_of_mem _ ((List.takeWhile_prefix _).subset hword), by simpa using hall⟩
      · exact hlater h

theorem split_append {isKey : String → Bool} {leading : List String}
    (h : ∀ word ∈ leading, isKey word = false) (words : List String) :
    split isKey (leading ++ words) =
      (leading ++ (split isKey words).1, (split isKey words).2) := by
  induction leading with
  | nil => rfl
  | cons word leading ih =>
    rw [List.cons_append, split, ih fun w hw => h w (List.mem_cons_of_mem _ hw)]
    simp [h word (by simp)]

/-- `ofWords` takes segments back that are written one after another, if their keys are keys and
their words are not. -/
theorem ofWords_flatMap {isKey : String → Bool} {segments : List Segment}
    (hkeys : ∀ s ∈ segments, isKey s.key = true)
    (hwords : ∀ s ∈ segments, ∀ word ∈ s.words, isKey word = false) :
    ofWords isKey (segments.flatMap fun s => s.key :: s.words) = segments := by
  have hsplit : split isKey (segments.flatMap fun s => s.key :: s.words) = ([], segments) := by
    induction segments with
    | nil => rfl
    | cons s segments ih =>
      have hlater := ih (fun t ht => hkeys t (List.mem_cons_of_mem _ ht))
        (fun t ht => hwords t (List.mem_cons_of_mem _ ht))
      rw [List.flatMap_cons, List.cons_append, split, split_append (hwords s (by simp)), hlater]
      simp [hkeys s (by simp)]
  rw [ofWords, hsplit]

end Segment

end ChatCommands

import ChatCommands.Proofs.Words
import ChatCommands.Text.Search

/-!
# Where a pattern occurs

A pattern occurs in a text when the text holds it as a contiguous part. A pattern without a blank
occurs in a text only if it occurs in one of its words, and in texts with single spaces between them
only if it occurs in one of the texts.
-/

namespace ChatCommands

namespace Chars

theorem occursIn_iff_isInfix (pattern text : List Char) :
    occursIn pattern text = true ↔ pattern <:+: text := by
  induction text with
  | nil => simp [occursIn]
  | cons c text ih => simp [occursIn, ih, List.infix_cons_iff]

/-- A pattern without `c` that occurs around a `c` occurs in front of it or behind it. -/
theorem infix_append_cons {pattern before behind : List Char} {c : Char} (hc : c ∉ pattern)
    (h : pattern <:+: before ++ c :: behind) : pattern <:+: before ∨ pattern <:+: behind := by
  obtain ⟨front, back, heq⟩ := h
  rcases List.append_eq_append_iff.1 heq with ⟨gap, hbefore, -⟩ | ⟨gap, hfront, hback⟩
  · exact .inl ⟨front, gap, hbefore.symm⟩
  · cases gap with
    | nil => exact .inl ⟨front, [], by simpa using hfront⟩
    | cons d gap =>
      obtain ⟨rfl, rfl⟩ := List.cons.inj hback
      -- the pattern and the separator with what follows it both end the same text
      have hpattern : pattern <:+ before ++ c :: gap := ⟨front, hfront⟩
      have hgap : c :: gap <:+ before ++ c :: gap := List.suffix_append _ _
      rcases List.suffix_or_suffix_of_suffix hpattern hgap with hshort | hlong
      · rcases List.suffix_cons_iff.1 hshort with rfl | hshort
        · exact absurd List.mem_cons_self hc
        · exact .inr (hshort.isInfix.trans (List.prefix_append _ _).isInfix)
      · exact absurd (hlong.subset List.mem_cons_self) hc

theorem infix_intercalate {pattern : List Char} (hc : ' ' ∉ pattern) (hne : pattern ≠ [])
    {texts : List (List Char)} (h : pattern <:+: [' '].intercalate texts) :
    ∃ text ∈ texts, pattern <:+: text := by
  induction texts with
  | nil => exact absurd (List.infix_nil.1 h) hne
  | cons text texts ih =>
    cases texts with
    | nil => exact ⟨text, by simp, by simpa using h⟩
    | cons next texts =>
      rw [List.intercalate_cons_cons, List.append_assoc, List.singleton_append] at h
      rcases infix_append_cons hc h with h | h
      · exact ⟨text, by simp, h⟩
      · obtain ⟨other, hmem, hother⟩ := ih h
        exact ⟨other, List.mem_cons_of_mem _ hmem, hother⟩

theorem prefix_takeWhile {pattern cs : List Char} (hblank : ∀ c ∈ pattern, isBlank c = false)
    (h : pattern <+: cs) : pattern <+: cs.takeWhile (!isBlank ·) := by
  obtain ⟨rest, rfl⟩ := h
  rw [List.takeWhile_append_of_pos fun c hc => by simp [hblank c hc]]
  exact List.prefix_append _ _

/-- The same for the words that `consWord` makes; this needs a pattern that is not empty. -/
theorem exists_mem_consWord {pattern word : List Char} {words : List (List Char)}
    (hne : pattern ≠ []) (h : pattern <:+: word ∨ ∃ w ∈ words, pattern <:+: w) :
    ∃ w ∈ consWord word words, pattern <:+: w := by
  unfold consWord
  split
  · rename_i hempty
    refine h.resolve_left fun hword => hne ?_
    rwa [List.isEmpty_iff.1 hempty, List.infix_nil] at hword
  · rcases h with hword | ⟨w, hmem, hw⟩
    · exact ⟨word, List.mem_cons_self, hword⟩
    · exact ⟨w, List.mem_cons_of_mem _ hmem, hw⟩

/-- A pattern without a blank does not reach over what `splitWord` splits at. -/
theorem infix_splitWord {pattern cs : List Char} (hpattern : IsWord pattern) (h : pattern <:+: cs) :
    pattern <:+: (splitWord cs).1 ∨ ∃ word ∈ (splitWord cs).2, pattern <:+: word := by
  induction cs with
  | nil => exact absurd (List.infix_nil.1 h) hpattern.1
  | cons c cs ih =>
    rcases List.infix_cons_iff.1 h with hprefix | hlater
    · -- it starts here, and goes on up to the first blank at most
      refine .inl ?_
      rw [splitWord_fst]
      exact (prefix_takeWhile hpattern.2 hprefix).isInfix
    · rw [splitWord]
      cases hc : isBlank c with
      | false => exact (ih hlater).imp_left fun hword => hword.trans (List.suffix_cons c _).isInfix
      | true => exact .inr (exists_mem_consWord hpattern.1 (ih hlater))

/-- A pattern without a blank occurs in a text exactly if it occurs in one of its `words`. -/
theorem infix_iff_exists_word {pattern cs : List Char} (hpattern : IsWord pattern) :
    pattern <:+: cs ↔ ∃ word ∈ words cs, pattern <:+: word :=
  ⟨fun h => exists_mem_consWord hpattern.1 (infix_splitWord hpattern h),
    fun ⟨_, hmem, hword⟩ => hword.trans (infix_of_mem_words hmem)⟩

end Chars

namespace Text

theorem contains_iff_isInfix (text pattern : String) :
    contains text pattern = true ↔ pattern.toList <:+: text.toList :=
  Chars.occursIn_iff_isInfix _ _

theorem contains_word {text word pattern : String} (hword : word ∈ words text)
    (h : contains text pattern = false) : contains word pattern = false := by
  obtain ⟨cs, hcs, rfl⟩ := List.mem_map.1 hword
  rw [Bool.eq_false_iff, ne_eq, contains_iff_isInfix] at h ⊢
  rw [String.toList_ofList]
  exact fun hpart => h (hpart.trans (Chars.infix_of_mem_words hcs))

/-- `Chars.infix_iff_exists_word` for `contains`. -/
theorem contains_iff_exists_word {text pattern : String} (hpattern : IsWord pattern) :
    contains text pattern = true ↔ ∃ word ∈ words text, contains word pattern = true := by
  rw [contains_iff_isInfix, Chars.infix_iff_exists_word hpattern]
  constructor
  · rintro ⟨cs, hcs, hpart⟩
    refine ⟨String.ofList cs, List.mem_map_of_mem hcs, ?_⟩
    rwa [contains_iff_isInfix, String.toList_ofList]
  · rintro ⟨word, hword, hpart⟩
    obtain ⟨cs, hcs, rfl⟩ := List.mem_map.1 hword
    rw [contains_iff_isInfix, String.toList_ofList] at hpart
    exact ⟨cs, hcs, hpart⟩

/-- A pattern without a space that occurs in none of `texts` does not occur in `unwords texts`. -/
theorem contains_unwords {texts : List String} {pattern : String} (hspace : ' ' ∉ pattern.toList)
    (hne : pattern ≠ "") (h : ∀ text ∈ texts, contains text pattern = false) :
    contains (unwords texts) pattern = false := by
  have hempty : pattern.toList ≠ [] := by simpa using hne
  rw [Bool.eq_false_iff, ne_eq, contains_iff_isInfix, unwords, String.toList_intercalate]
  intro hpart
  obtain ⟨cs, hcs, hpattern⟩ := Chars.infix_intercalate hspace hempty hpart
  obtain ⟨text, htext, rfl⟩ := List.mem_map.1 hcs
  have hcontains := (contains_iff_isInfix text pattern).2 hpattern
  rw [h text htext] at hcontains
  cases hcontains

end Text

end ChatCommands

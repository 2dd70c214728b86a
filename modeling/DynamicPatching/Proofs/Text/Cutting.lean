import DynamicPatching.Text.Basic
import Mathlib.Data.List.DropRight

/-!
# Laws of cutting, trimming and joining

Lines are made by joining texts with single spaces and read by cutting them again, at single spaces
(`pieces`), at blanks (`words`) or at the first space (`splitFirst`). Each way of cutting undoes the
joining of texts that hold no cut (`pieces_spaced`, `words_spaced`, `splitFirst_spaced`), and a row
of trimmed texts joins to a trimmed text (`trim_spaced`). Only the ends of a joined text matter for
trimming, so it stays trimmed when some of its texts are replaced by words (`trim_spaced_map`).
-/

namespace DynamicPatching.Text

/-! ## Cutting -/

theorem spaced_nil : spaced [] = [] := rfl

theorem spaced_singleton (text : Text) : spaced [text] = text := List.intercalate_singleton

/-- No piece holds a cut. -/
theorem isCut_of_mem_splitOnP {isCut : Char → Bool} {text piece : Text} {c : Char}
    (hpiece : piece ∈ text.splitOnP isCut) (hc : c ∈ piece) : isCut c = false := by
  induction text generalizing piece with
  | nil =>
      rw [List.mem_singleton.1 hpiece] at hc
      cases hc
  | cons d rest ih =>
      rw [List.splitOnP_cons_eq_if_modifyHead] at hpiece
      split at hpiece
      · rcases List.mem_cons.1 hpiece with rfl | hrest
        · cases hc
        · exact ih hrest hc
      · rename_i hd
        cases hcut : rest.splitOnP isCut with
        | nil => exact absurd hcut (List.splitOnP_ne_nil isCut rest)
        | cons first others =>
            rw [hcut] at ih hpiece
            rcases List.mem_cons.1 hpiece with rfl | hothers
            · rcases List.mem_cons.1 hc with rfl | hfirst
              · simpa using hd
              · exact ih List.mem_cons_self hfirst
            · exact ih (List.mem_cons_of_mem _ hothers) hc

theorem space_notMem_of_mem_pieces {text piece : Text} (h : piece ∈ pieces text) : ' ' ∉ piece := by
  intro hc
  have hcut := isCut_of_mem_splitOnP h hc
  simp at hcut

/-- A row of texts after a first one adds nothing, or a space and the joined row. -/
theorem spaced_cons (first : Text) {rest : List Text} (h : rest ≠ []) :
    spaced (first :: rest) = first ++ ' ' :: spaced rest := by
  rw [spaced, List.intercalate_cons_of_ne_nil h, List.append_assoc]
  rfl

theorem pieces_ne_nil (text : Text) : pieces text ≠ [] := List.splitOn_ne_nil ' ' text

theorem pieces_eq_singleton {text : Text} (h : ' ' ∉ text) : pieces text = [text] :=
  List.splitOn_eq_singleton h

/-- A space divides the pieces. -/
theorem pieces_append_space (left right : Text) :
    pieces (left ++ ' ' :: right) = pieces left ++ pieces right :=
  List.splitOn_append_cons_self left right

/-- The pieces of joined texts are the pieces of the texts, in order. -/
theorem pieces_spaced {texts : List Text} (h : texts ≠ []) :
    pieces (spaced texts) = texts.flatMap pieces := by
  induction texts with
  | nil => exact absurd rfl h
  | cons first rest ih =>
      by_cases hrest : rest = []
      · subst hrest
        simp [spaced_singleton]
      · rw [spaced_cons first hrest, List.flatMap_cons, ← ih hrest]
        exact pieces_append_space first (spaced rest)

/-- A blank divides the words. -/
theorem words_append_cons {c : Char} (h : isBlank c = true) (left right : Text) :
    words (left ++ c :: right) = words left ++ words right := by
  rw [words, List.splitOnP_append_cons left right h, List.filter_append]
  rfl

/-- The text is not empty and holds no blank. -/
def IsWord (text : Text) : Prop := text ≠ [] ∧ ∀ c ∈ text, isBlank c = false

theorem isWord_of_any_eq_false {text : Text} (hne : text ≠ []) (h : text.any isBlank = false) :
    text.IsWord := by
  refine ⟨hne, ?_⟩
  intro c hc
  rw [List.any_eq_false] at h
  simpa using h c hc

theorem IsWord.words_eq {text : Text} (h : text.IsWord) : words text = [text] := by
  rw [words, List.splitOnP_eq_singleton h.2]
  simp [h.1]

theorem IsWord.space_notMem {text : Text} (h : text.IsWord) : ' ' ∉ text := by
  intro hc
  have hblank := h.2 ' ' hc
  exact absurd hblank (by decide)

/-- Joining texts that are words of their own and reading the words again changes nothing. -/
theorem words_spaced {texts : List Text} (h : ∀ text ∈ texts, words text = [text]) :
    words (spaced texts) = texts := by
  induction texts with
  | nil => rfl
  | cons first rest ih =>
      have hfirst : words first = [first] := h first List.mem_cons_self
      by_cases hrest : rest = []
      · subst hrest
        rw [spaced_singleton, hfirst]
      · rw [spaced_cons first hrest, words_append_cons (by decide), hfirst,
          ih fun text htext => h text (List.mem_cons_of_mem _ htext)]
        rfl

/-! ## The first space -/

theorem beforeSpace_append {text : Text} (h : ' ' ∉ text) (rest : Text) :
    beforeSpace (text ++ ' ' :: rest) = text := by
  have hall : ∀ c ∈ text, (c != ' ') = true := by
    intro c hc
    simpa using fun heq : c = ' ' => h (heq ▸ hc)
  rw [beforeSpace, List.takeWhile_append_of_pos hall]
  simp

theorem afterSpace_append {text : Text} (h : ' ' ∉ text) (rest : Text) :
    afterSpace (text ++ ' ' :: rest) = rest := by
  have hall : ∀ c ∈ text, (c != ' ') = true := by
    intro c hc
    simpa using fun heq : c = ' ' => h (heq ▸ hc)
  rw [afterSpace, List.dropWhile_append_of_pos hall]
  simp

theorem space_notMem_beforeSpace (text : Text) : ' ' ∉ beforeSpace text := by
  intro h
  have hspace := List.mem_takeWhile_imp h
  simp at hspace

theorem beforeSpace_eq_self {text : Text} (h : ' ' ∉ text) : beforeSpace text = text := by
  rw [beforeSpace, List.takeWhile_eq_self_iff]
  intro c hc
  simpa using fun heq : c = ' ' => h (heq ▸ hc)

theorem afterSpace_eq_nil {text : Text} (h : ' ' ∉ text) : afterSpace text = [] := by
  have hnil : text.dropWhile (· != ' ') = [] := by
    rw [List.dropWhile_eq_nil_iff]
    intro c hc
    simpa using fun heq : c = ' ' => h (heq ▸ hc)
  rw [afterSpace, hnil]
  rfl

/-- The first space of a text stands between its two parts. -/
theorem beforeSpace_append_afterSpace {text : Text} (h : ' ' ∈ text) :
    beforeSpace text ++ ' ' :: afterSpace text = text := by
  obtain ⟨left, right, rfl, hleft⟩ := List.eq_append_cons_of_mem h
  rw [beforeSpace_append hleft, afterSpace_append hleft]

/-- The first piece is the part before the first space; the others are the pieces of the part behind
it, if there is a space. -/
theorem pieces_eq_cons (text : Text) :
    pieces text = beforeSpace text :: if ' ' ∈ text then pieces (afterSpace text) else [] := by
  split
  case isTrue h =>
      have hcut : pieces (beforeSpace text ++ ' ' :: afterSpace text) =
          pieces (beforeSpace text) ++ pieces (afterSpace text) := pieces_append_space _ _
      rw [beforeSpace_append_afterSpace h,
        pieces_eq_singleton (space_notMem_beforeSpace text)] at hcut
      exact hcut
  case isFalse h => rw [pieces_eq_singleton h, beforeSpace_eq_self h]

/-! ## Trimming -/

theorem trim_nil : trim [] = [] := rfl

theorem trimEnd_eq_rdropWhile (text : Text) : trimEnd text = text.rdropWhile isBlank := rfl

/-- Trimming the end leaves the start as it is. -/
theorem trimStart_trimEnd {text : Text} (h : trimStart text = text) :
    trimStart (trimEnd text) = trimEnd text := by
  rw [trimEnd_eq_rdropWhile, trimStart, List.dropWhile_eq_self_iff]
  rw [trimStart, List.dropWhile_eq_self_iff] at h
  intro hlen
  -- the trimmed text begins as the text does, because it is a prefix of it
  have hbegins : text.rdropWhile isBlank <+: text := List.rdropWhile_prefix isBlank text
  have hlen' : 0 < text.length := lt_of_lt_of_le hlen hbegins.length_le
  rw [hbegins.getElem hlen]
  exact h hlen'

/-- Trimming twice is trimming once. -/
theorem trim_trim (text : Text) : trim (trim text) = trim text := by
  have hstart : trimStart (trimStart text) = trimStart text :=
    List.dropWhile_idempotent isBlank text
  have hcomm : trimStart (trim text) = trim text := trimStart_trimEnd hstart
  rw [trim, hcomm]
  exact List.rdropWhile_idempotent isBlank (trimStart text)

theorem trim_infix (text : Text) : trim text <:+: text := by
  have hend : trim text <+: trimStart text := List.rdropWhile_prefix isBlank _
  have hstart : trimStart text <:+ text := List.dropWhile_suffix isBlank
  exact hend.isInfix.trans hstart.isInfix

/-- A trimmed text loses nothing on either side. -/
theorem trimStart_and_trimEnd_of_trim {text : Text} (h : trim text = text) :
    trimStart text = text ∧ trimEnd text = text := by
  have hle : (trimStart text).length ≤ text.length := (List.dropWhile_suffix isBlank).length_le
  have hle' : (trim text).length ≤ (trimStart text).length :=
    (List.rdropWhile_prefix isBlank (trimStart text)).length_le
  rw [h] at hle'
  -- nothing is lost on the whole, so neither step loses anything
  have hstart : trimStart text = text :=
    (List.dropWhile_suffix isBlank).eq_of_length (Nat.le_antisymm hle hle')
  rw [trim, hstart] at h
  exact ⟨hstart, h⟩

/-- A text is trimmed exactly when it neither begins nor ends with a blank. -/
theorem trim_eq_self_iff {text : Text} :
    trim text = text ↔
      ∀ h : text ≠ [], isBlank (text.head h) = false ∧ isBlank (text.getLast h) = false := by
  constructor
  · intro h hne
    obtain ⟨hstart, hend⟩ := trimStart_and_trimEnd_of_trim h
    rw [trimStart, List.dropWhile_eq_self_iff] at hstart
    rw [trimEnd_eq_rdropWhile, List.rdropWhile_eq_self_iff] at hend
    refine ⟨?_, by simpa using hend hne⟩
    rw [List.head_eq_getElem]
    simpa using hstart (List.length_pos_iff.2 hne)
  · intro h
    have hstart : trimStart text = text := by
      rw [trimStart, List.dropWhile_eq_self_iff]
      intro hlen
      have hne : text ≠ [] := List.length_pos_iff.1 hlen
      have hhead := (h hne).1
      rw [List.head_eq_getElem] at hhead
      simp [hhead]
    rw [trim, hstart, trimEnd_eq_rdropWhile, List.rdropWhile_eq_self_iff]
    intro hne
    simp [(h hne).2]

theorem IsWord.trim_eq {text : Text} (h : text.IsWord) : trim text = text :=
  trim_eq_self_iff.2 fun hne => ⟨h.2 _ (List.head_mem hne), h.2 _ (List.getLast_mem hne)⟩

theorem IsWord.trimmed {text : Text} (h : text.IsWord) : text ≠ [] ∧ trim text = text :=
  ⟨h.1, h.trim_eq⟩

/-- Trimming leaves something of a text that is not all blank. -/
theorem trim_ne_nil {text : Text} {c : Char} (hc : c ∈ text) (hblank : isBlank c = false) :
    trim text ≠ [] := by
  intro hnil
  have hall : ∀ d ∈ trimStart text, isBlank d = true := List.rdropWhile_eq_nil_iff.1 hnil
  -- the start of the text is trimmed away only if the whole text is
  have hstart : trimStart text = [] := by
    by_contra hne
    have hhead : isBlank ((trimStart text).head hne) = false :=
      List.head_dropWhile_not isBlank hne
    rw [hall _ (List.head_mem hne)] at hhead
    cases hhead
  have hblank' : isBlank c = true := List.dropWhile_eq_nil_iff.1 hstart c hc
  rw [hblank] at hblank'
  cases hblank'

theorem isBlank_of_trim_eq_nil {text : Text} (h : trim text = []) :
    ∀ c ∈ text, isBlank c = true := by
  intro c hc
  by_contra hblank
  exact trim_ne_nil hc (by simpa using hblank) h

/-- A blank at the end is trimmed away. -/
theorem trim_concat {c : Char} (h : isBlank c = true) (text : Text) :
    trim (text ++ [c]) = trim text := by
  rw [trim, trim, trimStart, trimStart, List.dropWhile_append]
  split
  case isTrue hempty =>
      -- the text is all blank, and so is what it is followed by
      rw [List.isEmpty_iff.1 hempty, List.dropWhile_cons_of_pos h, List.dropWhile_nil]
  case isFalse => exact List.rdropWhile_concat_pos isBlank _ _ h

/-- A text that ends in a blank is not trimmed. -/
theorem trim_append_ne {right : Text} (hne : right ≠ []) (h : ∀ c ∈ right, isBlank c = true)
    (left : Text) : trim (left ++ right) ≠ left ++ right := by
  intro htrim
  have hlast := (trim_eq_self_iff.1 htrim (List.append_ne_nil_of_right_ne_nil left hne)).2
  rw [List.getLast_append_of_ne_nil _ hne, h _ (List.getLast_mem hne)] at hlast
  cases hlast

/-- Trimming takes away no word. -/
theorem words_trim (text : Text) : words (trim text) = words text := by
  have hstart : ∀ text, words (trimStart text) = words text := by
    intro text
    induction text with
    | nil => rfl
    | cons c rest ih =>
        rw [trimStart, List.dropWhile_cons]
        split
        · rename_i hc
          have hdrop : words (c :: rest) = words rest := words_append_cons hc [] rest
          rw [hdrop]
          exact ih
        · rfl
  have hend : ∀ text, words (trimEnd text) = words text := by
    intro text
    induction text using List.reverseRecOn with
    | nil => rfl
    | append_singleton rest c ih =>
        rw [trimEnd_eq_rdropWhile, List.rdropWhile_concat]
        split
        · rename_i hc
          have hdrop : words (rest ++ [c]) = words rest ++ [] := words_append_cons hc rest []
          rw [hdrop, List.append_nil]
          exact ih
        · rfl
  rw [trim, hend, hstart]

/-- A text has no word exactly when all of it is blank. -/
theorem words_eq_nil_iff {text : Text} : words text = [] ↔ ∀ c ∈ text, isBlank c = true := by
  induction text with
  | nil => simp [words]
  | cons c rest ih =>
      rw [List.forall_mem_cons, ← ih]
      by_cases hc : isBlank c = true
      · have hdrop : words (c :: rest) = words rest := words_append_cons hc [] rest
        rw [hdrop]
        exact (and_iff_right hc).symm
      · -- the first word begins with the character
        cases hcut : rest.splitOnP isBlank with
        | nil => exact absurd hcut (List.splitOnP_ne_nil _ _)
        | cons piece others => simp [words, List.splitOnP_cons_eq_if_modifyHead, hc, hcut]

/-- Trimmed texts with a space between them make a trimmed text. -/
theorem trim_append_space {left right : Text} (hleft : left ≠ []) (hright : right ≠ [])
    (htrimLeft : trim left = left) (htrimRight : trim right = right) :
    trim (left ++ ' ' :: right) = left ++ ' ' :: right := by
  rw [trim_eq_self_iff] at htrimLeft htrimRight ⊢
  intro hne
  refine ⟨?_, ?_⟩
  · rw [List.head_append_of_ne_nil hleft]
    exact (htrimLeft hleft).1
  · rw [List.getLast_append_of_ne_nil hne (List.cons_ne_nil _ _), List.getLast_cons hright]
    exact (htrimRight hright).2

/-- A row of trimmed texts, none empty, joins to a trimmed text. -/
theorem trim_spaced {texts : List Text} (h : ∀ text ∈ texts, text ≠ [] ∧ trim text = text) :
    trim (spaced texts) = spaced texts ∧ (texts ≠ [] → spaced texts ≠ []) := by
  induction texts with
  | nil => exact ⟨rfl, fun hne => absurd rfl hne⟩
  | cons first rest ih =>
      obtain ⟨hfirst, htrim⟩ := h first List.mem_cons_self
      obtain ⟨ihtrim, ihne⟩ := ih fun text htext => h text (List.mem_cons_of_mem _ htext)
      by_cases hrest : rest = []
      · subst hrest
        rw [spaced_singleton]
        exact ⟨htrim, fun _ => hfirst⟩
      · rw [spaced_cons first hrest]
        exact ⟨trim_append_space hfirst (ihne hrest) htrim ihtrim, by simp⟩

/-- The first of joined texts, and the trimmed join of the others. -/
theorem splitFirst_spaced {first : Text} (h : ' ' ∉ first) (rest : List Text) :
    splitFirst (spaced (first :: rest)) = (first, trim (spaced rest)) := by
  by_cases hrest : rest = []
  · subst hrest
    rw [spaced_singleton, splitFirst, beforeSpace_eq_self h, afterSpace_eq_nil h, spaced_nil]
  · rw [spaced_cons first hrest, splitFirst, beforeSpace_append h, afterSpace_append h]

/-! ## Texts that begin with words -/

/-- Trimming a text that begins with a trimmed one only takes blanks off its end. -/
theorem trim_append {left : Text} (hne : left ≠ []) (h : trim left = left) (right : Text) :
    trim (left ++ right) = left ++ trimEnd right := by
  obtain ⟨hstart, hend⟩ := trimStart_and_trimEnd_of_trim h
  have hstart' : trimStart (left ++ right) = left ++ right := by
    rw [trimStart] at hstart ⊢
    rw [List.dropWhile_append, hstart, if_neg (by simpa using hne)]
  rw [trim, hstart', trimEnd, List.reverse_append, List.dropWhile_append]
  rw [trimEnd] at hend
  -- read from the end: the blanks are those of `right`, or all of it and then those of `left`
  split
  case isTrue hempty =>
      rw [hend, trimEnd, List.isEmpty_iff.1 hempty, List.reverse_nil, List.append_nil]
  case isFalse =>
      rw [List.reverse_append, List.reverse_reverse]
      rfl

/-- Behind a word and a space, trimming the whole text takes away no word. -/
theorem splitFirst_trim_word {word : Text} (h : word.IsWord) (text : Text) :
    ∃ rest, splitFirst (trim (word ++ ' ' :: text)) = (word, rest) ∧ words rest = words text := by
  have hwords := words_trim (word ++ ' ' :: text)
  rw [words_append_cons (by decide), h.words_eq, trim_append h.1 h.trim_eq] at hwords
  rw [trim_append h.1 h.trim_eq]
  -- what is left behind the word is nothing, or still begins with the space
  have hbegins : trimEnd (' ' :: text) <+: ' ' :: text := List.rdropWhile_prefix isBlank _
  rcases List.prefix_cons_iff.1 hbegins with hnil | ⟨others, hcons, -⟩
  · rw [hnil, List.append_nil] at hwords ⊢
    rw [h.words_eq] at hwords
    refine ⟨[], ?_, (List.cons.inj hwords).2⟩
    rw [splitFirst, beforeSpace_eq_self h.space_notMem, afterSpace_eq_nil h.space_notMem, trim_nil]
  · rw [hcons] at hwords ⊢
    rw [words_append_cons (by decide), h.words_eq] at hwords
    refine ⟨trim others, ?_, ?_⟩
    · rw [splitFirst, beforeSpace_append h.space_notMem, afterSpace_append h.space_notMem]
    · rw [words_trim]
      exact (List.cons.inj hwords).2

/-- Joining two rows puts a space between their joined texts. -/
theorem spaced_append {texts others : List Text} (h : texts ≠ []) (h' : others ≠ []) :
    spaced (texts ++ others) = spaced texts ++ ' ' :: spaced others := by
  induction texts with
  | nil => exact absurd rfl h
  | cons first rest ih =>
      by_cases hrest : rest = []
      · subst hrest
        rw [spaced_singleton]
        exact spaced_cons first h'
      · have hmore : rest ++ others ≠ [] := fun hc => hrest (List.append_eq_nil_iff.1 hc).1
        rw [List.cons_append, spaced_cons first hmore, ih hrest, spaced_cons first hrest]
        simp

theorem pieces_spaced_words {words : List Text} (hne : words ≠ [])
    (h : ∀ word ∈ words, ' ' ∉ word) : pieces (spaced words) = words :=
  List.splitOn_intercalate ' ' h hne

/-- Words in front of a text stay its first pieces when the text is trimmed. -/
theorem pieces_trim_words {words : List Text} (hne : words ≠ []) (h : ∀ word ∈ words, word.IsWord)
    (rest : List Text) :
    trim (spaced (words ++ rest)) ≠ [] ∧
      ∃ others, pieces (trim (spaced (words ++ rest))) = words ++ others := by
  have hspace : ∀ word ∈ words, ' ' ∉ word := fun word hword => (h word hword).space_notMem
  obtain ⟨htrim, hspaced⟩ := trim_spaced fun word hword => (h word hword).trimmed
  by_cases hrest : rest = []
  · subst hrest
    rw [List.append_nil, htrim]
    refine ⟨hspaced hne, [], ?_⟩
    rw [List.append_nil]
    exact pieces_spaced_words hne hspace
  · rw [spaced_append hne hrest, trim_append (hspaced hne) htrim]
    refine ⟨fun hc => hspaced hne (List.append_eq_nil_iff.1 hc).1, ?_⟩
    -- what is left behind the words is nothing, or still begins with the space
    have hbegins : trimEnd (' ' :: spaced rest) <+: ' ' :: spaced rest :=
      List.rdropWhile_prefix isBlank _
    rcases List.prefix_cons_iff.1 hbegins with hnil | ⟨others, hcons, -⟩
    · rw [hnil, List.append_nil]
      exact ⟨[], by rw [List.append_nil, pieces_spaced_words hne hspace]⟩
    · refine ⟨pieces others, ?_⟩
      rw [hcons, pieces_append_space, pieces_spaced_words hne hspace]

/-! ## The ends of joined texts -/

theorem spaced_concat {texts : List Text} (h : texts ≠ []) (last : Text) :
    spaced (texts ++ [last]) = spaced texts ++ ' ' :: last := by
  rw [spaced_append h (List.cons_ne_nil _ _), spaced_singleton]

theorem head?_spaced_cons {first : Text} (h : first ≠ []) (rest : List Text) :
    (spaced (first :: rest)).head? = first.head? := by
  by_cases hrest : rest = []
  · rw [hrest, spaced_singleton]
  · rw [spaced_cons first hrest, List.head?_append_of_ne_nil _ h]

theorem getLast?_spaced_concat {last : Text} (h : last ≠ []) (rest : List Text) :
    (spaced (rest ++ [last])).getLast? = last.getLast? := by
  by_cases hrest : rest = []
  · rw [hrest, List.nil_append, spaced_singleton]
  · rw [spaced_concat hrest, List.getLast?_append_of_ne_nil _ (List.cons_ne_nil _ _),
      List.getLast?_cons_of_ne_nil h]

/-- A text is trimmed exactly when the characters at its ends, if it has any, are not blank. -/
theorem trim_eq_self_iff_ends {text : Text} :
    trim text = text ↔
      (∀ c ∈ text.head?, isBlank c = false) ∧ ∀ c ∈ text.getLast?, isBlank c = false := by
  rw [trim_eq_self_iff]
  by_cases hne : text = []
  · simp [hne]
  · simp [hne, List.head?_eq_some_head hne, List.getLast?_eq_some_getLast hne]

/-- Joined texts that are trimmed have something in front and something at the end. -/
theorem ends_ne_nil {texts : List Text} (hne : spaced texts ≠ [])
    (htrim : trim (spaced texts) = spaced texts) :
    (∀ first rest, texts = first :: rest → first ≠ []) ∧
      ∀ rest last, texts = rest ++ [last] → last ≠ [] := by
  obtain ⟨hhead, hlast⟩ := trim_eq_self_iff_ends.1 htrim
  have hspace : isBlank ' ' ≠ false := by decide
  constructor
  · rintro first rest rfl rfl
    by_cases hrest : rest = []
    · exact hne (by rw [hrest, spaced_singleton])
    · rw [spaced_cons [] hrest] at hhead
      exact hspace (hhead ' ' rfl)
  · rintro rest last rfl rfl
    by_cases hrest : rest = []
    · exact hne (by rw [hrest, List.nil_append, spaced_singleton])
    · rw [spaced_concat hrest] at hlast
      exact hspace (hlast ' ' (by simp))

/-- Texts of which some are replaced by words still join to a trimmed text. -/
theorem trim_spaced_map {change : Text → Text} {texts : List Text}
    (hchange : ∀ text, change text = text ∨ (change text).IsWord) (hne : spaced texts ≠ [])
    (htrim : trim (spaced texts) = spaced texts) :
    trim (spaced (texts.map change)) = spaced (texts.map change) ∧
      spaced (texts.map change) ≠ [] := by
  obtain ⟨hfront, hback⟩ := ends_ne_nil hne htrim
  obtain ⟨hhead, hlast⟩ := trim_eq_self_iff_ends.1 htrim
  have hchanged : ∀ text : Text, text ≠ [] → change text ≠ [] := by
    intro text htext
    rcases hchange text with hsame | hword
    · rwa [hsame]
    · exact hword.1
  have htexts : texts ≠ [] := fun hnil => hne (by rw [hnil, spaced_nil])
  rw [trim_eq_self_iff_ends]
  refine ⟨⟨?_, ?_⟩, ?_⟩
  · obtain ⟨first, rest, rfl⟩ := List.exists_cons_of_ne_nil htexts
    have hfirst := hfront first rest rfl
    rw [head?_spaced_cons hfirst] at hhead
    rw [List.map_cons, head?_spaced_cons (hchanged first hfirst)]
    rcases hchange first with hsame | hword
    · rwa [hsame]
    · exact fun c hc => hword.2 c (List.mem_of_head? hc)
  · obtain ⟨rest, last, rfl⟩ := (List.eq_nil_or_concat' texts).resolve_left htexts
    have hnonempty := hback rest last rfl
    rw [getLast?_spaced_concat hnonempty] at hlast
    rw [List.map_append, List.map_singleton, getLast?_spaced_concat (hchanged last hnonempty)]
    rcases hchange last with hsame | hword
    · rwa [hsame]
    · exact fun c hc => hword.2 c (List.mem_of_getLast? hc)
  · obtain ⟨first, rest, rfl⟩ := List.exists_cons_of_ne_nil htexts
    have hfirst := hchanged first (hfront first rest rfl)
    intro hnil
    have hempty := head?_spaced_cons hfirst (rest.map change)
    rw [← List.map_cons, hnil, eq_comm, List.head?_nil, List.head?_eq_none_iff] at hempty
    exact hfirst hempty

end DynamicPatching.Text

import ComponentBindings.Proofs.Paths

/-!
# Names over letters, digits and hyphens

The names of an interface definition use few characters: letters and digits
of ASCII, and hyphens between the words. For these the mappings of letter case
are those of ASCII, and an identifier is spelled with letters, digits,
underscores and the backticks around a reserved word
(`IsNameText.of_identifierOf`). So nothing in it is taken for a slash of a
path or a dot of a package, and every such name is plain
(`IsNameText.isPlain`).

What an identifier tells of its name depends on the convention. Modules keep
the words apart by underscores. Types mark the start of a word by its capital
alone, and a digit has none: `a-1` and `a1` are both `A1`. If every word
starts with a letter, the words can be read back
(`eq_of_flatMap_capitalize_eq`), and two such names that agree as types agree
as modules (`identifierOf_module_eq_of_type`).
-/

namespace ComponentBindings

/-- A letter or a digit of ASCII, or a hyphen. -/
def isNamePart (c : Char) : Bool := c.isAlphanum || c = '-'

/-- **A name over letters, digits and hyphens.** -/
def IsNameText (name : String) : Prop := ∀ c ∈ name.toList, isNamePart c = true

instance : DecidablePred IsNameText := fun name => List.decidableBAll _ name.toList

/-- A character of a word in lower case: a small letter or a digit. -/
def isWordPart (c : Char) : Bool := c.isLower || c.isDigit

/-- A character of an identifier: a letter, a digit or an underscore. -/
def isIdentifierPart (c : Char) : Bool := c.isAlphanum || c = '_'

/-! ## Characters -/

/-- What holds of the characters of ASCII one by one holds of a letter or a
digit. -/
theorem of_isAlphanum {P : Char → Prop} (h : ∀ n < 128, P (Char.ofNat n)) {c : Char}
    (hc : c.isAlphanum = true) : P c := by
  have hlt : c.toNat < 128 := by
    have hval : c.toNat = c.val.toNat := rfl
    -- A letter or a digit is in one of three ranges, by definition.
    have hranges : (decide (c.val ≥ 'A'.val ∧ c.val ≤ 'Z'.val) ||
        (c.val ≥ 'a'.val && c.val ≤ 'z'.val) || (c.val ≥ '0'.val && c.val ≤ '9'.val)) = true := hc
    simp only [Bool.or_eq_true, Bool.and_eq_true, decide_eq_true_eq, UInt32.le_iff_toNat_le,
      ge_iff_le] at hranges
    have hZ : 'Z'.val.toNat = 90 := rfl
    have hz : 'z'.val.toNat = 122 := rfl
    have h9 : '9'.val.toNat = 57 := rfl
    omega
  have hofNat := h c.toNat hlt
  rwa [Char.ofNat_toNat] at hofNat

/-- A character of a word is a letter or a digit. -/
theorem isAlphanum_of_isWordPart {c : Char} (h : isWordPart c = true) : c.isAlphanum = true := by
  simp only [isWordPart, Bool.or_eq_true] at h
  have hletter : c.isLower = true → c.isAlpha = true := fun h => Bool.or_eq_true_iff.mpr (.inr h)
  exact Bool.or_eq_true_iff.mpr (h.imp hletter id)

/-- A letter or a digit in lower case is a character of a word. -/
theorem lowerChar_of_isAlphanum {c : Char} (h : c.isAlphanum = true) :
    c ≠ 'Σ' ∧ Text.lowerChar c = [c.toLower] ∧ isWordPart c.toLower = true :=
  of_isAlphanum (P := fun c => c.isAlphanum = true →
    c ≠ 'Σ' ∧ Text.lowerChar c = [c.toLower] ∧ isWordPart c.toLower = true) (by decide +kernel) h h

/-- A character of a word in upper case is a letter or a digit, and the letters
among them can be told from its capitals. -/
theorem upperChar_of_isWordPart {c : Char} (h : isWordPart c = true) :
    Text.upperChar c = [c.toUpper] ∧ c.toUpper.isAlphanum = true ∧ c.toUpper.toLower = c ∧
      (c.isLower = true → c.toUpper.isUpper = true) ∧ c.isUpper = false :=
  of_isAlphanum (P := fun c => isWordPart c = true → Text.upperChar c = [c.toUpper] ∧
    c.toUpper.isAlphanum = true ∧ c.toUpper.toLower = c ∧
    (c.isLower = true → c.toUpper.isUpper = true) ∧ c.isUpper = false) (by decide +kernel)
    (isAlphanum_of_isWordPart h) h

/-! ## Words -/

/-- A piece of a text has characters of the text, and no mark. -/
theorem of_mem_pieces {isMark : Char → Bool} {cs piece : List Char}
    (hpiece : piece ∈ Text.pieces isMark cs) {c : Char} (hc : c ∈ piece) :
    c ∈ cs ∧ isMark c = false := by
  induction cs generalizing piece with
  | nil =>
    simp only [Text.pieces, List.mem_singleton] at hpiece
    rw [hpiece] at hc
    cases hc
  | cons d cs ih =>
    rw [Text.pieces] at hpiece
    split at hpiece
    · rcases List.mem_cons.mp hpiece with rfl | hpiece
      · cases hc
      · exact ⟨List.mem_cons_of_mem _ (ih hpiece hc).1, (ih hpiece hc).2⟩
    · next hmark =>
      have hmark : isMark d = false := by simpa using hmark
      split at hpiece
      · next first more hmore =>
        rcases List.mem_cons.mp hpiece with rfl | hpiece
        · rcases List.mem_cons.mp hc with rfl | hc
          · exact ⟨List.mem_cons_self, hmark⟩
          · have hfirst := ih (hmore ▸ List.mem_cons_self) hc
            exact ⟨List.mem_cons_of_mem _ hfirst.1, hfirst.2⟩
        · have hlater := ih (hmore ▸ List.mem_cons_of_mem _ hpiece) hc
          exact ⟨List.mem_cons_of_mem _ hlater.1, hlater.2⟩
      · rw [List.mem_singleton.mp hpiece, List.mem_singleton] at hc
        exact ⟨hc ▸ List.mem_cons_self, hc ▸ hmark⟩

/-- Letters and digits in lower case make up a word. -/
theorem isWordPart_of_mem_lowerAfter {before cs : List Char}
    (h : ∀ c ∈ cs, c.isAlphanum = true) {d : Char} (hd : d ∈ Text.lowerAfter before cs) :
    isWordPart d = true := by
  induction cs generalizing before with
  | nil => cases hd
  | cons c cs ih =>
    obtain ⟨hsigma, hlower, hpart⟩ := lowerChar_of_isAlphanum (h c List.mem_cons_self)
    rw [Text.lowerAfter, if_neg hsigma, hlower, List.mem_append, List.mem_singleton] at hd
    rcases hd with rfl | hd
    · exact hpart
    · exact ih (fun c hc => h c (List.mem_cons_of_mem _ hc)) hd

/-- The pieces of a name over letters, digits and hyphens hold letters and
digits. -/
theorem IsNameText.isAlphanum_of_mem_piece {name : String} (h : IsNameText name)
    {piece : List Char}
    (hpiece : piece ∈ Text.pieces isWordSeparator (name.toList.dropWhile (· = '%'))) {c : Char}
    (hc : c ∈ piece) : c.isAlphanum = true := by
  obtain ⟨hmem, hseparator⟩ := of_mem_pieces hpiece hc
  have hpart := h c (List.dropWhile_suffix _ |>.subset hmem)
  simp only [isNamePart, Bool.or_eq_true, decide_eq_true_eq] at hpart
  refine hpart.resolve_right fun heq => ?_
  rw [heq] at hseparator
  cases hseparator

/-- The words of a name over letters, digits and hyphens hold small letters and
digits. -/
theorem IsNameText.isWordPart_of_mem {name : String} (h : IsNameText name) {word : List Char}
    (hword : word ∈ wordsOf name.toList) {c : Char} (hc : c ∈ word) : isWordPart c = true := by
  obtain ⟨piece, hpiece, rfl⟩ := List.mem_map.mp hword
  exact isWordPart_of_mem_lowerAfter
    (fun d hd => h.isAlphanum_of_mem_piece (List.mem_of_mem_filter hpiece) hd) hc

/-- The words of a name over letters, digits and hyphens are not empty. -/
theorem IsNameText.ne_nil_of_mem {name : String} (h : IsNameText name) {word : List Char}
    (hword : word ∈ wordsOf name.toList) : word ≠ [] := by
  obtain ⟨piece, hpiece, rfl⟩ := List.mem_map.mp hword
  obtain ⟨c, rest, rfl⟩ := List.exists_cons_of_ne_nil (l := piece)
    (by simpa using (List.mem_filter.mp hpiece).2)
  obtain ⟨hsigma, hlower, -⟩ := lowerChar_of_isAlphanum
    (h.isAlphanum_of_mem_piece (List.mem_of_mem_filter hpiece) List.mem_cons_self)
  simp [Text.lower, Text.lowerAfter, hsigma, hlower]

/-- A name that has an identifier has words, and the identifier is joined from
them. -/
theorem words_of_convert {c : Convention} {name text : String} (h : c.convert name = .ok text) :
    wordsOf name.toList ≠ [] ∧ text = String.ofList (c.join (wordsOf name.toList)) := by
  unfold Convention.convert at h
  split at h
  · cases h
  · next hwords => exact ⟨hwords, (Except.ok.inj h).symm⟩

/-- A name that has no identifier has no words. -/
theorem identifierOf_eq_error {c : Convention} {name : String} {reserved : List String}
    {fault : Fault} (h : identifierOf c name reserved = .error fault) :
    fault = .noIdentifier name := by
  have hconvert := except_map_eq_error.mp h
  unfold Convention.convert at hconvert
  split at hconvert
  · exact (Except.error.inj hconvert).symm
  · cases hconvert

/-- A word with a capital is still of letters and digits. -/
theorem isAlphanum_of_mem_capitalize {word : List Char} (h : ∀ c ∈ word, isWordPart c = true)
    {d : Char} (hd : d ∈ Text.capitalize word) : d.isAlphanum = true := by
  cases word with
  | nil => cases hd
  | cons c rest =>
    obtain ⟨hupper, hpart, -⟩ := upperChar_of_isWordPart (h c List.mem_cons_self)
    rw [Text.capitalize, hupper, List.mem_append, List.mem_singleton] at hd
    rcases hd with rfl | hd
    · exact hpart
    · exact isAlphanum_of_isWordPart (h d (List.mem_cons_of_mem _ hd))

/-- What is joined with marks holds marks and what was joined. -/
theorem of_mem_intercalate {α : Type} {mark : List α} {parts : List (List α)} {x : α}
    (h : x ∈ mark.intercalate parts) : x ∈ mark ∨ ∃ part ∈ parts, x ∈ part := by
  induction parts with
  | nil => simp at h
  | cons part parts ih =>
    cases parts with
    | nil => exact .inr ⟨part, List.mem_cons_self, by simpa using h⟩
    | cons next rest =>
      rw [List.intercalate_cons_cons, List.mem_append, List.mem_append] at h
      rcases h with (h | h) | h
      · exact .inr ⟨part, List.mem_cons_self, h⟩
      · exact .inl h
      · obtain hmark | ⟨other, hother, hx⟩ := ih h
        · exact .inl hmark
        · exact .inr ⟨other, List.mem_cons_of_mem _ hother, hx⟩

/-- Words are joined to letters, digits and underscores. -/
theorem isIdentifierPart_of_mem_join {c : Convention} {words : List (List Char)}
    (h : ∀ word ∈ words, ∀ d ∈ word, isWordPart d = true) {d : Char} (hd : d ∈ c.join words) :
    isIdentifierPart d = true := by
  have hword : ∀ word ∈ words, d ∈ word → isIdentifierPart d = true := fun word hmem hdword => by
    simp [isIdentifierPart, isAlphanum_of_isWordPart (h word hmem d hdword)]
  have hcapital : ∀ word ∈ words, d ∈ Text.capitalize word → isIdentifierPart d = true :=
    fun word hmem hdword => by
      simp [isIdentifierPart, isAlphanum_of_mem_capitalize (h word hmem) hdword]
  cases words with
  | nil => cases c <;> cases hd
  | cons first rest =>
    cases c with
    | type =>
      obtain ⟨word, hmem, hdword⟩ := List.mem_flatMap.mp hd
      exact hcapital word hmem hdword
    | member =>
      rcases List.mem_append.mp hd with hd | hd
      · exact hword first List.mem_cons_self hd
      · obtain ⟨word, hmem, hdword⟩ := List.mem_flatMap.mp hd
        exact hcapital word (List.mem_cons_of_mem _ hmem) hdword
    | module =>
      rcases of_mem_intercalate hd with hmark | ⟨word, hmem, hdword⟩
      · rw [List.mem_singleton.mp hmark]
        decide
      · exact hword word hmem hdword

/-- Words that are not empty are joined to a text that is not. -/
theorem join_ne_nil {c : Convention} {words : List (List Char)} (hne : words ≠ [])
    (hparts : ∀ word ∈ words, ∀ d ∈ word, isWordPart d = true)
    (hwords : ∀ word ∈ words, word ≠ []) : c.join words ≠ [] := by
  obtain ⟨first, rest, rfl⟩ := List.exists_cons_of_ne_nil hne
  obtain ⟨d, more, rfl⟩ := List.exists_cons_of_ne_nil (hwords first List.mem_cons_self)
  obtain ⟨hupper, -⟩ := upperChar_of_isWordPart
    (hparts _ List.mem_cons_self d List.mem_cons_self)
  cases c with
  | type => simp [Convention.join, Text.capitalize, hupper]
  | member => simp [Convention.join]
  | module => cases rest <;> simp [Convention.join]

/-! ## Identifiers -/

/-- A text of letters, digits and underscores has no slash and no backticks. -/
theorem isPlainText_of_isIdentifierPart {text : String}
    (h : ∀ d ∈ text.toList, isIdentifierPart d = true) : IsPlainText text := by
  refine ⟨fun hslash => absurd (h _ hslash) (by decide), ?_⟩
  unfold unescape
  split
  · next hquoted => exact absurd (h '\x60' (hquoted ▸ List.mem_cons_self)) (by decide)
  · rfl

namespace IsNameText

variable {c : Convention} {name text identifier : String}

/-- **A name is written with letters, digits and underscores.** -/
theorem of_convert (h : IsNameText name) (htext : c.convert name = .ok text) :
    ∀ d ∈ text.toList, isIdentifierPart d = true := by
  obtain ⟨-, rfl⟩ := words_of_convert htext
  rw [String.toList_ofList]
  exact fun d hd => isIdentifierPart_of_mem_join (fun word hmem _ => h.isWordPart_of_mem hmem) hd

/-- A name is not written as nothing. -/
theorem ne_empty_of_convert (h : IsNameText name) (htext : c.convert name = .ok text) :
    text ≠ "" := by
  obtain ⟨hne, rfl⟩ := words_of_convert htext
  have hjoin : c.join (wordsOf name.toList) ≠ [] := join_ne_nil hne
    (fun word hmem _ => h.isWordPart_of_mem hmem) (fun word hmem => h.ne_nil_of_mem hmem)
  intro hempty
  refine hjoin ?_
  rw [← String.toList_ofList (l := c.join _), hempty]
  rfl

/-- What a name is written as can be read back from a path. -/
theorem isPlainText (h : IsNameText name) (htext : c.convert name = .ok text) :
    IsPlainText text :=
  isPlainText_of_isIdentifierPart (h.of_convert htext)

/-- **Names that have one identifier** are joined from their words to one text. -/
theorem join_eq (h : IsNameText name) {name' identifier : String} {c' : Convention}
    (h' : IsNameText name') (hname : identifierOf c name = .ok identifier)
    (hname' : identifierOf c' name' = .ok identifier) :
    wordsOf name.toList ≠ [] ∧ wordsOf name'.toList ≠ [] ∧
      c.join (wordsOf name.toList) = c'.join (wordsOf name'.toList) := by
  obtain ⟨text, htext, hescape⟩ := except_map_eq_ok.mp hname
  obtain ⟨text', htext', hescape'⟩ := except_map_eq_ok.mp hname'
  have hsame : text = text' := by
    rw [← (h.isPlainText htext).unescape_escape, hescape, ← hescape',
      (h'.isPlainText htext').unescape_escape]
  obtain ⟨hne, hjoin⟩ := words_of_convert htext
  obtain ⟨hne', hjoin'⟩ := words_of_convert htext'
  exact ⟨hne, hne', String.ofList_injective (hjoin.symm.trans (hsame.trans hjoin'))⟩

/-- **A name over letters, digits and hyphens is plain.** -/
theorem isPlain (h : IsNameText name) : IsPlain name := fun _ htext => h.isPlainText htext

/-- **An identifier is spelled with letters, digits, underscores and
backticks.** -/
theorem of_identifierOf (h : IsNameText name) (hidentifier : identifierOf c name = .ok identifier) :
    ∀ d ∈ identifier.toList, isIdentifierPart d = true ∨ d = '\x60' := by
  obtain ⟨text, htext, rfl⟩ := except_map_eq_ok.mp hidentifier
  have hparts := h.of_convert htext
  intro d hd
  unfold escape at hd
  split at hd
  · have hquoted : d = '\x60' ∨ d ∈ text.toList ∨ d = '\x60' := by simpa using hd
    rcases hquoted with htick | hd | htick
    · exact .inr htick
    · exact .inl (hparts d hd)
    · exact .inr htick
  · exact .inl (hparts d hd)

end IsNameText

/-! ## Reading words back -/

/-- Words that each start with a letter. -/
def StartWithLetters (words : List (List Char)) : Prop :=
  ∀ word ∈ words, (word.head?.any Char.isLower) = true

/-- **A name whose words start with letters.** -/
def IsWitName (name : String) : Prop := IsNameText name ∧ StartWithLetters (wordsOf name.toList)

instance : DecidablePred IsWitName := fun name => inferInstanceAs (Decidable (IsNameText name ∧
  ∀ word ∈ wordsOf name.toList, (word.head?.any Char.isLower) = true))

/-- What follows the rest of a word, up to the next capital, is told apart from
it. -/
theorem eq_and_eq_of_append_eq {p : Char → Bool} {xs xs' ys ys' : List Char}
    (hxs : ∀ c ∈ xs, p c = false) (hxs' : ∀ c ∈ xs', p c = false)
    (hys : ∀ c ∈ ys.head?, p c = true) (hys' : ∀ c ∈ ys'.head?, p c = true)
    (h : xs ++ ys = xs' ++ ys') : xs = xs' ∧ ys = ys' := by
  induction xs generalizing xs' with
  | nil =>
    cases xs' with
    | nil => exact ⟨rfl, h⟩
    | cons d xs' =>
      have hd := hys d (by simp [show ys = d :: (xs' ++ ys') from h])
      rw [hxs' d List.mem_cons_self] at hd
      cases hd
  | cons c xs ih =>
    cases xs' with
    | nil =>
      have hc := hys' c (by simp [show ys' = c :: (xs ++ ys) from h.symm])
      rw [hxs c List.mem_cons_self] at hc
      cases hc
    | cons d xs' =>
      obtain ⟨rfl, hrest⟩ := List.cons.inj h
      obtain ⟨rfl, rfl⟩ := ih (fun d hd => hxs d (List.mem_cons_of_mem _ hd))
        (fun d hd => hxs' d (List.mem_cons_of_mem _ hd)) hrest
      exact ⟨rfl, rfl⟩

/-- A word that starts with a letter is that letter as a capital, and its
rest. -/
theorem capitalize_of_startsWithLetter {word : List Char}
    (hparts : ∀ d ∈ word, isWordPart d = true) (hstart : (word.head?.any Char.isLower) = true) :
    ∃ c rest, word = c :: rest ∧ Text.capitalize word = c.toUpper :: rest ∧
      c.toUpper.isUpper = true := by
  cases word with
  | nil => cases hstart
  | cons c rest =>
    obtain ⟨hupper, -, -, hcapital, -⟩ := upperChar_of_isWordPart (hparts c List.mem_cons_self)
    exact ⟨c, rest, rfl, by rw [Text.capitalize, hupper]; rfl, hcapital (by simpa using hstart)⟩

/-- Words that start with letters are joined to a text that starts with a
capital. -/
theorem isUpper_of_head?_flatMap {words : List (List Char)}
    (hparts : ∀ word ∈ words, ∀ d ∈ word, isWordPart d = true) (hstart : StartWithLetters words) :
    ∀ d ∈ (words.flatMap Text.capitalize).head?, d.isUpper = true := by
  cases words with
  | nil => simp
  | cons word words =>
    obtain ⟨c, rest, -, hcapital, hupper⟩ := capitalize_of_startsWithLetter
      (hparts word List.mem_cons_self) (hstart word List.mem_cons_self)
    simpa [hcapital] using hupper

/-- **Words that start with letters are read back** from the capitals. -/
theorem eq_of_flatMap_capitalize_eq {words words' : List (List Char)}
    (hparts : ∀ word ∈ words, ∀ d ∈ word, isWordPart d = true)
    (hparts' : ∀ word ∈ words', ∀ d ∈ word, isWordPart d = true)
    (hstart : StartWithLetters words) (hstart' : StartWithLetters words')
    (h : words.flatMap Text.capitalize = words'.flatMap Text.capitalize) : words = words' := by
  induction words generalizing words' with
  | nil =>
    cases words' with
    | nil => rfl
    | cons word' words' =>
      obtain ⟨c, rest, -, hcapital, -⟩ := capitalize_of_startsWithLetter
        (hparts' word' List.mem_cons_self) (hstart' word' List.mem_cons_self)
      simp [hcapital] at h
  | cons word words ih =>
    obtain ⟨c, rest, rfl, hcapital, -⟩ := capitalize_of_startsWithLetter
      (hparts word List.mem_cons_self) (hstart word List.mem_cons_self)
    cases words' with
    | nil => simp [hcapital] at h
    | cons word' words' =>
      obtain ⟨c', rest', rfl, hcapital', -⟩ := capitalize_of_startsWithLetter
        (hparts' word' List.mem_cons_self) (hstart' word' List.mem_cons_self)
      rw [List.flatMap_cons, List.flatMap_cons, hcapital, hcapital', List.cons_append,
        List.cons_append, List.cons.injEq] at h
      have hc := upperChar_of_isWordPart (hparts _ List.mem_cons_self c List.mem_cons_self)
      have hc' := upperChar_of_isWordPart (hparts' _ List.mem_cons_self c' List.mem_cons_self)
      obtain rfl : c = c' := by rw [← hc.2.2.1, h.1, hc'.2.2.1]
      -- The rest of a word has no capital, and the next word starts with one.
      have hlater := fun word hmem => hparts word (List.mem_cons_of_mem _ hmem)
      have hlater' := fun word hmem => hparts' word (List.mem_cons_of_mem _ hmem)
      have hnext : StartWithLetters words := fun word hmem =>
        hstart word (List.mem_cons_of_mem _ hmem)
      have hnext' : StartWithLetters words' := fun word hmem =>
        hstart' word (List.mem_cons_of_mem _ hmem)
      obtain ⟨rfl, hrest⟩ := eq_and_eq_of_append_eq (p := Char.isUpper)
        (fun d hd => (upperChar_of_isWordPart (hparts _ List.mem_cons_self d
          (List.mem_cons_of_mem _ hd))).2.2.2.2)
        (fun d hd => (upperChar_of_isWordPart (hparts' _ List.mem_cons_self d
          (List.mem_cons_of_mem _ hd))).2.2.2.2)
        (isUpper_of_head?_flatMap hlater hnext) (isUpper_of_head?_flatMap hlater' hnext') h.2
      rw [ih hlater hlater' hnext hnext' hrest]

/-- **Names whose words start with letters and that agree as types** have the
same words, so they agree as modules. -/
theorem identifierOf_module_eq_of_type {name name' identifier : String} (h : IsWitName name)
    (h' : IsWitName name') (htype : identifierOf .type name = .ok identifier)
    (htype' : identifierOf .type name' = .ok identifier) :
    identifierOf .module name = identifierOf .module name' := by
  obtain ⟨hne, hne', hjoin⟩ := h.1.join_eq h'.1 htype htype'
  have hflat : (wordsOf name.toList).flatMap Text.capitalize
      = (wordsOf name'.toList).flatMap Text.capitalize := by
    obtain ⟨first, rest, hwords⟩ := List.exists_cons_of_ne_nil hne
    obtain ⟨first', rest', hwords'⟩ := List.exists_cons_of_ne_nil hne'
    rw [hwords, hwords'] at hjoin ⊢
    exact hjoin
  have hwords := eq_of_flatMap_capitalize_eq (fun _ hmem _ => h.1.isWordPart_of_mem hmem)
    (fun _ hmem _ => h'.1.isWordPart_of_mem hmem) h.2 h'.2 hflat
  unfold identifierOf Convention.convert
  rw [hwords]
  obtain ⟨first, rest, hcons⟩ := List.exists_cons_of_ne_nil hne'
  rw [hcons]

end ComponentBindings

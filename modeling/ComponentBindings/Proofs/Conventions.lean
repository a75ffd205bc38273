import ComponentBindings.Proofs.Words

/-!
# What every convention makes of a name

An identifier of an interface definition is words of letters and digits, each
of which starts with a letter, with hyphens between them and perhaps a percent
sign in front (`IsWitIdentifier`). The letter case is free, and it is lost: all
three conventions start from the words in lower case (`lowerWords`).

They lose nothing else. Modules keep the words apart by underscores, types and
members by the capitals with which words start, and whichever it is, the words
can be read back (`Convention.join_inj`). So two names have one identifier by
one convention exactly if they have the same words, and then they have one by
every convention.
-/

namespace ComponentBindings

/-! ## Names of an interface definition -/

/-- A letter, and then letters and digits. -/
def isWitWord : List Char → Bool
  | [] => false
  | c :: rest => c.isAlpha && rest.all Char.isAlphanum

/-- A name without the percent sign in front of it. -/
def withoutPercent : List Char → List Char
  | '%' :: rest => rest
  | cs => cs

/-- The words of a name as they are written. -/
def witWords (raw : String) : List (List Char) := (withoutPercent raw.toList).splitOn '-'

/-- **An identifier of an interface definition**: words with hyphens between
them, and perhaps a percent sign in front. -/
def IsWitIdentifier (raw : String) : Prop := ∀ word ∈ witWords raw, isWitWord word = true

instance : DecidablePred IsWitIdentifier := fun raw =>
  inferInstanceAs (Decidable (∀ word ∈ witWords raw, isWitWord word = true))

/-- The words of a name in lower case. -/
def lowerWords (raw : String) : List (List Char) := (witWords raw).map (·.map Char.toLower)

/-- An identifier of letters, digits and underscores that starts with a
letter. -/
def isPlainIdentifier (text : String) : Bool :=
  text.toList.head?.any Char.isAlpha && text.toList.all isIdentifierPart

/-- **Words that can be told apart** after they have been joined. -/
structure AreWords (words : List (List Char)) : Prop where
  /-- There is one at least. -/
  ne_nil : words ≠ []
  /-- They are written with small letters and digits. -/
  parts : ∀ word ∈ words, ∀ d ∈ word, isWordPart d = true
  /-- They start with letters. -/
  start : StartWithLetters words

/-! ## Words of a name -/

/-- A word is of letters and digits. -/
theorem isAlphanum_of_isWitWord {word : List Char} (h : isWitWord word = true) :
    ∀ c ∈ word, c.isAlphanum = true := by
  cases word with
  | nil => cases h
  | cons c rest =>
    simp only [isWitWord, Bool.and_eq_true, List.all_eq_true] at h
    rintro d (_ | ⟨_, hd⟩)
    · exact Bool.or_eq_true_iff.mpr (.inl h.1)
    · exact h.2 d hd

/-- A letter in lower case is a small letter. -/
theorem isLower_toLower {c : Char} (h : c.isAlpha = true) : c.toLower.isLower = true :=
  of_isAlphanum (P := fun c => c.isAlpha = true → c.toLower.isLower = true) (by decide +kernel)
    (Bool.or_eq_true_iff.mpr (.inl h)) h

/-- A letter or a digit does not separate words. -/
theorem not_isWordSeparator {c : Char} (h : c.isAlphanum = true) : isWordSeparator c = false :=
  of_isAlphanum (P := fun c => c.isAlphanum = true → isWordSeparator c = false)
    (by decide +kernel) h h

/-- Letters and digits are lowered one by one. -/
theorem lower_eq_map {cs : List Char} (h : ∀ c ∈ cs, c.isAlphanum = true) :
    Text.lower cs = cs.map Char.toLower := by
  suffices hafter : ∀ before, Text.lowerAfter before cs = cs.map Char.toLower from hafter []
  induction cs with
  | nil => exact fun _ => rfl
  | cons c rest ih =>
    intro before
    obtain ⟨hsigma, hlower, -⟩ := lowerChar_of_isAlphanum (h c List.mem_cons_self)
    rw [Text.lowerAfter, if_neg hsigma, hlower, ih fun d hd => h d (List.mem_cons_of_mem _ hd)]
    rfl

/-- **Pieces that have been joined are taken apart again.** -/
theorem Text.pieces_intercalate {isMark : Char → Bool} {mark : Char} (hmark : isMark mark = true)
    {parts : List (List Char)} (hne : parts ≠ [])
    (hparts : ∀ part ∈ parts, ∀ d ∈ part, isMark d = false) :
    Text.pieces isMark ([mark].intercalate parts) = parts := by
  induction parts with
  | nil => exact absurd rfl hne
  | cons part parts ih =>
    have hpart := hparts part List.mem_cons_self
    cases parts with
    | nil =>
      rw [List.intercalate_singleton, Text.pieces_of_forall hpart]
    | cons next rest =>
      rw [List.intercalate_cons_cons, List.append_assoc, List.singleton_append,
        Text.pieces_append_cons hmark, Text.pieces_of_forall hpart,
        ih (by simp) fun other hother => hparts other (List.mem_cons_of_mem _ hother)]
      rfl

/-! ## Reading words back -/

namespace AreWords

variable {words words' : List (List Char)} {c : Convention}

/-- What is joined from words starts with a letter, and has letters, digits and
underscores. -/
theorem isPlainIdentifier_join (h : AreWords words) (c : Convention) :
    isPlainIdentifier (String.ofList (c.join words)) = true := by
  rw [isPlainIdentifier, String.toList_ofList, Bool.and_eq_true, List.all_eq_true]
  refine ⟨?_, fun d hd => isIdentifierPart_of_mem_join h.parts hd⟩
  obtain ⟨first, rest, rfl⟩ := List.exists_cons_of_ne_nil h.ne_nil
  have hstart := h.start first List.mem_cons_self
  obtain ⟨d, more, rfl, hcapital, hupper⟩ := capitalize_of_startsWithLetter
    (h.parts first List.mem_cons_self) hstart
  have hletter : d.isAlpha = true := Bool.or_eq_true_iff.mpr (.inr (by simpa using hstart))
  have hcapitalLetter : d.toUpper.isAlpha = true := Bool.or_eq_true_iff.mpr (.inl hupper)
  cases c with
  | type => simp [Convention.join, hcapital, hcapitalLetter]
  | member => simp [Convention.join, hletter]
  | module => cases rest <;> simp [Convention.join, hletter]

/-- The words but the first are words, if there are any. -/
theorem tail {word : List Char} (h : AreWords (word :: words)) :
    (∀ word ∈ words, ∀ d ∈ word, isWordPart d = true) ∧ StartWithLetters words :=
  ⟨fun other hmem => h.parts other (List.mem_cons_of_mem _ hmem),
    fun other hmem => h.start other (List.mem_cons_of_mem _ hmem)⟩

/-- **The words are read back**, whatever the convention. -/
theorem join_inj (h : AreWords words) (h' : AreWords words') :
    c.join words = c.join words' ↔ words = words' := by
  refine ⟨fun heq => ?_, fun heq => heq ▸ rfl⟩
  obtain ⟨first, rest, rfl⟩ := List.exists_cons_of_ne_nil h.ne_nil
  obtain ⟨first', rest', rfl⟩ := List.exists_cons_of_ne_nil h'.ne_nil
  cases c with
  | type => exact eq_of_flatMap_capitalize_eq h.parts h'.parts h.start h'.start heq
  | member =>
    obtain ⟨hparts, hstart⟩ := h.tail
    obtain ⟨hparts', hstart'⟩ := h'.tail
    -- The first word has no capital, and the second starts with one.
    obtain ⟨rfl, hrest⟩ := eq_and_eq_of_append_eq (p := Char.isUpper)
      (fun d hd => (upperChar_of_isWordPart (h.parts _ List.mem_cons_self d hd)).2.2.2.2)
      (fun d hd => (upperChar_of_isWordPart (h'.parts _ List.mem_cons_self d hd)).2.2.2.2)
      (isUpper_of_head?_flatMap hparts hstart) (isUpper_of_head?_flatMap hparts' hstart') heq
    rw [eq_of_flatMap_capitalize_eq hparts hparts' hstart hstart' hrest]
  | module =>
    have hmark : ∀ {words : List (List Char)}, AreWords words → ∀ word ∈ words, '_' ∉ word :=
      fun h word hmem hmark => absurd (h.parts word hmem '_' hmark) (by decide)
    have hsplit := congrArg (List.splitOn '_') heq
    simp only [Convention.join] at hsplit
    rwa [List.splitOn_intercalate _ (hmark h) h.ne_nil,
      List.splitOn_intercalate _ (hmark h') h'.ne_nil] at hsplit

end AreWords

/-! ## Identifiers of names -/

/-- There is a first word. -/
theorem witWords_ne_nil (raw : String) : witWords raw ≠ [] := List.splitOnP_ne_nil _ _

/-- A name is made of its words. -/
theorem intercalate_witWords (raw : String) :
    ['-'].intercalate (witWords raw) = withoutPercent raw.toList := List.intercalate_splitOn _

namespace IsWitIdentifier

variable {raw a b : String} {c : Convention} {text identifier : String}

/-- Behind the percent sign there is a letter. -/
theorem exists_letter (h : IsWitIdentifier raw) :
    ∃ d rest, withoutPercent raw.toList = d :: rest ∧ d.isAlpha = true := by
  obtain ⟨first, words, hwords⟩ := List.exists_cons_of_ne_nil (witWords_ne_nil raw)
  have hfirst := h first (hwords ▸ List.mem_cons_self)
  rw [← intercalate_witWords, hwords]
  cases first with
  | nil => cases hfirst
  | cons d more =>
    have hletter : d.isAlpha = true := (Bool.and_eq_true_iff.mp hfirst).1
    cases words with
    | nil => exact ⟨d, more, List.intercalate_singleton, hletter⟩
    | cons next rest => exact ⟨d, _, by rw [List.intercalate_cons_cons]; rfl, hletter⟩

/-- There is one percent sign at most. -/
theorem dropWhile_percent (h : IsWitIdentifier raw) :
    raw.toList.dropWhile (· = '%') = withoutPercent raw.toList := by
  obtain ⟨d, rest, hrest, hletter⟩ := h.exists_letter
  have hne : d ≠ '%' := by
    rintro rfl
    cases hletter
  have hdrop : (d :: rest).dropWhile (· = '%') = d :: rest := by simp [hne]
  rw [hrest]
  unfold withoutPercent at hrest
  split at hrest
  · next hpercent =>
    rw [hpercent, List.dropWhile_cons_of_pos (by decide), hrest, hdrop]
  · rw [hrest, hdrop]

/-- **The words of a name in lower case** are what all conventions start from. -/
theorem wordsOf_eq (h : IsWitIdentifier raw) : wordsOf raw.toList = lowerWords raw := by
  have halphanum := fun word hword => isAlphanum_of_isWitWord (h word hword)
  have hpieces : Text.pieces isWordSeparator (withoutPercent raw.toList) = witWords raw := by
    rw [← intercalate_witWords]
    exact Text.pieces_intercalate (by decide) (witWords_ne_nil raw) fun word hword d hd =>
      not_isWordSeparator (halphanum word hword d hd)
  have hnonempty : (witWords raw).filter (!·.isEmpty) = witWords raw := by
    refine List.filter_eq_self.mpr fun word hword => ?_
    have hword := h word hword
    cases word with
    | nil => cases hword
    | cons _ _ => rfl
  rw [wordsOf, h.dropWhile_percent, hpieces, hnonempty, lowerWords]
  exact List.map_congr_left fun word hword => lower_eq_map (halphanum word hword)

/-- The words of a name in lower case can be told apart. -/
theorem areWords (h : IsWitIdentifier raw) : AreWords (lowerWords raw) where
  ne_nil := by simpa [lowerWords] using witWords_ne_nil raw
  parts := by
    intro word hword d hd
    obtain ⟨written, hwritten, rfl⟩ := List.mem_map.mp hword
    obtain ⟨e, he, rfl⟩ := List.mem_map.mp hd
    exact (lowerChar_of_isAlphanum (isAlphanum_of_isWitWord (h written hwritten) e he)).2.2
  start := by
    intro word hword
    obtain ⟨written, hwritten, rfl⟩ := List.mem_map.mp hword
    have hwritten := h written hwritten
    cases written with
    | nil => cases hwritten
    | cons d more =>
      simpa using isLower_toLower (Bool.and_eq_true_iff.mp hwritten).1

/-- **A name is written with its words in lower case.** -/
theorem convert_eq (h : IsWitIdentifier raw) (c : Convention) :
    c.convert raw = .ok (String.ofList (c.join (lowerWords raw))) := by
  unfold Convention.convert
  rw [h.wordsOf_eq]
  obtain ⟨first, rest, hwords⟩ := List.exists_cons_of_ne_nil h.areWords.ne_nil
  rw [hwords]

/-- The identifier of a name. -/
theorem identifierOf_eq (h : IsWitIdentifier raw) (c : Convention) :
    identifierOf c raw
      = .ok (escape reservedWords (String.ofList (c.join (lowerWords raw)))) := by
  rw [identifierOf, h.convert_eq]
  rfl

/-- What a name is written as can be told from its identifier. -/
theorem unescape_escape (h : IsWitIdentifier raw) (c : Convention) :
    unescape (escape reservedWords (String.ofList (c.join (lowerWords raw))))
      = String.ofList (c.join (lowerWords raw)) := by
  refine (isPlainText_of_isIdentifierPart fun d hd => ?_).unescape_escape
  rw [String.toList_ofList] at hd
  exact isIdentifierPart_of_mem_join h.areWords.parts hd

/-- **Names have one identifier exactly if they have the same words**, whatever
the convention. -/
theorem identifierOf_eq_iff (ha : IsWitIdentifier a) (hb : IsWitIdentifier b) (c : Convention) :
    identifierOf c a = identifierOf c b ↔ lowerWords a = lowerWords b := by
  rw [ha.identifierOf_eq, hb.identifierOf_eq]
  refine ⟨fun heq => ?_, fun heq => by rw [heq]⟩
  have htext := congrArg unescape (Except.ok.inj heq)
  rw [ha.unescape_escape, hb.unescape_escape] at htext
  exact (AreWords.join_inj ha.areWords hb.areWords).mp (String.ofList_injective htext)

end IsWitIdentifier

/-- **A legal identifier of a name**: the name as it is written, which is plain,
or that between backticks if it is reserved; and the backticks come off
again. -/
structure Convention.Legal (c : Convention) (raw text identifier : String) : Prop where
  /-- The name is written as the text. -/
  converted : c.convert raw = .ok text
  /-- It has the identifier. -/
  derived : identifierOf c raw = .ok identifier
  /-- The text starts with a letter, and has letters, digits and underscores. -/
  plain : isPlainIdentifier text = true
  /-- Reserved words stand between backticks, and nothing else does. -/
  escaped : (identifier = text ∧ identifier ∉ reservedWords) ∨
    (identifier = "\x60" ++ text ++ "\x60" ∧ text ∈ reservedWords)
  /-- The backticks come off again. -/
  restored : unescape identifier = text

/-- The identifier of a name is legal. -/
theorem IsWitIdentifier.legal {raw : String} (h : IsWitIdentifier raw) (c : Convention) :
    c.Legal raw (String.ofList (c.join (lowerWords raw)))
      (escape reservedWords (String.ofList (c.join (lowerWords raw)))) where
  converted := h.convert_eq c
  derived := h.identifierOf_eq c
  plain := h.areWords.isPlainIdentifier_join c
  escaped := by
    unfold escape
    split
    · next hreserved => exact .inr ⟨rfl, by simpa using hreserved⟩
    · next hfree => exact .inl ⟨rfl, by simpa using hfree⟩
  restored := h.unescape_escape c

/-- **Identifiers are legal, and as different as the words of their names.** Each
convention gives every name a legal identifier; two names have the same one
exactly if their words are the same in lower case; and so a name that is
declared after another collides with it exactly if they are different names of
the same words, whatever the convention. -/
theorem identifiers_legal_faithful {a b : String} (ha : IsWitIdentifier a)
    (hb : IsWitIdentifier b) (c : Convention) :
    (∃ text identifier, c.Legal a text identifier) ∧
      (identifierOf c a = identifierOf c b ↔ lowerWords a = lowerWords b) ∧
      ∀ scope claims identifier claims',
        declare c a scope reservedWords claims = .ok identifier claims' →
          ((∃ claims'', declare c b scope reservedWords claims'
              = .error (.nameCollision scope identifier a b) claims'') ↔
            a ≠ b ∧ lowerWords a = lowerWords b) := by
  refine ⟨⟨_, _, ha.legal c⟩, ha.identifierOf_eq_iff hb c, ?_⟩
  intro scope claims identifier claims' hdeclared
  obtain ⟨hidentifier, hregister⟩ := declare_eq_ok.mp hdeclared
  have hheld := Claims.holder?_of_register hregister
  rw [← ha.identifierOf_eq_iff hb c, hidentifier]
  constructor
  · rintro ⟨claims'', hcollision⟩
    rcases (declare_eq_error.mp hcollision).1 with hnone | ⟨identifier', hidentifier', hrefused⟩
    · cases identifierOf_eq_error hnone
    · obtain ⟨holder, -, hne, hfault⟩ := Claims.register_eq_error.mp hrefused
      obtain ⟨-, rfl, rfl, -⟩ := Fault.nameCollision.inj hfault
      exact ⟨hne, hidentifier'.symm⟩
  · rintro ⟨hne, hsame⟩
    have hrefused := Claims.register_eq_error.mpr ⟨a, hheld, hne, rfl⟩
    exact ⟨claims', declare_eq_error.mpr ⟨.inr ⟨identifier, hsame.symm, hrefused⟩, rfl⟩⟩

/-- Two spellings of one keyword are declared as members, the second in vain: it
is `match` in other letters, and behind a percent sign. -/
theorem identifiers_legal_faithful_match :
    IsWitIdentifier "match" ∧ IsWitIdentifier "%Match" ∧
      identifierOf .member "%Match" = .ok "\x60match\x60" ∧
      (∃ text identifier, Convention.member.Legal "match" text identifier) ∧
      ∃ claims, declare .member "%Match" "s" reservedWords [⟨"s", "\x60match\x60", "match"⟩]
        = .error (.nameCollision "s" "\x60match\x60" "match" "%Match") claims := by
  have ha : IsWitIdentifier "match" := by decide
  have hb : IsWitIdentifier "%Match" := by decide
  obtain ⟨hlegal, -, hcollision⟩ := identifiers_legal_faithful ha hb .member
  have hdeclared : declare .member "match" "s" reservedWords []
      = .ok "\x60match\x60" [⟨"s", "\x60match\x60", "match"⟩] := by rfl
  exact ⟨ha, hb, by rfl, hlegal, (hcollision _ _ _ _ hdeclared).mpr ⟨by decide, by decide⟩⟩

end ComponentBindings

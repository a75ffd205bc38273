/-!
# Code points

A text of a document is a sequence of code points. They are the characters and, with the codes from
`0xD800` to `0xDFFF`, the halves of surrogate pairs. A half alone is no character, but a text of a
document can write one by its code, and two halves that are written side by side stay two. A message
shows a half by its code; it cannot be encoded, so that no file and no line can have one.

A string is made of characters alone. So where a half is to be held a mark stands, and behind it a
character that says which half it is. The mark is the character with the last code of all, and where
it is meant itself a character behind it says so; with anything else behind it, it stands for itself
as well. Every sequence of code points is held by a string in this way and read from it as it was
(`Text.codePoints_flatMap_held`), and a text of characters can be encoded whatever they are
(`Text.isEncodable_ofCharacters`).
-/

namespace ComponentBindings

/-- **A code point.** -/
inductive CodePoint where
  /-- A character. -/
  | char (c : Char)
  /-- Half a surrogate pair, by its place among the halves. -/
  | half (place : Fin 0x800)
  deriving DecidableEq, Repr

namespace CodePoint

/-- The code of a code point. -/
def code : CodePoint → Nat
  | char c => c.toNat
  | half place => 0xD800 + place

/-- The code point with a code. -/
def ofCode (code : Nat) : CodePoint :=
  if h : 0xD800 ≤ code ∧ code < 0xE000 then half ⟨code - 0xD800, by omega⟩
  else char (Char.ofNat code)

/-- The character that a code point is, unless it is half a pair. -/
def char? : CodePoint → Option Char
  | char c => some c
  | half _ => none

/-- The bytes that a code point takes. -/
def size : CodePoint → Nat
  | char c => c.utf8Size
  | half _ => 3

/-- The bytes that code points take together. -/
def totalSize : List CodePoint → Nat
  | [] => 0
  | p :: ps => p.size + totalSize ps

@[simp] theorem totalSize_append (ps qs : List CodePoint) :
    totalSize (ps ++ qs) = totalSize ps + totalSize qs := by
  induction ps with
  | nil => simp [totalSize]
  | cons p ps ih => simp [totalSize, ih, Nat.add_assoc]

/-- The character in front of one that does not stand for itself. -/
def mark : Char := Char.ofNat 0x10FFFF

/-- What a character behind the mark stands for. -/
def behindMark (c : Char) : Option CodePoint :=
  if c = '\ue800' then some (char mark)
  else if h : 0xE000 ≤ c.toNat ∧ c.toNat < 0xE800 then some (half ⟨c.toNat - 0xE000, by omega⟩)
  else none

/-- The characters that hold a code point. -/
def held : CodePoint → List Char
  | char c => if c = mark then [mark, '\ue800'] else [c]
  | half place => [mark, Char.ofNat (0xE000 + place)]

end CodePoint

namespace Text

open CodePoint

/-- **The code points that characters hold.** -/
def codePoints : List Char → List CodePoint
  | [] => []
  | [c] => [.char c]
  | c :: d :: rest =>
    match if c = mark then behindMark d else none with
    | some p => p :: codePoints rest
    | none => .char c :: codePoints (d :: rest)

/-- The text with the given code points. -/
def ofCodePoints (ps : List CodePoint) : String := String.ofList (ps.flatMap held)

/-- Whether a text can be encoded, that is, has no halves. -/
def isEncodable (s : String) : Bool := (codePoints s.toList).all (·.char?.isSome)

/-- The bytes that a text takes. -/
def byteSize (s : String) : Nat := totalSize (codePoints s.toList)

/-- The characters of a text, halves left out. -/
def characters (s : String) : String := String.ofList ((codePoints s.toList).filterMap char?)

/-- The text that has the given characters. -/
def ofCharacters (s : String) : String := ofCodePoints (s.toList.map .char)

variable {c : Char} {cs : List Char}

/-- A character that is not the mark holds itself. -/
theorem codePoints_cons (hc : c ≠ mark) (cs : List Char) :
    codePoints (c :: cs) = .char c :: codePoints cs := by
  cases cs with
  | nil => rfl
  | cons d rest => rw [codePoints, if_neg hc]

/-- A character with the mark in front of it holds what it stands for. -/
theorem codePoints_mark_cons {p : CodePoint} (h : behindMark c = some p) (cs : List Char) :
    codePoints (mark :: c :: cs) = p :: codePoints cs := by
  rw [codePoints, if_pos rfl, h]

/-- A mark that stands for itself. -/
theorem codePoints_mark_of_eq_none (h : behindMark c = none) (cs : List Char) :
    codePoints (mark :: c :: cs) = .char mark :: codePoints (c :: cs) := by
  rw [codePoints, if_pos rfl, h]

/-- The character that says which half is held. -/
theorem behindMark_ofNat (place : Fin 0x800) :
    behindMark (Char.ofNat (0xE000 + place)) = some (.half place) := by
  have valid : (0xE000 + place.val).isValidChar := Or.inr ⟨by omega, by omega⟩
  have value : (Char.ofNat (0xE000 + place)).toNat = 0xE000 + place := by
    rw [Char.ofNat, dif_pos valid]
    rfl
  have hmark : Char.ofNat (0xE000 + place) ≠ '\ue800' := by
    intro heq
    have hcode : (0xE800 : Nat) = 0xE000 + place := by rw [← value, heq]; rfl
    omega
  have hrange : 0xE000 ≤ (Char.ofNat (0xE000 + place)).toNat ∧
      (Char.ofNat (0xE000 + place)).toNat < 0xE800 := by omega
  rw [behindMark, if_neg hmark, dif_pos hrange]
  simp [value]

/-- Code points are read one after the other. -/
theorem codePoints_held_append (p : CodePoint) (cs : List Char) :
    codePoints (p.held ++ cs) = p :: codePoints cs := by
  cases p with
  | char c =>
    rw [held]
    split
    · next hc =>
      rw [hc]
      exact codePoints_mark_cons rfl cs
    · next hc => exact codePoints_cons hc cs
  | half place => exact codePoints_mark_cons (behindMark_ofNat place) cs

/-- **Code points are read as they are held.** -/
theorem codePoints_flatMap_held (ps : List CodePoint) : codePoints (ps.flatMap held) = ps := by
  induction ps with
  | nil => rfl
  | cons p ps ih => rw [List.flatMap_cons, codePoints_held_append, ih]

/-- **Every text of characters can be encoded**, whatever characters they are. -/
theorem isEncodable_ofCharacters (s : String) : isEncodable (ofCharacters s) = true := by
  rw [isEncodable, ofCharacters, ofCodePoints, String.toList_ofList, codePoints_flatMap_held,
    List.all_map]
  exact List.all_eq_true.mpr fun _ _ => rfl

example : isEncodable (ofCharacters (String.ofList [mark, '\ue000', 'a'])) = true ∧
    isEncodable (ofCodePoints [.half 0, .char 'a']) = false := by decide

/-- **Texts are read part by part** where the second does not start with a character that stands for
another one. -/
theorem codePoints_append_cons (hc : behindMark c = none) (xs cs : List Char) :
    codePoints (xs ++ c :: cs) = codePoints xs ++ codePoints (c :: cs) := by
  induction xs using codePoints.induct with
  | case1 => rfl
  | case2 x =>
    by_cases hx : x = mark
    · rw [hx]
      exact codePoints_mark_of_eq_none hc cs
    · exact codePoints_cons hx _
  | case3 x y rest p hp ih =>
    rw [List.cons_append, List.cons_append, codePoints, codePoints, hp]
    exact congrArg (p :: ·) ih
  | case4 x y rest hnone ih =>
    rw [List.cons_append, List.cons_append, codePoints, codePoints, hnone]
    exact congrArg (CodePoint.char x :: ·) ih

end Text

end ComponentBindings

import ComponentBindings.Document.Yaml.Cursor
import ComponentBindings.Fault
import ComponentBindings.Text.Digit

/-!
# Scalars

A scalar is a text that is written plainly, between single quotes or between
double quotes. In all three forms the text may go on over several lines,
which are folded: one end of a line is a space, and of several ends in a row
the first is dropped.

Reading takes steps, each of which takes a character at least, and is told
how many steps it may take: as many as there are characters are enough.
-/

namespace ComponentBindings.Yaml

/-! ## Plain scalars -/

/-- A character that has a meaning of its own inside brackets and braces. -/
def isFlowMark (c : Char) : Bool :=
  c = ',' || c = '?' || c = '[' || c = ']' || c = '\x7b' || c = '\x7d'

/-- Whether a colon is followed by what makes it the end of a key. -/
def endsKey (flow : Bool) : List Char → Bool
  | [] => true
  | c :: _ => isSpace c || (flow && c ≠ '?' && isFlowMark c)

/-- The word at the front of a plain scalar. -/
def plainWord (flow : Bool) : List Char → List Char
  | [] => []
  | c :: rest =>
    if isSpace c || (c = ':' && endsKey flow rest) || (flow && isFlowMark c) then []
    else c :: plainWord flow rest

/-- The ends of lines at a place, and the place after them and the spaces
between them. A document boundary stops the search. -/
def plainBreaks : Nat → Cursor → List Char × Cursor × Bool
  | 0, c => ([], c, false)
  | fuel + 1, c =>
    match c.rest with
    | ' ' :: _ => plainBreaks fuel c.next
    | d :: _ =>
      if isBreak d then
        if c.next.atBoundary then ([breakChar d], c.next, true)
        else
          let (more, last, stopped) := plainBreaks fuel c.next
          (breakChar d :: more, last, stopped)
      else ([], c, false)
    | [] => ([], c, false)

/-- What stands between two words of a plain scalar: the text it stands for,
the place after it, and whether it goes over the end of a line. Without a
text the scalar ends. -/
def plainGap (fuel : Nat) (c : Cursor) : List Char × Cursor × Bool :=
  let (blanks, c) := c.span (· = ' ')
  match c.rest with
  | d :: _ =>
    if isBreak d then
      if c.next.atBoundary then ([], c.next, true)
      else
        let (more, last, stopped) := plainBreaks fuel c.next
        (if stopped then [] else fold d more, last, true)
    else (blanks, c, false)
  | [] => (blanks, c, false)

/-- A plain scalar after a gap: its text, the place after it, and whether its
last gap goes over the end of a line. The scalar has to stand further in than
`indent`. -/
def plainScalar (flow : Bool) (indent : Int) : Nat → List Char → Bool → Cursor →
    List Char × Cursor × Bool
  | 0, _, crossed, c => ([], c, crossed)
  | fuel + 1, gap, crossed, c =>
    if c.rest.head? = some '#' then ([], c, crossed)
    else
      match plainWord flow c.rest with
      | [] => ([], c, crossed)
      | word =>
        let (next, after, crossed) := plainGap fuel (c.skip word.length)
        if next.isEmpty || after.rest.head? = some '#' ||
            (!flow && (after.column : Int) < indent + 1) then (gap ++ word, after, crossed)
        else
          let (more, last, crossed) := plainScalar flow indent fuel next crossed after
          (gap ++ word ++ more, last, crossed)

/-! ## Quoted scalars -/

/-- The ends of lines at a place, and the place after them and the blanks
around them. No document may start among them. -/
def quotedBreaks : Nat → Cursor → Except Fault (List Char × Cursor)
  | 0, _ => .error .unreadable
  | fuel + 1, c =>
    if c.atBoundary then .error .unreadable
    else
      let (_, c) := c.span fun d => d = ' ' || d = '\t'
      match c.rest with
      | d :: _ =>
        if isBreak d then do
          let (more, last) ← quotedBreaks fuel c.next
          return (breakChar d :: more, last)
        else .ok ([], c)
      | [] => .ok ([], c)

/-- What stands between two words of a quoted scalar. -/
def quotedGap (fuel : Nat) (c : Cursor) : Except Fault (List Char × Cursor) :=
  let (blanks, c) := c.span fun d => d = ' ' || d = '\t'
  match c.rest with
  | [] => .error .unreadable
  | d :: _ =>
    if isBreak d then do
      let (more, last) ← quotedBreaks fuel c.next
      return (fold d more, last)
    else .ok (blanks, c)

/-- The character that a letter after a backslash stands for. -/
def escaped? : Char → Option Char
  | '0' => some '\x00'
  | 'a' => some '\x07'
  | 'b' => some '\x08'
  | 't' | '\t' => some '\t'
  | 'n' => some '\n'
  | 'v' => some '\x0b'
  | 'f' => some '\x0c'
  | 'r' => some '\r'
  | 'e' => some '\x1b'
  | ' ' => some ' '
  | '"' => some '"'
  | '\\' => some '\\'
  | '/' => some '/'
  | 'N' => some '\u0085'
  | '_' => some '\u00a0'
  | 'L' => some '\u2028'
  | 'P' => some '\u2029'
  | _ => none

/-- How many hexadecimal digits follow a letter after a backslash. -/
def escapeWidth? : Char → Option Nat
  | 'x' => some 2
  | 'u' => some 4
  | 'U' => some 8
  | _ => none

/-- The number that a text of hexadecimal digits stands for. -/
def hexNumber? (cs : List Char) : Option Nat :=
  cs.foldlM (fun n c => (Text.digit? 16 c).map (n * 16 + ·)) 0

/-- The characters that hold the code point with a code, if there is one. -/
def charsOf (code : Nat) : Except Fault (List Char) :=
  if code < 0x110000 then .ok (CodePoint.ofCode code).held
  else .error (.unrepresentable (if code < 0x80000000 then .code else .longCode))

/-- A code point that is written by its code in a number of hexadecimal
digits. -/
def codeChars (c : Cursor) (width : Nat) : Except Fault (List Char × Cursor) :=
  let digits := c.rest.take width
  match hexNumber? digits with
  | some code => if digits.length < width then .error .unreadable
      else (charsOf code).map (·, c.skip width)
  | none => .error .unreadable

/-- What an escape after its backslash stands for. At the end of a line it
drops the end and the blanks at the front of the next line. -/
def escape (fuel : Nat) (c : Cursor) : Except Fault (List Char × Cursor) :=
  match c.rest with
  | [] => .error .unreadable
  | d :: _ =>
    match escaped? d, escapeWidth? d with
    | some e, _ => .ok ([e], c.next)
    | none, some width => codeChars c.next width
    | none, none => if isBreak d then quotedBreaks fuel c.next else .error .unreadable

/-- A scalar after its opening quote. A single quote is written twice inside
single quotes. -/
def quotedScalar (double : Bool) : Nat → Cursor → Except Fault (List Char × Cursor)
  | 0, _ => .error .unreadable
  | fuel + 1, c =>
    let before (text : List Char) (c : Cursor) : Except Fault (List Char × Cursor) :=
      (quotedScalar double fuel c).map fun (more, last) => (text ++ more, last)
    match c.rest with
    | [] => .error .unreadable
    | d :: rest =>
      if isSpace d then do
        let (text, c) ← quotedGap fuel c
        before text c
      else if double then
        if d = '"' then .ok ([], c.next)
        else if d = '\\' then do
          let (text, c) ← escape fuel c.next
          before text c
        else before [d] c.next
      else if d = '\'' then
        if rest.head? = some '\'' then before ['\''] (c.skip 2) else .ok ([], c.next)
      else before [d] c.next

end ComponentBindings.Yaml

import ComponentBindings.Document.Yaml.Scalar

/-!
# Tokens

A text is cut into tokens before its structure is read. Indentation is made
explicit: the tokens say where a block sequence or a block mapping starts and
where it ends. A key needs no mark in front of it, so that a node is known to
be a key only when the colon after it is met; its token is then put in front
of it.

Read are plain and quoted scalars, block and flow collections, anchors and
aliases, comments and document boundaries. Directives, tags and block scalars
are not.
-/

namespace ComponentBindings.Yaml

/-- A piece of a text. -/
inductive Token where
  /-- The mark in front of a document. -/
  | documentStart
  /-- The mark behind a document. -/
  | documentEnd
  /-- The start of a block sequence. -/
  | blockSequence
  /-- The start of a block mapping. -/
  | blockMapping
  /-- The end of a block sequence or mapping. -/
  | blockEnd
  /-- An opening bracket. -/
  | openBracket
  /-- A closing bracket. -/
  | closeBracket
  /-- An opening brace. -/
  | openBrace
  /-- A closing brace. -/
  | closeBrace
  /-- The mark of an entry of a block sequence. -/
  | entry
  /-- The comma between the entries of a flow collection. -/
  | comma
  /-- What stands in front of a key. -/
  | key
  /-- What stands in front of a value. -/
  | value
  /-- A name for the node behind it. -/
  | anchor (name : List Char)
  /-- The node that a name was given to. -/
  | aliasOf (name : List Char)
  /-- A scalar, plain or quoted. -/
  | scalar (text : List Char) (plain : Bool)
  deriving DecidableEq, Repr

/-- A node that is a key if a colon follows it on its line. -/
structure PossibleKey where
  /-- How many tokens stand before it. -/
  position : Nat
  /-- Whether it has to be a key, because it starts where one is due. -/
  required : Bool
  /-- Where it starts. -/
  start : Cursor

/-- **The state of cutting a text into tokens.** -/
structure Scan where
  /-- The place that has been reached. -/
  cursor : Cursor
  /-- The tokens so far, the last one first. -/
  tokens : List Token := []
  /-- How many tokens there are so far. -/
  count : Nat := 0
  /-- How many brackets and braces are open. -/
  depth : Nat := 0
  /-- The column of the innermost open block collection. -/
  indent : Int := -1
  /-- The columns of the block collections around it, the innermost first. -/
  outer : List Int := []
  /-- Whether a key may start here. -/
  keyAllowed : Bool := true
  /-- The possible keys, by the number of brackets and braces around them. -/
  keys : List (Nat × PossibleKey) := []

namespace Scan

/-- The state with one more token. -/
def push (s : Scan) (t : Token) : Scan := { s with tokens := t :: s.tokens, count := s.count + 1 }

/-- The state with one more token, which stands in front of those from a
position on. -/
def insertAt (s : Scan) (position : Nat) (t : Token) : Scan :=
  let later := s.count - position
  { s with tokens := s.tokens.take later ++ t :: s.tokens.drop later, count := s.count + 1 }

/-- The state further on in the text. -/
def moveTo (s : Scan) (c : Cursor) : Scan := { s with cursor := c }

/-- The state that allows a key here or not. -/
def allowKey (s : Scan) (allowed : Bool) : Scan := { s with keyAllowed := allowed }

/-- The possible key at the present depth is given up, unless it has to be
one. -/
def dropKey (s : Scan) : Except Fault Scan :=
  match s.keys.lookup s.depth with
  | some k => if k.required then .error .unreadable
      else .ok { s with keys := s.keys.filter (·.1 ≠ s.depth) }
  | none => .ok s

/-- A node that starts here is a possible key. -/
def saveKey (s : Scan) : Except Fault Scan :=
  if s.keyAllowed then do
    let s ← s.dropKey
    let required := s.depth = 0 && s.indent = s.cursor.column
    return { s with keys := (s.depth, ⟨s.count, required, s.cursor⟩) :: s.keys }
  else .ok s

/-- A key ends on its line and within 1024 characters; what is longer is
none. -/
def dropStaleKeys (s : Scan) : Except Fault Scan :=
  let stale (k : PossibleKey) : Bool :=
    k.start.line ≠ s.cursor.line || s.cursor.index - k.start.index > 1024
  if s.keys.any fun (_, k) => stale k && k.required then .error .unreadable
  else .ok { s with keys := s.keys.filter fun (_, k) => !stale k }

/-- The block collections that stand further in than a column are ended. -/
def unwindTo (column : Int) : List Int → Scan → Scan
  | [], s => s
  | outer :: rest, s =>
    if s.depth = 0 && s.indent > column then
      unwindTo column rest ({ s with indent := outer, outer := rest }.push .blockEnd)
    else s

/-- The block collections that stand further in than a column are ended. -/
def unwind (s : Scan) (column : Int) : Scan := unwindTo column s.outer s

/-- Whether a block collection starts at a column, and the state after it. -/
def addIndent (s : Scan) (column : Nat) : Bool × Scan :=
  if s.indent < column then
    (true, { s with indent := column, outer := s.indent :: s.outer })
  else (false, s)

/-- A block collection is started at a column, if none is open there. -/
def openBlock (s : Scan) (column : Nat) (t : Token) : Scan :=
  match s.addIndent column with
  | (true, s) => s.push t
  | (false, s) => s

/-- The place of the next token: blanks, comments and the ends of lines are
passed over. A key may start on a new line of a block. -/
def toNextToken : Nat → Scan → Scan
  | 0, s => s
  | fuel + 1, s =>
    let (_, c) := s.cursor.span (· = ' ')
    let c := if c.rest.head? = some '#' then (c.span (!isBreak ·)).2 else c
    match c.rest with
    | d :: _ =>
      if isBreak d then
        toNextToken fuel ((s.moveTo c.next).allowKey (s.keyAllowed || s.depth = 0))
      else s.moveTo c
    | [] => s.moveTo c

/-- A mark of one character that opens a bracket or a brace. -/
def fetchOpen (s : Scan) (t : Token) : Except Fault Scan := do
  let s ← s.saveKey
  return (({ s with depth := s.depth + 1, keyAllowed := true }.moveTo s.cursor.next).push t)

/-- A mark of one character that closes a bracket or a brace. -/
def fetchClose (s : Scan) (t : Token) : Except Fault Scan := do
  let s ← s.dropKey
  if s.depth = 0 then .error .unreadable
  else return (({ s with depth := s.depth - 1, keyAllowed := false }.moveTo s.cursor.next).push t)

/-- A comma. -/
def fetchComma (s : Scan) : Except Fault Scan := do
  let s ← (s.allowKey true).dropKey
  return ((s.moveTo s.cursor.next).push .comma)

/-- The mark of an entry of a block sequence. -/
def fetchEntry (s : Scan) : Except Fault Scan := do
  if s.depth = 0 && !s.keyAllowed then throw .unreadable
  let s := if s.depth = 0 then s.openBlock s.cursor.column .blockSequence else s
  let s ← (s.allowKey true).dropKey
  return ((s.moveTo s.cursor.next).push .entry)

/-- A question mark in front of a key. -/
def fetchKey (s : Scan) : Except Fault Scan := do
  if s.depth = 0 && !s.keyAllowed then throw .unreadable
  let s := if s.depth = 0 then s.openBlock s.cursor.column .blockMapping else s
  let s ← (s.allowKey (s.depth = 0)).dropKey
  return ((s.moveTo s.cursor.next).push .key)

/-- A colon. The possible key in front of it becomes one, and the first key
of a block mapping starts the mapping; a colon without a key has an empty
one. -/
def fetchValue (s : Scan) : Except Fault Scan := do
  match s.keys.lookup s.depth with
  | some k =>
    let s := { s with keys := s.keys.filter (·.1 ≠ s.depth) }
    let s := s.insertAt k.position .key
    let (starts, s) := if s.depth = 0 then s.addIndent k.start.column else (false, s)
    let s := if starts then s.insertAt k.position .blockMapping else s
    return (((s.allowKey false).moveTo s.cursor.next).push .value)
  | none =>
    if s.depth = 0 && !s.keyAllowed then throw .unreadable
    let s := if s.depth = 0 then s.openBlock s.cursor.column .blockMapping else s
    let s ← (s.allowKey (s.depth = 0)).dropKey
    return ((s.moveTo s.cursor.next).push .value)

/-- A character of the name of an anchor. -/
def isNameChar (c : Char) : Bool := c.isAlphanum || c = '-' || c = '_'

/-- The name of an anchor or alias, behind its mark. -/
def fetchName (s : Scan) (token : List Char → Token) : Except Fault Scan := do
  let s ← s.saveKey
  let (name, c) := s.cursor.next.span isNameChar
  if name.isEmpty then throw .unreadable
  let ends := match c.rest with
    | [] => true
    | d :: _ => isSpace d || "?:,]\x7d%@\x60".toList.contains d
  if ends then return (((s.allowKey false).moveTo c).push (token name)) else throw .unreadable

/-- A quoted scalar. -/
def fetchQuoted (s : Scan) (double : Bool) (fuel : Nat) : Except Fault Scan := do
  let s ← s.saveKey
  let (text, c) ← quotedScalar double fuel s.cursor.next
  return (((s.allowKey false).moveTo c).push (.scalar text false))

/-- A plain scalar. -/
def fetchPlain (s : Scan) (fuel : Nat) : Except Fault Scan := do
  let s ← s.saveKey
  let (text, c, crossed) := plainScalar (0 < s.depth) s.indent fuel [] false s.cursor
  return (((s.allowKey crossed).moveTo c).push (.scalar text true))

/-- A document boundary. -/
def fetchBoundary (s : Scan) (t : Token) : Except Fault Scan := do
  let s ← (s.unwind (-1)).dropKey
  return (((s.allowKey false).moveTo (s.cursor.skip 3)).push t)

/-- A character that has a meaning of its own at the start of a token. -/
def isIndicator (c : Char) : Bool := "-?:,[]\x7b\x7d#&*!|>'\"%@\x60".toList.contains c

/-- Whether a plain scalar can start at a place. -/
def startsPlain (flow : Bool) : List Char → Bool
  | [] => false
  | c :: rest =>
    !(isSpace c || isIndicator c) ||
      (!atSpace rest && (c = '-' || (!flow && (c = '?' || c = ':'))))

/-- The next token, or the end of the text. -/
def fetch (s : Scan) (fuel : Nat) : Except Fault (Scan × Bool) := do
  let s ← (toNextToken fuel s).dropStaleKeys
  let s := s.unwind s.cursor.column
  let flow := 0 < s.depth
  let more (s : Except Fault Scan) : Except Fault (Scan × Bool) := s.map (·, true)
  match s.cursor.rest with
  | [] =>
    let s ← (s.unwind (-1)).dropKey
    return (s, false)
  | c :: rest =>
    if s.cursor.column = 0 && s.cursor.atBoundary then
      more (s.fetchBoundary (if c = '-' then .documentStart else .documentEnd))
    else if s.cursor.column = 0 && c = '%' then throw .unreadable
    else if c = '[' then more (s.fetchOpen .openBracket)
    else if c = '\x7b' then more (s.fetchOpen .openBrace)
    else if c = ']' then more (s.fetchClose .closeBracket)
    else if c = '\x7d' then more (s.fetchClose .closeBrace)
    else if c = ',' then more s.fetchComma
    else if c = '-' && atSpace rest then more s.fetchEntry
    else if c = '?' && (flow || atSpace rest) then more s.fetchKey
    else if c = ':' && (flow || atSpace rest) then more s.fetchValue
    else if c = '*' then more (s.fetchName .aliasOf)
    else if c = '&' then more (s.fetchName .anchor)
    else if c = '\'' then more (s.fetchQuoted false fuel)
    else if c = '"' then more (s.fetchQuoted true fuel)
    else if startsPlain flow s.cursor.rest then more (s.fetchPlain fuel)
    else throw .unreadable

/-- How many of the tokens are settled: no token can still be put in front of
them, and they do not wait for what comes later. -/
def settled (s : Scan) : Nat :=
  match s.dropStaleKeys with
  | .ok s => (s.keys.map fun (_, k) => k.position).foldl min s.count
  | .error _ => s.count

end Scan

/-- **The tokens of a text.** Where the text cannot be cut into tokens up to its
end, these are the tokens that are settled by then, and why there are no
more. -/
structure Tokens where
  /-- The tokens. -/
  tokens : List Token
  /-- Why there are no more, unless the text is at its end. -/
  stop : Option Fault := none

/-- The tokens up to the end of the text. Every token takes a character, so
there are never more tokens to come than characters. -/
def Scan.fetchAll : Nat → Scan → Tokens
  | 0, s => { tokens := s.tokens.reverse.take s.settled, stop := some .unreadable }
  | fuel + 1, s =>
    match s.fetch fuel with
    | .ok (s, true) => fetchAll fuel s
    | .ok (s, false) => { tokens := s.tokens.reverse }
    | .error fault => { tokens := s.tokens.reverse.take s.settled, stop := some fault }

/-- A character that a text may hold: a tab, the end of a line, or a character
that is neither a control nor half a pair nor one of the last two of the
basic plane. -/
def isAllowed (c : Char) : Bool :=
  c = '\t' || c = '\n' || (' ' ≤ c && c ≤ '~') || c = '\u0085' ||
    ('\u00a0' ≤ c && c ≠ '\ufffe' && c ≠ '\uffff')

/-- A text with every end of a line that has a carriage return replaced by a
line feed. -/
def unixLines : List Char → List Char
  | [] => []
  | '\r' :: '\n' :: rest => '\n' :: unixLines rest
  | '\r' :: rest => '\n' :: unixLines rest
  | c :: rest => c :: unixLines rest

/-- The tokens of a text. A byte order mark at the front is passed over. -/
def Tokens.ofText (text : List Char) : Tokens :=
  let text := unixLines text
  if text.all isAllowed then
    let start : Cursor := { rest := text }
    let start := if text.head? = some '\uFEFF' then start.next else start
    Scan.fetchAll (text.length + 2) { cursor := start }
  else { tokens := [], stop := some .unreadable }

end ComponentBindings.Yaml

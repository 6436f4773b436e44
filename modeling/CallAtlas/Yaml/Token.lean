import CallAtlas.Yaml.Tag

/-!
# Tokens

A text is first read as tokens. Signs give flow collections, and indentation gives
block collections: a column further in opens one, a column further out closes it.

A key is known for one only when its colon comes. So where a key could start, the
number of tokens before it is remembered, and the tokens that open a mapping and a
key are put in there afterwards. Tokens are read only as far as they are asked for,
and the next one is given out when no key can start before it any more.
-/

namespace CallAtlas.Yaml

/-- What a directive says. -/
inductive Directive
  /-- The version of the language, by its first number. -/
  | version (major : Int)
  /-- What a handle of tags stands for. -/
  | handle (name meaning : String)
  /-- A directive that is not known, which says nothing. -/
  | other
deriving Repr, DecidableEq

/-- A token. -/
inductive Token
  | directive (d : Directive)
  | documentStart
  | documentEnd
  /-- The end of the text. -/
  | textEnd
  | blockSequence
  | blockMapping
  | blockEnd
  | flowSequence
  | flowMapping
  | flowSequenceEnd
  | flowMappingEnd
  /-- The dash before an item of a block sequence. -/
  | item
  /-- The comma between items of a flow collection. -/
  | comma
  | key
  | value
  | alias (name : String)
  | anchor (name : String)
  | tag (text : TagText)
  | scalar (text : String) (isPlain : Bool)
deriving Repr, DecidableEq

/-- A place where a key could start. -/
structure KeyStart where
  /-- How many tokens come before it. -/
  before : Nat
  /-- Whether nothing but a key can stand there. -/
  isRequired : Bool
  index : Nat
  line : Nat
  column : Nat
deriving Repr

/-- Tokens read and not yet given out, and what decides how to go on. -/
structure Layout where
  cursor : Cursor
  /-- The tokens that are read and not given out. -/
  queue : List Token := []
  /-- How many tokens are given out. -/
  given : Nat := 0
  /-- Whether the end of the text is read. -/
  isDone : Bool := false
  /-- The column of the innermost block collection; the top is left of all columns. -/
  indent : Int := -1
  /-- The columns of the block collections around it. -/
  indents : List Int := []
  /-- Whether a key may start here. -/
  allowsKey : Bool := true
  /-- Where a key could start, for each flow collection around, the innermost first, and at
  the end for the block around them. -/
  keyStarts : List (Option KeyStart) := [none]
  /-- More than the number of characters of the text. -/
  bound : Nat
  /-- What stops the text where its characters end, if it goes on behind them. -/
  stop : Option Fault := none
deriving Repr

namespace Layout

/-- Whether a flow collection is open. -/
def inFlow (l : Layout) : Bool :=
  l.keyStarts.length > 1

/-- Adds a token. -/
def add (l : Layout) (t : Token) : Layout :=
  { l with queue := l.queue ++ [t] }

/-- Adds a token that some characters stand for. -/
def take (l : Layout) (n : Nat) (t : Token) : Layout :=
  { l.add t with cursor := l.cursor.skip n }

/-- Adds a token that ends at a place. -/
def takeTo (l : Layout) (k : Cursor) (t : Token) : Layout :=
  { l.add t with cursor := k }

/-- Allows or forbids a key. -/
def allow (l : Layout) (allowsKey : Bool) : Layout :=
  { l with allowsKey := allowsKey }

/-- How far a key may be from its colon. -/
def keyReach : Nat := 1024

/-- Whether a key that started there can no longer end here. -/
def isStale (l : Layout) (s : KeyStart) : Bool :=
  s.line != l.cursor.line || l.cursor.index - s.index > keyReach

/-- Forgets the places where a key can no longer end. -/
def dropStale (l : Layout) : Except Fault Layout := do
  let starts ← l.keyStarts.mapM fun start =>
    match start with
    | some s =>
      if !l.isStale s then .ok (some s)
      else if s.isRequired then .error .malformed
      else .ok none
    | none => .ok none
  return { l with keyStarts := starts }

/-- Forgets where a key of the innermost collection could start. -/
def dropKeyStart (l : Layout) : Except Fault Layout :=
  match l.keyStarts with
  | some s :: starts =>
    if s.isRequired then .error .malformed else .ok { l with keyStarts := none :: starts }
  | _ => .ok l

/-- Remembers that a key could start here. -/
def markKeyStart (l : Layout) : Except Fault Layout := do
  if l.allowsKey then
    let k := l.cursor
    let start : KeyStart :=
      { before := l.given + l.queue.length
        isRequired := !l.inFlow && l.indent == Int.ofNat k.column
        index := k.index
        line := k.line
        column := k.column }
    let l ← l.dropKeyStart
    return { l with keyStarts := some start :: l.keyStarts.tail }
  else return l

/-- Closes the block collections whose column is right of a column. -/
def closeBlocks (l : Layout) (column : Int) : Layout :=
  if l.inFlow then l
  else
    let open_ := l.indent :: l.indents
    let closed := open_.takeWhile (column < ·)
    let left := open_.dropWhile (column < ·)
    { l with
      queue := l.queue ++ closed.map fun _ => Token.blockEnd
      indent := left.head?.getD (-1)
      indents := left.tail }

/-- Whether a block collection opens at a column. -/
def opensAt (l : Layout) (column : Nat) : Bool :=
  l.indent < Int.ofNat column

/-- Makes a column that of the innermost block collection. -/
def openAt (l : Layout) (column : Nat) : Layout :=
  { l with indent := Int.ofNat column, indents := l.indent :: l.indents }

/-- Opens a block collection here, unless one is open at this column or inside flow. -/
def openBlock (l : Layout) (t : Token) : Layout :=
  if !l.inFlow && l.opensAt l.cursor.column then (l.openAt l.cursor.column).add t else l

/-- Puts tokens in where `before` tokens come before them. -/
def splice (l : Layout) (before : Nat) (ts : List Token) : Layout :=
  let waiting := before - l.given
  { l with queue := l.queue.take waiting ++ ts ++ l.queue.drop waiting }

/-! ## Tokens of each kind -/

/-- A separator of documents, or the end of the text, closes all blocks. -/
def closeAll (l : Layout) : Except Fault Layout := do
  return (← (l.closeBlocks (-1)).dropKeyStart).allow false

/-- A flow collection opens. -/
def openFlow (l : Layout) (t : Token) : Except Fault Layout := do
  let l ← l.markKeyStart
  return { (l.take 1 t).allow true with keyStarts := none :: l.keyStarts }

/-- A flow collection closes. -/
def closeFlow (l : Layout) (t : Token) : Except Fault Layout := do
  let l ← l.dropKeyStart
  if l.inFlow then return { (l.take 1 t).allow false with keyStarts := l.keyStarts.tail }
  else throw .malformed

/-- A comma between items. -/
def readComma (l : Layout) : Except Fault Layout := do
  return (← (l.allow true).dropKeyStart).take 1 .comma

/-- The dash before an item. -/
def readItem (l : Layout) : Except Fault Layout := do
  if !l.inFlow && !l.allowsKey then throw .malformed
  else
    return (← ((l.openBlock .blockSequence).allow true).dropKeyStart).take 1 .item

/-- The question mark before a key. -/
def readKey (l : Layout) : Except Fault Layout := do
  if !l.inFlow && !l.allowsKey then throw .malformed
  else
    return (← ((l.openBlock .blockMapping).allow (!l.inFlow)).dropKeyStart).take 1 .key

/-- The colon after a key. Where a key could start, it did. -/
def readValue (l : Layout) : Except Fault Layout :=
  match l.keyStarts with
  | some s :: starts =>
    let l := { l with keyStarts := none :: starts }
    let opens := !l.inFlow && l.opensAt s.column
    let spliced := l.splice s.before (if opens then [.blockMapping, .key] else [.key])
    let l := if opens then spliced.openAt s.column else spliced
    .ok ((l.allow false).take 1 .value)
  | _ => do
    if !l.inFlow && !l.allowsKey then throw .malformed
    else
      return (← ((l.openBlock .blockMapping).allow (!l.inFlow)).dropKeyStart).take 1 .value

/-- A name after its indicator. Only some signs may follow it. -/
def readAnchor (l : Layout) (make : String → Token) : Except Fault Layout := do
  let l := (← l.markKeyStart).allow false
  let (name, k) := l.cursor.advance.run isNameChar
  let mayFollow := k.gapAfter 0 || k.sees ("?:,]\x7d%@\x60".toList.contains ·)
  if name.isEmpty || !mayFollow then throw .malformed
  else return l.takeTo k (make (String.ofList name))

/-- A tag. -/
def readTag (l : Layout) : Except Fault Layout := do
  let l := (← l.markKeyStart).allow false
  match tagText? l.cursor with
  | some (text, k) => return l.takeTo k (.tag text)
  | none => throw .malformed

/-- A block scalar. -/
def readBlock (l : Layout) (folded : Bool) : Except Fault Layout := do
  let l ← (l.allow true).dropKeyStart
  match blockText folded l.indent l.bound l.cursor.advance with
  | some (text, k) => return l.takeTo k (.scalar (String.ofList text) false)
  | none => throw .malformed

/-- A quoted scalar. -/
def readQuoted (l : Layout) (quote : Char) : Except Fault Layout := do
  let l := (← l.markKeyStart).allow false
  let (text, k) ← quotedText quote l.bound l.cursor.advance
  return l.takeTo k (.scalar (String.ofList text) false)

/-- A plain scalar. After one that crosses a line a key may start. -/
def readPlain (l : Layout) : Except Fault Layout := do
  let l ← l.markKeyStart
  let (text, k, crossed) := plainText l.inFlow (l.indent + 1) l.bound l.cursor
  return (l.takeTo k (.scalar (String.ofList text) true)).allow crossed

/-! ## Directives -/

/-- A number in a directive: ASCII digits, one at least. -/
def directiveNumber (k : Cursor) : Except Fault (Int × Cursor) :=
  let (digits, k) := k.run Char.isDigit
  if digits.isEmpty then .error .malformed
  else match Numeral.readInt digits with
    | .ok n => .ok (n, k)
    | .error e => .error (.numeral e)

/-- The version of the language: two numbers with a point between them. -/
def versionDirective (k : Cursor) : Except Fault (Directive × Cursor) := do
  let (major, k) ← directiveNumber (k.past (· == ' '))
  if k.head? != some '.' then throw .malformed
  let (_, k) ← directiveNumber k.advance
  if atSpace k then return (.version major, k) else throw .malformed

/-- A handle of tags, a space and what it stands for. -/
def handleDirective? (k : Cursor) : Option (Directive × Cursor) := do
  let (name, k) ← handle? (k.past (· == ' '))
  if k.head? != some ' ' then none
  else
    let (meaning, k) ← suffix? (k.past (· == ' '))
    if atSpace k then return (.handle name meaning, k) else none

/-- A directive after its name, and the place after it. One that is not known takes its line. -/
def directiveAfter (name : String) (k : Cursor) : Except Fault (Directive × Cursor) :=
  if name == "YAML" then versionDirective k
  else if name == "TAG" then
    match handleDirective? k with
    | some found => .ok found
    | none => .error .malformed
  else .ok (.other, k.past (!isBreak ·))

/-- A directive. Only a comment may follow it on its line. -/
def readDirective (l : Layout) : Except Fault Layout := do
  let l ← l.closeAll
  let (name, k) := l.cursor.advance.run isNameChar
  if name.isEmpty || !atSpace k then throw .malformed
  let (d, k) ← directiveAfter (String.ofList name) k
  let k := (k.past (· == ' ')).pastComment
  if k.atEnd then return l.takeTo k (.directive d)
  else match k.lineBreak? with
    | some (_, k) => return l.takeTo k (.directive d)
    | none => throw .malformed

/-! ## Reading -/

/-- Whether a plain scalar can start here. -/
def startsPlain (l : Layout) : Bool :=
  let k := l.cursor
  match k.head? with
  | none => false
  | some c =>
    !(isGap c || "-?:,[]\x7b\x7d#&*!|>'\"%@\x60".toList.contains c) ||
      (!k.gapAfter 1 && (c == '-' || (!l.inFlow && (c == '?' || c == ':'))))

/-- The place of the next token, past blanks, comments and line breaks. Outside flow a key may
start on a new line. -/
def toNext : (bound : Nat) → Layout → Layout
  | 0, l => l
  | bound + 1, l =>
    let k := (l.cursor.past (· == ' ')).pastComment
    match k.lineBreak? with
    | some (_, k) => toNext bound { l with cursor := k, allowsKey := l.allowsKey || !l.inFlow }
    | none => { l with cursor := k }

/-- Reads the token that a character starts. -/
def readToken (l : Layout) (c : Char) : Except Fault Layout :=
  let k := l.cursor
  let atMargin := k.column == 0
  if c == '%' && atMargin then l.readDirective
  else if atMargin && k.atMarker "---" then l.closeAll.map (·.take 3 .documentStart)
  else if atMargin && k.atMarker "..." then l.closeAll.map (·.take 3 .documentEnd)
  else if c == '[' then l.openFlow .flowSequence
  else if c == '\x7b' then l.openFlow .flowMapping
  else if c == ']' then l.closeFlow .flowSequenceEnd
  else if c == '\x7d' then l.closeFlow .flowMappingEnd
  else if c == ',' then l.readComma
  else if c == '-' && k.gapAfter 1 then l.readItem
  else if c == '?' && (l.inFlow || k.gapAfter 1) then l.readKey
  else if c == ':' && (l.inFlow || k.gapAfter 1) then l.readValue
  else if c == '*' then l.readAnchor .alias
  else if c == '&' then l.readAnchor .anchor
  else if c == '!' then l.readTag
  else if c == '|' && !l.inFlow then l.readBlock false
  else if c == '>' && !l.inFlow then l.readBlock true
  else if c == '\'' || c == '"' then l.readQuoted c
  else if l.startsPlain then l.readPlain
  else .error .malformed

/-- Fails where the characters of a text end and it goes on. -/
def checkStop (l : Layout) : Except Fault Unit :=
  match l.stop with
  | some fault => if l.cursor.atEnd then .error fault else .ok ()
  | none => .ok ()

/-- A fault of a text. One that ends inside quotes fails for what stops it, if it goes on. -/
def faultOf (l : Layout) (fault : Fault) : Fault :=
  if fault == .unclosed then l.stop.getD .malformed else fault

/-- Reads one more token, with the tokens that its column gives. -/
def fetch (l : Layout) : Except Fault Layout := do
  let l := l.toNext l.bound
  l.checkStop
  let l ← l.dropStale
  let l := l.closeBlocks (Int.ofNat l.cursor.column)
  match l.cursor.head? with
  | none =>
    let l ← l.closeAll
    return { l.add .textEnd with isDone := true, keyStarts := [none] }
  | some c =>
    match l.readToken c with
    | .error fault => .error (l.faultOf fault)
    | .ok l => do
      l.checkStop
      return l

/-- How many tokens come before the first place where a key could start. -/
def firstKeyStart? (l : Layout) : Option Nat :=
  ((l.keyStarts.filterMap id).map KeyStart.before).min?

/-- Reads until the next token can be given out. Each step reads a character. -/
def fill : (bound : Nat) → Layout → Except Fault Layout
  | 0, _ => .error .malformed
  | bound + 1, l => do
    if l.isDone then return l
    else if l.queue.isEmpty then fill bound (← l.fetch)
    else
      let l ← l.dropStale
      if l.firstKeyStart? == some l.given then fill bound (← l.fetch) else return l

/-- The layout before a text. A byte order mark at its start does not count. -/
def start (s : List Char) (stop : Option Fault) : Layout :=
  { cursor := { rest := if s.head? == some '\ufeff' then s.tail else s }
    bound := s.length + 2
    stop := stop }

end Layout
end CallAtlas.Yaml

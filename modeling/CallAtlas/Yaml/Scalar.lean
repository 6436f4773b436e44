import CallAtlas.Yaml.Cursor
import CallAtlas.Yaml.Fault

/-!
# Texts of scalars

A scalar is written plain, in quotes or as a block. Line breaks inside are folded:
one break is a space, and of several the first does not count. A block keeps its
breaks or folds them, as its header says.

Every reader takes a bound on its steps. Each step reads a character, so the length
of the text is always enough.
-/

namespace CallAtlas.Yaml

/-- A line break and the breaks after it, folded. -/
def fold (first further : List Char) : List Char :=
  if first != ['\n'] then first ++ further
  else if further.isEmpty then [' '] else further

/-! ## Quoted scalars -/

/-- The line breaks that follow one inside quotes. No separator of documents may follow. -/
def quotedBreaks : (bound : Nat) → Cursor → Except Fault (List Char × Cursor)
  | 0, _ => .error .malformed
  | bound + 1, k =>
    if k.atSeparator then .error .malformed
    else
      let k := k.past isInset
      match k.lineBreak? with
      | none => .ok ([], k)
      | some (found, k) => do
        let (more, k) ← quotedBreaks bound k
        return (found ++ more, k)

/-- A gap inside quotes: blanks stay, line breaks are folded. -/
def quotedGap (bound : Nat) (k : Cursor) : Except Fault (List Char × Cursor) :=
  let (blanks, k) := k.run isInset
  match k.lineBreak? with
  | none => .ok (blanks, k)
  | some (first, k) => do
    let (further, k) ← quotedBreaks bound k
    return (fold first further, k)

/-- The characters that stand after a backslash for others. -/
def escapeTable : List (Char × Char) :=
  [('0', '\x00'), ('a', '\x07'), ('b', '\x08'), ('t', '\t'), ('\t', '\t'), ('n', '\n'),
    ('v', '\x0b'), ('f', '\x0c'), ('r', '\r'), ('e', '\x1b'), (' ', ' '), ('"', '"'),
    ('\\', '\\'), ('/', '/'), ('N', '\x85'), ('_', '\xa0'), ('L', '\u2028'), ('P', '\u2029')]

/-- How many hexadecimal digits follow a letter after a backslash. -/
def escapeWidth : Char → Option Nat
  | 'x' => some 2
  | 'u' => some 4
  | 'U' => some 8
  | _ => none

/-- The number that exactly so many hexadecimal digits at the start of a text write. -/
def hexNumber? (width : Nat) (s : List Char) : Option Nat := do
  let values ← (s.take width).mapM Numeral.hexValue?
  if values.length = width then return Numeral.valueIn 16 values else none

/-- The first half of a character that is written in two halves. -/
def isHighHalf (n : Nat) : Bool :=
  0xd800 ≤ n && n < 0xdc00

/-- The second half of a character that is written in two halves. -/
def isLowHalf (n : Nat) : Bool :=
  0xdc00 ≤ n && n < 0xe000

/-- The number of the second half, escaped as such at the start of a text. -/
def lowHalf? (s : List Char) : Option Nat :=
  match s with
  | '\\' :: 'u' :: rest => (hexNumber? 4 rest).filter isLowHalf
  | _ => none

/-- The character with a number and whether the escape of its second half belongs to it. A half
that stands alone is no character and is shown as the sign for one. -/
def escapedChar (n : Nat) (after : List Char) : Except Fault (Char × Bool) :=
  if n ≥ 0x80000000 then .error .oversizedChar
  else if n ≥ 0x110000 then .error .noChar
  else if n.isValidChar then .ok (Char.ofNat n, false)
  else match lowHalf? after with
    | some low =>
      if isHighHalf n then
        .ok (Char.ofNat (0x10000 + (n - 0xd800) * 0x400 + (low - 0xdc00)), true)
      else .ok ('\ufffd', false)
    | none => .ok ('\ufffd', false)

/-- What an escape stands for, read after its backslash. -/
def escape (bound : Nat) (k : Cursor) : Except Fault (List Char × Cursor) :=
  match k.head? with
  | none => .error .unclosed
  | some c =>
    match escapeTable.lookup c, escapeWidth c, k.lineBreak? with
    | some d, _, _ => .ok ([d], k.advance)
    | none, some width, _ =>
      match hexNumber? width k.advance.rest with
      | none => .error .malformed
      | some n => do
        let k := k.skip (width + 1)
        let (d, inHalves) ← escapedChar n k.rest
        return ([d], if inHalves then k.skip 6 else k)
    | none, none, some (_, k) => quotedBreaks bound k
    | none, none, none => .error .malformed

/-- Whether a quoted text ends here. A single quote that is doubled stands for itself. -/
def closesQuote (quote : Char) (k : Cursor) : Bool :=
  k.head? == some quote && !(quote == '\'' && k.advance.head? == some quote)

/-- A piece of a quoted text that does not end here. Escapes are for double quotes. -/
def quotedPiece (quote : Char) (bound : Nat) (k : Cursor) : Except Fault (List Char × Cursor) :=
  match k.head? with
  | none => .error .unclosed
  | some c =>
    if c == quote then .ok ([c], k.skip 2)
    else if isGap c then quotedGap bound k
    else if quote == '"' && c == '\\' then escape bound k.advance
    else .ok ([c], k.advance)

/-- The text up to the closing quote, read after the opening one, and the place after it. -/
def quotedText (quote : Char) : (bound : Nat) → Cursor → Except Fault (List Char × Cursor)
  | 0, _ => .error .malformed
  | bound + 1, k =>
    if closesQuote quote k then .ok ([], k.advance)
    else do
      let (piece, k) ← quotedPiece quote bound k
      let (more, k) ← quotedText quote bound k
      return (piece ++ more, k)

/-! ## Plain scalars -/

/-- The characters that structure flow collections. -/
def isFlowSign (c : Char) : Bool :=
  c == ',' || c == '[' || c == ']' || c == '\x7b' || c == '\x7d'

/-- Whether a colon before some text ends a key. -/
def endsKey (inFlow : Bool) (after : List Char) : Bool :=
  after.head?.all fun c => isGap c || (inFlow && isFlowSign c)

/-- A word of a plain scalar: up to a gap, the colon after a key, or a sign of the flow
collection around it. -/
def plainWord (inFlow : Bool) : List Char → List Char
  | [] => []
  | c :: s =>
    if isGap c || (c == ':' && endsKey inFlow s) || (inFlow && (isFlowSign c || c == '?')) then []
    else c :: plainWord inFlow s

/-- The line breaks that follow one in a plain scalar; none if documents are separated
there. -/
def plainBreaks : (bound : Nat) → Cursor → Option (List Char) × Cursor
  | 0, k => (none, k)
  | bound + 1, k =>
    let k := k.past (· == ' ')
    match k.lineBreak? with
    | none => (some [], k)
    | some (found, k) =>
      if k.atSeparator then (none, k)
      else
        let (more, k) := plainBreaks bound k
        (more.map (found ++ ·), k)

/-- A gap in a plain scalar and whether it crosses a line. The scalar ends where the gap is
empty. -/
def plainGap (bound : Nat) (k : Cursor) : List Char × Cursor × Bool :=
  let (blanks, k) := k.run (· == ' ')
  match k.lineBreak? with
  | none => (blanks, k, false)
  | some (first, k) =>
    if k.atSeparator then ([], k, true)
    else match plainBreaks bound k with
      | (some further, k) => (fold first further, k, true)
      | (none, k) => ([], k, true)

/-- What follows a word of a plain scalar: the text, the place after it, and whether the gap
before that place crosses a line. Lines that are indented less than `indent` do not belong to
it. -/
def plainMore (inFlow : Bool) (indent : Int) : (bound : Nat) → Cursor → List Char × Cursor × Bool
  | 0, k => ([], k, false)
  | bound + 1, k =>
    let (gap, k, crossed) := plainGap bound k
    let word := plainWord inFlow k.rest
    if gap.isEmpty || k.head? == some '#' || (!inFlow && Int.ofNat k.column < indent) ||
        word.isEmpty then ([], k, crossed)
    else
      let (more, k, crossed) := plainMore inFlow indent bound (k.skip word.length)
      (gap ++ word ++ more, k, crossed)

/-- A plain scalar. -/
def plainText (inFlow : Bool) (indent : Int) (bound : Nat) (k : Cursor) :
    List Char × Cursor × Bool :=
  let word := plainWord inFlow k.rest
  let (more, k, crossed) := plainMore inFlow indent bound (k.skip word.length)
  (word ++ more, k, crossed)

/-! ## Block scalars -/

/-- What happens to the line breaks at the end of a block. -/
inductive Chomping
  | clip
  | strip
  | keep
deriving Repr, DecidableEq

/-- The header of a block: its chomping and its indentation, if it gives one. -/
structure BlockHeader where
  chomping : Chomping := .clip
  indentation : Option Nat := none
deriving Repr

/-- A sign of chomping. -/
def chompingSign? : Option Char → Option Chomping
  | some '+' => some .keep
  | some '-' => some .strip
  | _ => none

/-- An indentation sign: a digit, which must not be zero. -/
def indentationSign? : Option Char → Option Nat
  | some c => if '0' ≤ c && c ≤ '9' then some (c.toNat - '0'.toNat) else none
  | none => none

/-- The header of a block, read after its indicator. The two signs may come in either order;
only a comment may follow. -/
def blockHeader (k : Cursor) : Option (BlockHeader × Cursor) := do
  let chomping := chompingSign? k.head?
  let k := if chomping.isSome then k.advance else k
  let indentation := indentationSign? k.head?
  let k := if indentation.isSome then k.advance else k
  let later := if chomping.isNone && indentation.isSome then chompingSign? k.head? else none
  let k := if later.isSome then k.advance else k
  let onlyGap := k.atEnd || k.sees fun c => c == ' ' || isBreak c
  let k := (k.past (· == ' ')).pastComment
  if indentation == some 0 || !onlyGap then none
  else if k.atEnd then return (⟨(chomping.or later).getD .clip, indentation⟩, k)
  else
    let (_, k) ← k.lineBreak?
    return (⟨(chomping.or later).getD .clip, indentation⟩, k)

/-- The empty lines at the start of a block that gives no indentation, and the largest
indentation seen in them. -/
def blockStart : (bound : Nat) → Nat → Cursor → List Char × Nat × Cursor
  | 0, widest, k => ([], widest, k)
  | bound + 1, widest, k =>
    let k := k.past (· == ' ')
    let widest := max widest k.column
    match k.lineBreak? with
    | none => ([], widest, k)
    | some (found, k) =>
      let (more, widest, k) := blockStart bound widest k
      (found ++ more, widest, k)

/-- The place after at most as many spaces as an indentation leaves. -/
def intoBlock (indent : Nat) (k : Cursor) : Cursor :=
  k.skip (min (k.rest.takeWhile (· == ' ')).length (indent - k.column))

/-- The empty lines inside a block. -/
def blockBreaks (indent : Nat) : (bound : Nat) → Cursor → List Char × Cursor
  | 0, k => ([], k)
  | bound + 1, k =>
    let k := intoBlock indent k
    match k.lineBreak? with
    | none => ([], k)
    | some (found, k) =>
      let (more, k) := blockBreaks indent bound k
      (found ++ more, k)

/-- What stands between two lines of a block. Folding joins lines that do not start with a
blank. -/
def blockJoint (folded : Bool) (first further : List Char) (inset : Bool) : List Char :=
  if folded && first == ['\n'] && !inset then
    if further.isEmpty then [' '] else further
  else first ++ further

/-- The lines of a block: the text, the last line break and the empty lines after it. -/
def blockLines (folded : Bool) (indent : Nat) :
    (bound : Nat) → Cursor → List Char × List Char × List Char × Cursor
  | 0, k => ([], [], [], k)
  | bound + 1, k =>
    let startsInset := k.sees isInset
    let (line, k) := k.run (!isBreak ·)
    let (first, k) := (k.lineBreak?).getD ([], k)
    let (further, k) := blockBreaks indent bound k
    if k.column == indent && !k.atEnd then
      let joint := blockJoint folded first further (startsInset || k.sees isInset)
      let (more, last, empty, k) := blockLines folded indent bound k
      (line ++ joint ++ more, last, empty, k)
    else (line, first, further, k)

/-- A block scalar, read after its indicator, inside a collection with an indentation. -/
def blockText (folded : Bool) (indent : Int) (bound : Nat) (k : Cursor) :
    Option (List Char × Cursor) := do
  let (header, k) ← blockHeader k
  let least := max 1 (indent + 1).toNat
  let (empty, indent, k) := match header.indentation with
    | none =>
      let (empty, widest, k) := blockStart bound 0 k
      (empty, max least widest, k)
    | some n =>
      let indent := least + n - 1
      let (empty, k) := blockBreaks indent bound k
      (empty, indent, k)
  let (text, last, further, k) :=
    if k.column == indent && !k.atEnd then
      let (text, last, further, k) := blockLines folded indent bound k
      (empty ++ text, last, further, k)
    else ([], [], empty, k)
  return match header.chomping with
    | .strip => (text, k)
    | .clip => (text ++ last, k)
    | .keep => (text ++ last ++ further, k)

end CallAtlas.Yaml

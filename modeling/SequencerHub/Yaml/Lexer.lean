import SequencerHub.Yaml.ScalarText

/-! From characters to tokens. A key that is not announced by a question mark is known as one only by the colon behind
it, so a place where a key may start is remembered, and the tokens that open the mapping are put there when the colon
comes. -/
namespace SequencerHub.Yaml

/-- A place where an unannounced key may have started. -/
structure PossibleKey where
  position : Nat
  mark : Mark
  /-- Nothing but a key can start here. -/
  required : Bool

structure Lexer where
  cursor : Cursor
  tokens : Array Placed := #[]
  /-- Indentation of the innermost block, if any, and of the blocks around it. -/
  indent : Option Nat := none
  outer : List (Option Nat) := []
  keyAllowed : Bool := true
  /-- The possible key of this flow level and of those around it. -/
  possible : Option PossibleKey := none
  outerPossible : List (Option PossibleKey) := []
  finished : Bool := false

namespace Lexer

abbrev Step := Except Fault Lexer

def inFlow (l : Lexer) : Bool := !l.outerPossible.isEmpty

def fault (l : Lexer) (p : Problem) : Fault := l.cursor.fault p

def push (l : Lexer) (t : Token) (m : Mark) : Lexer := { l with tokens := l.tokens.push (t, m) }

def take (l : Lexer) (n : Nat) (t : Token) : Lexer :=
  { l with tokens := l.tokens.push (t, l.cursor.mark), cursor := l.cursor.skipMany n }

def allowKey (l : Lexer) (allowed : Bool) : Lexer := { l with keyAllowed := allowed }

/-- A key has to be on one line and not too long. -/
def isStale (l : Lexer) (k : PossibleKey) : Bool :=
  k.mark.line < l.cursor.mark.line || k.mark.index + 1024 < l.cursor.mark.index

def dropStale (l : Lexer) : Step :=
  let stale (k : Option PossibleKey) : Bool := k.any l.isStale
  let required (k : Option PossibleKey) : Bool := k.any fun k => l.isStale k && k.required
  if (l.possible :: l.outerPossible).any required then .error (l.fault .malformed)
  else .ok { l with
    possible := if stale l.possible then none else l.possible
    outerPossible := l.outerPossible.map fun k => if stale k then none else k }

def dropKey (l : Lexer) : Step :=
  if l.possible.any (·.required) then .error (l.fault .malformed)
  else .ok { l with possible := none }

def saveKey (l : Lexer) : Step :=
  if l.keyAllowed then do
    let l ← l.dropKey
    let required := !l.inFlow && l.indent == some l.cursor.column
    .ok { l with possible := some ⟨l.tokens.size, l.cursor.mark, required⟩ }
  else .ok l

def closeBlocks (column : Option Nat) : Nat → Lexer → Lexer
  | 0, l => l
  | fuel + 1, l =>
    if l.inFlow then l
    else
      match l.indent with
      | none => l
      | some n =>
        if column.any (n ≤ ·) then l
        else
          closeBlocks column fuel { l.push .blockEnd l.cursor.mark with
            indent := l.outer.head?.getD none, outer := l.outer.tail }

def closeTo (column : Option Nat) (l : Lexer) : Lexer := closeBlocks column (l.outer.length + 1) l

/-- Opens a block at a column, if it is deeper than the current one; its start token is put at the
given position. -/
def openBlock (l : Lexer) (column : Nat) (position : Nat) (t : Token) (m : Mark) : Lexer :=
  if l.inFlow || l.indent.any (column ≤ ·) then l
  else { l with
    indent := some column
    outer := l.indent :: l.outer
    tokens := l.tokens.insertIdxIfInBounds position (t, m) }

def openBlockHere (l : Lexer) (t : Token) : Lexer :=
  l.openBlock l.cursor.column l.tokens.size t l.cursor.mark

def skipToToken : Nat → Lexer → Lexer
  | 0, l => l
  | fuel + 1, l =>
    let c := if l.cursor.mark.index = 0 ∧ l.cursor.startsWith '\ufeff' then l.cursor.skip else l.cursor
    let tabs := l.inFlow || !l.keyAllowed
    let c := Cursor.skipWhile (fun ch => ch == ' ' || (tabs && ch == '\t')) c.rest.length c
    let c := if c.startsWith '#' then c.skipToBreak else c
    if c.isBreakAt 0 then
      let l := { l with cursor := c.skipLine }
      skipToToken fuel (if l.inFlow then l else l.allowKey true)
    else { l with cursor := c }

def endStream (l : Lexer) : Step := do
  let l := l.closeTo none
  let l ← l.dropKey
  .ok { l.push .streamEnd l.cursor.mark with keyAllowed := false, finished := true }

def documentMarker (l : Lexer) (t : Token) : Step := do
  let l ← (l.closeTo none).dropKey
  .ok ((l.allowKey false).take 3 t)

def directive (l : Lexer) : Step := do
  let l ← (l.closeTo none).dropKey
  let m := l.cursor.mark
  let name := l.cursor.rest.tail.takeWhile fun ch => ch.isAlphanum || ch == '-' || ch == '_'
  if name != "YAML".toList && name != "TAG".toList then .error (l.fault .malformed)
  else
    let l := (l.allowKey false).push .directive m
    .ok { l with cursor := l.cursor.skipToBreak.skipLine }

def openFlow (l : Lexer) (t : Token) : Step := do
  let l ← l.saveKey
  .ok (({ l with outerPossible := l.possible :: l.outerPossible, possible := none }.allowKey true).take 1 t)

def closeFlow (l : Lexer) (t : Token) : Step := do
  let l ← l.dropKey
  let l := match l.outerPossible with
    | k :: more => { l with possible := k, outerPossible := more }
    | [] => l
  .ok ((l.allowKey false).take 1 t)

def flowEntry (l : Lexer) : Step := do
  let l ← l.dropKey
  .ok ((l.allowKey true).take 1 .flowEntry)

def blockEntry (l : Lexer) : Step := do
  if !l.inFlow && !l.keyAllowed then .error (l.fault .malformed)
  else
    let l ← (l.openBlockHere .blockSequenceStart).dropKey
    .ok ((l.allowKey true).take 1 .blockEntry)

def announcedKey (l : Lexer) : Step := do
  if !l.inFlow && !l.keyAllowed then .error (l.fault .malformed)
  else
    let l ← (l.openBlockHere .blockMappingStart).dropKey
    .ok ((l.allowKey !l.inFlow).take 1 .key)

def valueMark (l : Lexer) : Step :=
  match l.possible with
  | some k =>
    let l := { l with tokens := l.tokens.insertIdxIfInBounds k.position (.key, k.mark) }
    let l := l.openBlock k.mark.column k.position .blockMappingStart k.mark
    .ok (({ l with possible := none }.allowKey false).take 1 .value)
  | none =>
    if !l.inFlow && !l.keyAllowed then .error (l.fault .malformed)
    else
      let l := l.openBlockHere .blockMappingStart
      .ok ((l.allowKey !l.inFlow).take 1 .value)

def isNameChar (c : Char) : Bool := c.isAlphanum || c == '_' || c == '-'

def named (l : Lexer) (t : List Char → Token) : Step := do
  let l ← l.saveKey
  let name := l.cursor.rest.tail.takeWhile isNameChar
  let after := l.cursor.skipMany (name.length + 1)
  let ends := after.isGapAt 0 ||
    after.peek?.any fun c => "?:,]\x7d%@`".toList.contains c
  if name.isEmpty || !ends then .error (after.fault .malformed)
  else .ok { (l.allowKey false).push (t name) l.cursor.mark with cursor := after }

def isTagChar (verbatim : Bool) (c : Char) : Bool :=
  isNameChar c || ";/?:@&=+$.!~*\x27()%".toList.contains c ||
    (verbatim && (c == ',' || c == '[' || c == ']'))

/-- A tag; its shorthand stays unexpanded, save that `!!` stands for the core tags. -/
def tag (l : Lexer) : Step := do
  let l ← l.saveKey
  let verbatim := l.cursor.peekAt? 1 == some '<'
  let name := (l.cursor.rest.drop (if verbatim then 2 else 1)).takeWhile (isTagChar verbatim)
  let after := l.cursor.skipMany (name.length + if verbatim then 2 else 1)
  if verbatim && !(after.startsWith '>' && !name.isEmpty) then .error (after.fault .malformed)
  else
    let after := if verbatim then after.skip else after
    if !(after.isGapAt 0 || (l.inFlow && after.startsWith ',')) then .error (after.fault .malformed)
    else
      let name := if verbatim then name else '!' :: name
      .ok { (l.allowKey false).push (.tag name) l.cursor.mark with cursor := after }

def blockScalar (l : Lexer) (literal : Bool) : Step := do
  let l ← l.dropKey
  let (content, after) ← scanBlock literal l.indent l.cursor.skip
  .ok { (l.allowKey true).push (.scalar content .quoted) l.cursor.mark with cursor := after }

def quotedScalar (l : Lexer) (double : Bool) : Step := do
  let l ← l.saveKey
  let (content, after) ← scanQuoted double (l.cursor.rest.length + 1) [] {} l.cursor.skip
  .ok { (l.allowKey false).push (.scalar content .quoted) l.cursor.mark with cursor := after }

def plainScalar (l : Lexer) : Step := do
  let l ← l.saveKey
  let indent := (l.indent.map (· + 1)).getD 0
  let ((content, behindBreak), after) ←
    scanPlain l.inFlow indent (l.cursor.rest.length + 1) [] {} l.cursor
  .ok { (l.allowKey behindBreak).push (.scalar content .plain) l.cursor.mark with cursor := after }

def startsPlain (l : Lexer) (ch : Char) : Bool :=
  let c := l.cursor
  if ch == '-' then !c.isBlankAt 1
  else if ch == '?' || ch == ':' then !l.inFlow && !c.isGapAt 1
  else !isFlowIndicator ch && !"#&*!|>\x27\"%@`".toList.contains ch && !isBlank ch

def next (l : Lexer) : Step := do
  let l ← (skipToToken (l.cursor.rest.length + 1) l).dropStale
  let l := l.closeTo (some l.cursor.column)
  let c := l.cursor
  match c.peek? with
  | none => l.endStream
  | some ch =>
    if c.column = 0 ∧ ch = '%' then l.directive
    else if c.atDocumentMarker then
      l.documentMarker (if ch = '-' then .documentStart else .documentEnd)
    else if ch = '[' then l.openFlow .flowSequenceStart
    else if ch = '\x7b' then l.openFlow .flowMappingStart
    else if ch = ']' then l.closeFlow .flowSequenceEnd
    else if ch = '\x7d' then l.closeFlow .flowMappingEnd
    else if ch = ',' then l.flowEntry
    else if ch = '-' ∧ c.isGapAt 1 then l.blockEntry
    else if ch = '?' ∧ (l.inFlow ∨ c.isGapAt 1) then l.announcedKey
    else if ch = ':' ∧ (l.inFlow ∨ c.isGapAt 1) then l.valueMark
    else if ch = '*' then l.named .alias
    else if ch = '&' then l.named .anchor
    else if ch = '!' then l.tag
    else if ch = '|' ∧ !l.inFlow then l.blockScalar true
    else if ch = '>' ∧ !l.inFlow then l.blockScalar false
    else if ch = '\x27' then l.quotedScalar false
    else if ch = '"' then l.quotedScalar true
    else if l.startsPlain ch then l.plainScalar
    else .error (l.fault .strayCharacter)

def run : Nat → Lexer → Array Placed × Option Fault
  | 0, l => (l.tokens, some (l.fault .malformed))
  | fuel + 1, l =>
    if l.finished then (l.tokens, none)
    else
      match l.next with
      | .ok l => run fuel l
      | .error f => (l.tokens, some f)

end Lexer

def isAllowed (c : Char) : Bool :=
  c == '\t' || c == '\n' || c == '\r' || ('\x20' ≤ c && c ≤ '\x7e') || c == '\x85' ||
    ('\xa0' ≤ c && c.toNat ≤ 0xfffd) || 0x10000 ≤ c.toNat

/-- The tokens of a text, as far as it has tokens, and what stopped the reading. -/
def tokens (cs : List Char) : List Placed × Option Fault :=
  match cs.findIdx? (fun c => !isAllowed c) with
  | some i => ([], some ⟨.controlCharacter, ⟨0, i, i⟩⟩)
  | none =>
    let (ts, f) := Lexer.run (2 * cs.length + 2) { cursor := .ofText cs }
    (ts.toList, f)

end SequencerHub.Yaml

import SequencerHub.Yaml.Cursor

/-! The texts of scalars: plain, quoted and in blocks. Line breaks inside plain and quoted scalars are folded: a single
one becomes a blank, of several the first is dropped. -/
namespace SequencerHub.Yaml

structure Gap where
  blanks : List Char := []
  first : Option (List Char) := none
  later : List Char := []

namespace Gap

def text (g : Gap) : List Char :=
  match g.first with
  | none => g.blanks
  | some first =>
    if first = ['\n'] then (if g.later.isEmpty then [' '] else g.later) else first ++ g.later

/-- Takes one more blank; behind a break blanks do not count. -/
def addBlank (g : Gap) (c : Char) : Gap :=
  if g.first.isSome then g else { g with blanks := g.blanks ++ [c] }

def addBreak (g : Gap) (b : List Char) : Gap :=
  match g.first with
  | none => { blanks := [], first := some b, later := [] }
  | some _ => { g with later := g.later ++ b }

end Gap

/-- Passes over blanks and breaks. In a plain scalar a tab must not stand in for indentation below
`indent`. -/
def scanGap (indent : Option Nat) : Nat → Gap → Cursor → Except Fault (Gap × Cursor)
  | 0, g, c => .ok (g, c)
  | fuel + 1, g, c =>
    match c.peek? with
    | some ch =>
      if isBlank ch then
        if g.first.isSome && ch == '\t' && indent.any (c.column < ·) then .error (c.fault .malformed)
        else scanGap indent fuel (g.addBlank ch) c.skip
      else if isBreak ch then scanGap indent fuel (g.addBreak c.breakText) c.skipLine
      else .ok (g, c)
    | none => .ok (g, c)

def isFlowIndicator (c : Char) : Bool :=
  c == ',' || c == '[' || c == ']' || c == '\x7b' || c == '\x7d'

def endsPlain (inFlow : Bool) (c : Cursor) : Bool :=
  match c.peek? with
  | none => true
  | some ch =>
    isBlank ch || isBreak ch || (ch == ':' && c.isGapAt 1) || (inFlow && isFlowIndicator ch)

def scanWord (inFlow : Bool) : Nat → List Char → Cursor → Except Fault (List Char × Cursor)
  | 0, acc, c => .ok (acc, c)
  | fuel + 1, acc, c =>
    if inFlow && c.startsWith ':' && (c.peekAt? 1).any (fun d => isFlowIndicator d || d == '?') then
      .error (c.fault .malformed)
    else if endsPlain inFlow c then .ok (acc, c)
    else scanWord inFlow fuel (acc ++ (c.peek?.map fun ch => [ch]).getD []) c.skip

/-- Words and the gaps between them. Gives also whether the scalar ended behind a line break. -/
def scanPlain (inFlow : Bool) (indent : Nat) : Nat → List Char → Gap → Cursor →
    Except Fault ((List Char × Bool) × Cursor)
  | 0, acc, _, c => .ok ((acc, false), c)
  | fuel + 1, acc, gap, c => do
    if c.atDocumentMarker || c.startsWith '#' then .ok ((acc, gap.first.isSome), c)
    else
      let (word, c') ← scanWord inFlow (c.rest.length + 1) [] c
      if word.isEmpty then .ok ((acc, gap.first.isSome), c)
      else
        let acc := acc ++ gap.text ++ word
        if c'.peek?.any (fun ch => isBlank ch || isBreak ch) then
          let (gap, c') ← scanGap (some indent) (c'.rest.length + 1) {} c'
          if !inFlow && c'.column < indent then .ok ((acc, gap.first.isSome), c')
          else scanPlain inFlow indent fuel acc gap c'
        else .ok ((acc, false), c')

def hexValue? (c : Char) : Option Nat :=
  if '0' ≤ c ∧ c ≤ '9' then some (c.toNat - 48)
  else if 'a' ≤ c ∧ c ≤ 'f' then some (c.toNat - 87)
  else if 'A' ≤ c ∧ c ≤ 'F' then some (c.toNat - 55)
  else none

def scanHex : Nat → Nat → Cursor → Except Fault (Nat × Cursor)
  | 0, n, c => .ok (n, c)
  | digits + 1, n, c =>
    match c.peek?.bind hexValue? with
    | some d => scanHex digits (16 * n + d) c.skip
    | none => .error (c.fault .malformed)

def unescape? (c : Char) : Option Char :=
  if c = '0' then some '\x00'
  else if c = 'a' then some '\x07'
  else if c = 'b' then some '\x08'
  else if c = 't' ∨ c = '\t' then some '\t'
  else if c = 'n' then some '\n'
  else if c = 'v' then some '\x0b'
  else if c = 'f' then some '\x0c'
  else if c = 'r' then some '\r'
  else if c = 'e' then some '\x1b'
  else if c = ' ' ∨ c = '"' ∨ c = '/' ∨ c = '\\' then some c
  else if c = 'N' then some '\x85'
  else if c = '_' then some '\xa0'
  else if c = 'L' then some '\u2028'
  else if c = 'P' then some '\u2029'
  else none

def escapeDigits? (c : Char) : Option Nat :=
  if c = 'x' then some 2 else if c = 'u' then some 4 else if c = 'U' then some 8 else none

def scanEscape (c : Cursor) : Except Fault (Char × Cursor) :=
  match c.peekAt? 1 with
  | none => .error (c.fault .malformed)
  | some letter =>
    match unescape? letter, escapeDigits? letter with
    | some ch, _ => .ok (ch, c.skip.skip)
    | none, some digits => do
      let (n, c') ← scanHex digits 0 c.skip.skip
      if (0xD800 ≤ n ∧ n ≤ 0xDFFF) ∨ 0x10FFFF < n then .error (c.fault .malformed)
      else .ok (Char.ofNat n, c')
    | none, none => .error (c.fault .malformed)

/-- The characters of a quoted scalar up to the next gap or its closing quote; `true` when a line
break was escaped. -/
def scanQuotedWord (double : Bool) : Nat → List Char → Cursor → Except Fault ((List Char × Bool) × Cursor)
  | 0, acc, c => .ok ((acc, false), c)
  | fuel + 1, acc, c =>
    match c.peek? with
    | none => .ok ((acc, false), c)
    | some ch =>
      if isBlank ch || isBreak ch then .ok ((acc, false), c)
      else if !double && ch == '\x27' && c.peekAt? 1 == some '\x27' then
        scanQuotedWord double fuel (acc ++ ['\x27']) c.skip.skip
      else if ch == (if double then '"' else '\x27') then .ok ((acc, false), c)
      else if double && ch == '\\' && c.isBreakAt 1 then .ok ((acc, true), c.skip.skipLine)
      else if double && ch == '\\' then do
        let (d, c) ← scanEscape c
        scanQuotedWord double fuel (acc ++ [d]) c
      else scanQuotedWord double fuel (acc ++ [ch]) c.skip

def scanQuoted (double : Bool) : Nat → List Char → Gap → Cursor → Except Fault (List Char × Cursor)
  | 0, _, _, c => .error (c.fault .malformed)
  | fuel + 1, acc, gap, c => do
    if c.atDocumentMarker || c.atEnd then .error (c.fault .malformed)
    else
      let ((word, joined), c) ← scanQuotedWord double (c.rest.length + 1) [] c
      let acc := acc ++ gap.text ++ word
      if c.startsWith (if double then '"' else '\x27') then .ok (acc, c.skip)
      else
        -- an escaped break leaves nothing behind, and the breaks after it stand for themselves
        let before : Gap := if joined then { first := some [], later := [] } else {}
        let (gap, c) ← scanGap none (c.rest.length + 1) before c
        scanQuoted double fuel acc gap c

inductive Chomp
  | strip
  | clip
  | keep
  deriving DecidableEq

/-- Empty lines before the next line of a block scalar. Without a known indentation the deepest blank
line sets it. -/
def scanEmptyLines (indent : Option Nat) : Nat → List Char → Nat → Cursor →
    Except Fault ((List Char × Nat) × Cursor)
  | 0, acc, deepest, c => .ok ((acc, deepest), c)
  | fuel + 1, acc, deepest, c =>
    let c := Cursor.skipWhile (· == ' ')
      (match indent with
        | some n => n - c.column
        | none => c.rest.length) c
    let deepest := max deepest c.column
    if c.startsWith '\t' && (indent.all (c.column < ·)) then .error (c.fault .malformed)
    else if c.peek?.any isBreak then
      scanEmptyLines indent fuel (acc ++ c.breakText) deepest c.skipLine
    else .ok ((acc, deepest), c)

/-- The lines of a block scalar. `gap` holds the break before the current line and the empty
lines behind it. -/
def scanBlockLines (literal : Bool) (indent : Nat) : Nat → List Char → List Char → List Char → Bool →
    Cursor → Except Fault ((List Char × List Char × List Char) × Cursor)
  | 0, acc, lead, empties, _, c => .ok ((acc, lead, empties), c)
  | fuel + 1, acc, lead, empties, blankBefore, c =>
    if c.column != indent || c.atEnd then .ok ((acc, lead, empties), c)
    else do
      let blankHere := c.isBlankAt 0
      let joint :=
        if !literal && lead == ['\n'] && !blankBefore && !blankHere then
          (if empties.isEmpty then [' '] else [])
        else lead
      let lineEnd := c.skipToBreak
      let line := c.rest.take (c.rest.length - lineEnd.rest.length)
      let next := lineEnd.skipLine
      let ((later, _), next) ← scanEmptyLines (some indent) (next.rest.length + 1) [] 0 next
      scanBlockLines literal indent fuel (acc ++ joint ++ empties ++ line) lineEnd.breakText later
        blankHere next

/-- Chomping and indentation signs behind the indicator, in either order. -/
def scanBlockHeader (c : Cursor) : Except Fault ((Chomp × Option Nat) × Cursor) :=
  let chomp? (c : Cursor) : Option Chomp :=
    if c.startsWith '+' then some .keep else if c.startsWith '-' then some .strip else none
  let digit? (c : Cursor) : Option Nat :=
    match c.peek? with
    | some ch => if ch.isDigit then some (ch.toNat - 48) else none
    | none => none
  let finish (chomp : Option Chomp) (indent : Option Nat) (c : Cursor) :
      Except Fault ((Chomp × Option Nat) × Cursor) :=
    if indent = some 0 then .error (c.fault .malformed) else .ok ((chomp.getD .clip, indent), c)
  match chomp? c, digit? c with
  | some h, _ =>
    match digit? c.skip with
    | some n => finish (some h) (some n) c.skip.skip
    | none => finish (some h) none c.skip
  | none, some n =>
    match chomp? c.skip with
    | some h => finish (some h) (some n) c.skip.skip
    | none => finish none (some n) c.skip
  | none, none => finish none none c

/-- A block scalar behind its indicator; `parent` is the indentation of the block around it, if
any. -/
def scanBlock (literal : Bool) (parent : Option Nat) (c : Cursor) : Except Fault (List Char × Cursor) := do
  let ((chomp, sign), c) ← scanBlockHeader c
  let c := c.skipBlanks
  let c := if c.startsWith '#' then c.skipToBreak else c
  if !c.isGapAt 0 || c.isBlankAt 0 then .error (c.fault .malformed)
  else
    let c := c.skipLine
    let known : Option Nat := sign.map fun n => (parent.getD 0) + n
    let ((empties, deepest), c) ← scanEmptyLines known (c.rest.length + 1) [] 0 c
    let indent := known.getD (max (max deepest ((parent.map (· + 1)).getD 0)) 1)
    let ((text, lead, empties), c) ←
      scanBlockLines literal indent (c.rest.length + 1) [] [] empties false c
    match chomp with
    | .strip => .ok (text, c)
    | .clip => .ok (text ++ lead, c)
    | .keep => .ok (text ++ lead ++ empties, c)

end SequencerHub.Yaml

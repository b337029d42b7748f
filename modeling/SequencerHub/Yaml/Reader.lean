import SequencerHub.Yaml.Lexer
import SequencerHub.Yaml.Scalar

/-! From tokens to trees. An alias stands for a copy of the anchored tree. -/
namespace SequencerHub.Yaml

inductive Tags
  /-- Tags tell what a scalar stands for. -/
  | resolved
  /-- Readers know what they want; a tag can only name one value of a choice. -/
  | spelled

/-- Tokens ahead, anchored trees, and where the text goes wrong behind the tokens, if it does. -/
structure Source where
  tags : Tags
  tokens : List Placed
  anchors : List (List Char × Node Mark)
  trouble : Option Fault

namespace Source

def peek (s : Source) : Except Fault Placed :=
  match s.tokens with
  | t :: _ => .ok t
  | [] => .error (s.trouble.getD ⟨.malformed, ⟨0, 0, 0⟩⟩)

def drop (s : Source) : Source := { s with tokens := s.tokens.tail }

def bindAnchor (s : Source) (name : Option (List Char)) (n : Node Mark) : Source :=
  match name with
  | some a => { s with anchors := (a, n) :: s.anchors }
  | none => s

end Source

def coreTag? (name : List Char) : Option String :=
  let s := String.ofList name
  if s.startsWith "!!" then some (s.drop 2).toString
  else if s.startsWith "tag:yaml.org,2002:" then some (s.drop 18).toString
  else none

def isLocalTag (name : List Char) : Bool := (coreTag? name).isNone && name != ['!']

def textNode (content : List Char) (m : Mark) : Node Mark :=
  .scalar (.string (String.ofList content)) m m

def untaggedNode (content : List Char) (style : Style) (m : Mark) : Node Mark :=
  if style = .plain then .plain (String.ofList content) (resolve content) m m else textNode content m

/-- The value that a tag names: an object with the tag as its only key. -/
def choiceNode (name content : List Char) (style : Style) (m : Mark) : Node Mark :=
  .object m (.member (String.ofList name) m m (untaggedNode content style m) m (.done m))

def resolvedNode (content : List Char) (style : Style) (tag : Option (List Char)) (m : Mark) :
    Node Mark :=
  let text := textNode content m
  let checked (fits : Scalar → Bool) : Node Mark :=
    if fits (resolve content) then .scalar (resolve content) m m
    else .broken m .valueExpected m
  match tag with
  | none => untaggedNode content style m
  | some name =>
    match coreTag? name with
    | some "null" => checked fun v => v = .null
    | some "bool" => checked fun v => match v with | .bool _ => true | _ => false
    | some "int" => checked fun v => match v with | .number (.whole _) | .wide _ => true | _ => false
    | some "float" => checked fun v => match v with | .number _ => true | _ => false
    | some _ => text
    | none => if name = ['!'] then text else .broken m .valueExpected m

def Source.scalarNode (s : Source) (content : List Char) (style : Style) (tag : Option (List Char))
    (m : Mark) : Node Mark :=
  match s.tags, tag with
  | .spelled, some name =>
    if isLocalTag name then choiceNode name content style m else untaggedNode content style m
  | _, _ => resolvedNode content style tag m

/-- A collection with the tag in front of it: a local tag names nothing known. -/
def Source.collectionNode (s : Source) (tag : Option (List Char)) (m : Mark) (n : Node Mark) :
    Node Mark :=
  match s.tags with
  | .spelled => n
  | .resolved => if tag.any fun g => (coreTag? g).isNone then .broken m .valueExpected m else n

def emptyNode (m : Mark) : Node Mark := .plain "" .null m m

def keyText? : Node Mark → Option String
  | .scalar (.string s) _ _ => some s
  | .plain t _ _ _ => some t
  | _ => none

/-- The members of a mapping; a key with parts is none. -/
def toMembers (stop : Mark) : List (Node Mark × Node Mark) → Members Mark
  | [] => .done stop
  | (k, v) :: more =>
    match keyText? k with
    | some key => .member key k.start k.start v k.start (toMembers stop more)
    | none => .keyless k .keyNotQuoted k.start

def toItems (stop : Mark) : List (Node Mark) → Items Mark
  | [] => .done stop
  | v :: more => .item v (toItems stop more)

/-- Anchor and tag in front of a node, in either order. -/
structure Properties where
  anchor : Option (List Char) := none
  tag : Option (List Char) := none

def readProperties (s : Source) : Except Fault (Properties × Source) := do
  let (t, _) ← s.peek
  match t with
  | .anchor a =>
    let s := s.drop
    let (t, _) ← s.peek
    match t with
    | .tag g => .ok ({ anchor := some a, tag := some g }, s.drop)
    | _ => .ok ({ anchor := some a }, s)
  | .tag g =>
    let s := s.drop
    let (t, _) ← s.peek
    match t with
    | .anchor a => .ok ({ anchor := some a, tag := some g }, s.drop)
    | _ => .ok ({ tag := some g }, s)
  | _ => .ok ({}, s)

def refuse {α : Type} (m : Mark) (p : Problem) : Except Fault α := .error ⟨p, m⟩

mutual

/-- A node. `block` allows block collections, `indentless` a sequence whose entries are not indented.
`depth` bounds the nesting. -/
def readNode (block indentless : Bool) : Nat → Nat → Source → Except Fault (Node Mark × Source)
  | 0, _, s => do
    let (_, m) ← s.peek
    refuse m .malformed
  | fuel + 1, depth, s => do
    let (first, start) ← s.peek
    match first with
    | .alias name =>
      match s.anchors.find? (·.1 = name) with
      | some (_, n) => .ok (n, s.drop)
      | none => refuse start .unknownAnchor
    | _ =>
      let (props, s) ← readProperties s
      let (t, m) ← s.peek
      let bound (r : Node Mark × Source) : Node Mark × Source :=
        let n := s.collectionNode props.tag start r.1
        (n, r.2.bindAnchor props.anchor n)
      let nested (read : Nat → Except Fault (Node Mark × Source)) :
          Except Fault (Node Mark × Source) :=
        match depth with
        | 0 => refuse m .malformed
        | depth + 1 => bound <$> read depth
      match t with
      | .scalar content style =>
        let n := s.scalarNode content style props.tag start
        .ok (n, s.drop.bindAnchor props.anchor n)
      | .blockEntry =>
        if indentless then nested fun d => readIndentless fuel d start [] s
        else if props.anchor.isSome || props.tag.isSome then
          let n := s.scalarNode [] .plain props.tag start
          .ok (n, s.bindAnchor props.anchor n)
        else refuse m .noNode
      | .flowSequenceStart => nested fun d => readFlowSequence fuel d start true [] s.drop
      | .flowMappingStart => nested fun d => readFlowMapping fuel d start true [] s.drop
      | _ =>
        if block && t == .blockSequenceStart then
          nested fun d => readBlockSequence fuel d start [] s.drop
        else if block && t == .blockMappingStart then
          nested fun d => readBlockMapping fuel d start [] s.drop
        else if props.anchor.isSome || props.tag.isSome then
          let n := s.scalarNode [] .plain props.tag start
          .ok (n, s.bindAnchor props.anchor n)
        else refuse m .noNode
termination_by structural fuel => fuel

/-- A node unless one of the given tokens comes, which leave an empty one. -/
def readUnless (stops : List Token) (block indentless : Bool) : Nat → Nat → Source →
    Except Fault (Node Mark × Source)
  | 0, _, s => do
    let (_, m) ← s.peek
    refuse m .malformed
  | fuel + 1, depth, s => do
    let (t, m) ← s.peek
    if stops.contains t then .ok (emptyNode m, s)
    else readNode block indentless fuel depth s
termination_by structural fuel => fuel

def readBlockSequence : Nat → Nat → Mark → List (Node Mark) → Source →
    Except Fault (Node Mark × Source)
  | 0, _, m, _, _ => refuse m .malformed
  | fuel + 1, depth, start, acc, s => do
    let (t, m) ← s.peek
    match t with
    | .blockEntry =>
      let (n, s) ← readUnless [.blockEntry, .blockEnd] true false fuel depth s.drop
      readBlockSequence fuel depth start (n :: acc) s
    | .blockEnd => .ok (.list start (toItems m acc.reverse), s.drop)
    | _ => refuse m .malformed
termination_by structural fuel => fuel

/-- Entries at the indentation of the mapping around them. -/
def readIndentless : Nat → Nat → Mark → List (Node Mark) → Source →
    Except Fault (Node Mark × Source)
  | 0, _, m, _, _ => refuse m .malformed
  | fuel + 1, depth, start, acc, s => do
    let (t, m) ← s.peek
    match t with
    | .blockEntry =>
      let (n, s) ← readUnless [.blockEntry, .key, .value, .blockEnd] true false fuel depth s.drop
      readIndentless fuel depth start (n :: acc) s
    | _ => .ok (.list start (toItems m acc.reverse), s)
termination_by structural fuel => fuel

def readBlockMapping : Nat → Nat → Mark → List (Node Mark × Node Mark) → Source →
    Except Fault (Node Mark × Source)
  | 0, _, m, _, _ => refuse m .malformed
  | fuel + 1, depth, start, acc, s => do
    let (t, m) ← s.peek
    match t with
    | .key =>
      let (k, s) ← readUnless [.key, .value, .blockEnd] true true fuel depth s.drop
      let (v, s) ← readValue [.key, .value, .blockEnd] true fuel depth s
      readBlockMapping fuel depth start ((k, v) :: acc) s
    | .blockEnd => .ok (.object start (toMembers m acc.reverse), s.drop)
    | _ => refuse m .noKey
termination_by structural fuel => fuel

def readValue (stops : List Token) (block : Bool) : Nat → Nat → Source →
    Except Fault (Node Mark × Source)
  | 0, _, s => do
    let (_, m) ← s.peek
    refuse m .malformed
  | fuel + 1, depth, s => do
    let (t, m) ← s.peek
    if t = .value then readUnless stops block block fuel depth s.drop
    else .ok (emptyNode m, s)
termination_by structural fuel => fuel

/-- Elements of a bracketed list; a pair may stand for a mapping of its own. -/
def readFlowSequence : Nat → Nat → Mark → Bool → List (Node Mark) → Source →
    Except Fault (Node Mark × Source)
  | 0, _, m, _, _, _ => refuse m .malformed
  | fuel + 1, depth, start, first, acc, s => do
    let (t, m) ← s.peek
    if t = .flowSequenceEnd then .ok (.list start (toItems m acc.reverse), s.drop)
    else if !first && t != .flowEntry then refuse m .malformed
    else
      let s := if first then s else s.drop
      let (t, m) ← s.peek
      match t with
      | .key =>
        let stops : List Token := [.flowEntry, .flowSequenceEnd]
        let (k, s) ← readUnless (.value :: stops) false false fuel depth s.drop
        let (v, s) ← readValue stops false fuel depth s
        readFlowSequence fuel depth start false (.object m (toMembers m [(k, v)]) :: acc) s
      | .flowSequenceEnd => .ok (.list start (toItems m acc.reverse), s.drop)
      | _ =>
        let (n, s) ← readNode false false fuel depth s
        readFlowSequence fuel depth start false (n :: acc) s
termination_by structural fuel => fuel

/-- Pairs of a mapping in braces; a key may stand without a value. -/
def readFlowMapping : Nat → Nat → Mark → Bool → List (Node Mark × Node Mark) → Source →
    Except Fault (Node Mark × Source)
  | 0, _, m, _, _, _ => refuse m .malformed
  | fuel + 1, depth, start, first, acc, s => do
    let (t, m) ← s.peek
    if t = .flowMappingEnd then .ok (.object start (toMembers m acc.reverse), s.drop)
    else if !first && t != .flowEntry then refuse m .malformed
    else
      let s := if first then s else s.drop
      let (t, m) ← s.peek
      let stops : List Token := [.flowEntry, .flowMappingEnd]
      match t with
      | .key =>
        let (k, s) ← readUnless (.value :: stops) false false fuel depth s.drop
        let (v, s) ← readValue stops false fuel depth s
        readFlowMapping fuel depth start false ((k, v) :: acc) s
      | .flowMappingEnd => .ok (.object start (toMembers m acc.reverse), s.drop)
      | _ =>
        let (k, s) ← readNode false false fuel depth s
        readFlowMapping fuel depth start false ((k, emptyNode m) :: acc) s
termination_by structural fuel => fuel

end

/-- A document: its root, if there is one, and whether another document or stray text follows. -/
structure Document where
  root : Option (Node Mark)
  more : Bool

def depthLimit : Nat := 128

/-- Passes over directives; a document marker has to follow them. -/
def skipDirectives : List Placed → List Placed
  | (.directive, _) :: more => skipDirectives more
  | ts => ts

def hasMore : List Placed → Bool
  | (.documentEnd, _) :: more => hasMore more
  | [(.streamEnd, _)] => false
  | _ => true

def read (tags : Tags) (cs : List Char) : Except Fault Document := do
  let (ts, trouble) := tokens cs
  let s : Source := ⟨tags, ts, [], trouble⟩
  let (t, m) ← s.peek
  let fuel := 4 * ts.length + 4
  if t = .streamEnd then .ok ⟨none, false⟩
  else
    let explicit := t = .directive || t = .documentStart
    let s := { s with tokens := skipDirectives ts }
    let (t, _) ← s.peek
    if explicit && t != .documentStart then refuse m .malformed
    else
      let s := if explicit then s.drop else s
      let stops : List Token :=
        if explicit then [.directive, .documentStart, .documentEnd, .streamEnd] else []
      let (n, s) ← readUnless stops true false fuel depthLimit s
      let _ ← s.peek
      .ok ⟨some n, hasMore s.tokens⟩

end SequencerHub.Yaml

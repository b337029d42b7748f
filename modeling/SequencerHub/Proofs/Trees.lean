import SequencerHub.Config.Load
import SequencerHub.Proofs.Outline

/-! The tree that the tokens of a document give. What is read of a value sets that value, and the tokens behind it are
left for what comes next. -/
namespace SequencerHub.Yaml

mutual

/-- What a value sets in the layer of a file. -/
def Value.toSetting : Value → Setting
  | .null => .scalar .null .file
  | .number n => .scalar (countScalar n) .file
  | .text s => .scalar (.string s) .file
  | .list items => .list (itemSettings items) .file
  | .map members => .dict (memberSettings [] members) .file

def itemSettings : List Value → List Setting
  | [] => []
  | v :: more => v.toSetting :: itemSettings more

def memberSettings (sorted : List (String × Setting)) : List (String × Value) → List (String × Setting)
  | [] => sorted
  | (key, v) :: more => memberSettings (Setting.put key v.toSetting sorted) more

end

mutual

def Value.nesting : Value → Nat
  | .list items => itemsNesting items + 1
  | .map members => membersNesting members + 1
  | _ => 0

def itemsNesting : List Value → Nat
  | [] => 0
  | v :: more => max v.nesting (itemsNesting more)

def membersNesting : List (String × Value) → Nat
  | [] => 0
  | (_, v) :: more => max v.nesting (membersNesting more)

end

section Sources

variable {s : Source} {t : Token} {ts rest : List Token}

/-- The tokens ahead, and that tags tell what scalars stand for. -/
structure Source.Ahead (s : Source) (ts : List Token) : Prop where
  tags : s.tags = .resolved
  tokens : s.tokens.map Prod.fst = ts

theorem Source.Ahead.peek (h : s.Ahead (t :: ts)) : ∃ m, s.peek = .ok (t, m) := by
  obtain ⟨⟨_, m⟩, more, hs, rfl, -⟩ := List.map_eq_cons_iff.mp h.tokens
  exact ⟨m, by rw [Source.peek, hs]⟩

theorem Source.Ahead.drop (h : s.Ahead (t :: ts)) : s.drop.Ahead ts :=
  ⟨h.tags, by rw [Source.drop, List.map_tail, h.tokens, List.tail_cons]⟩

/-- What is read sets something, and the other tokens are still ahead. -/
def Yields (r : Except Fault (Node Mark × Source)) (v : Setting) (rest : List Token) : Prop :=
  ∃ n s, r = .ok (n, s) ∧ s.Ahead rest ∧ Setting.ofNode n = some v

def Token.IsPlain (t : Token) : Prop := (∀ a, t ≠ .alias a) ∧ (∀ a, t ≠ .anchor a) ∧ ∀ g, t ≠ .tag g

theorem readProperties_plain {m : Mark} (hp : s.peek = .ok (t, m)) (ht : t.IsPlain) :
    readProperties s = .ok ({}, s) := by
  obtain ⟨-, hanchor, htag⟩ := ht
  rw [readProperties, hp, ok_bind]
  cases t with
  | anchor a => exact absurd rfl (hanchor a)
  | tag g => exact absurd rfl (htag g)
  | _ => rfl

theorem map_bound {x : Except Fault (Node Mark × Source)} {m : Mark} (hs : s.tags = .resolved) :
    (fun r => (s.collectionNode none m r.1, r.2.bindAnchor none (s.collectionNode none m r.1))) <$> x = x := by
  have hsame : (fun r : Node Mark × Source =>
      (s.collectionNode none m r.1, r.2.bindAnchor none (s.collectionNode none m r.1))) = id := by
    funext r
    simp [Source.collectionNode, hs, Source.bindAnchor]
  rw [hsame, id_map]

def collectionReader? :
    Bool → Token → Option (Nat → Nat → Mark → Source → Except Fault (Node Mark × Source))
  | _, .blockSequenceStart => some fun fuel depth m s => readBlockSequence fuel depth m [] s.drop
  | _, .blockMappingStart => some fun fuel depth m s => readBlockMapping fuel depth m [] s.drop
  | _, .flowSequenceStart => some fun fuel depth m s => readFlowSequence fuel depth m true [] s.drop
  | _, .flowMappingStart => some fun fuel depth m s => readFlowMapping fuel depth m true [] s.drop
  | true, .blockEntry => some fun fuel depth m s => readIndentless fuel depth m [] s
  | _, _ => none

theorem readNode_collection {read : Nat → Nat → Mark → Source → Except Fault (Node Mark × Source)}
    (h : s.Ahead (t :: rest)) (indentless : Bool) (hread : collectionReader? indentless t = some read)
    (fuel depth : Nat) : ∃ m, readNode true indentless (fuel + 1) (depth + 1) s = read fuel depth m s := by
  obtain ⟨m, hp⟩ := h.peek
  have hplain : t.IsPlain := by
    refine ⟨?_, ?_, ?_⟩ <;>
    · rintro a rfl
      cases indentless <;> cases hread
  have hprops := readProperties_plain hp hplain
  refine ⟨m, ?_⟩
  rw [readNode, hp, ok_bind]
  cases indentless <;> cases t <;> cases hread
  all_goals
    simp only [hprops, ok_bind, hp]
    exact map_bound h.tags

theorem readNode_scalar {content : List Char} {style : Style} (h : s.Ahead (.scalar content style :: rest))
    (indentless : Bool) (fuel depth : Nat) : ∃ m,
      readNode true indentless (fuel + 1) depth s = .ok (untaggedNode content style m, s.drop) := by
  obtain ⟨m, hp⟩ := h.peek
  have hprops := readProperties_plain hp ⟨nofun, nofun, nofun⟩
  refine ⟨m, ?_⟩
  rw [readNode, hp, ok_bind]
  simp only [hprops, ok_bind, hp, Source.scalarNode, h.tags]
  rfl

theorem readUnless_other {stops : List Token} (h : s.Ahead (t :: rest)) (ht : t ∉ stops) (indentless : Bool)
    (fuel depth : Nat) :
    readUnless stops true indentless (fuel + 1) depth s = readNode true indentless fuel depth s := by
  obtain ⟨m, hp⟩ := h.peek
  rw [readUnless, hp, ok_bind]
  simp [ht]

theorem readValue_value (h : s.Ahead (.value :: rest)) (stops : List Token) (fuel depth : Nat) :
    readValue stops true (fuel + 1) depth s = readUnless stops true true fuel depth s.drop := by
  obtain ⟨m, hp⟩ := h.peek
  rw [readValue, hp, ok_bind]
  simp

end Sources

section Scalars

variable {s : Source} {rest : List Token} {fuel depth : Nat} {indentless : Bool}

theorem keyText?_untaggedNode (cs : List Char) (style : Style) (m : Mark) :
    keyText? (untaggedNode cs style m) = some (String.ofList cs) := by
  cases style <;> rfl

/-- A text is read as itself, whatever it would stand for without quotes. -/
theorem ofNode_text (asKey : Bool) (cs : List Char) (m : Mark) :
    Setting.ofNode (untaggedNode cs (if spelling asKey cs = .bare then .plain else .quoted) m) =
      some (.scalar (.string (String.ofList cs)) .file) := by
  have hsuits := suits_spelling asKey cs
  by_cases hbare : spelling asKey cs = .bare
  · rw [hbare] at hsuits ⊢
    obtain ⟨-, text, htext⟩ := hsuits
    simp [untaggedNode, Setting.ofNode, resolve_string htext]
  · simp [hbare, untaggedNode, textNode, Setting.ofNode]

theorem yields_scalar {content : List Char} {style : Style} {v : Setting}
    (h : s.Ahead (.scalar content style :: rest)) (hv : ∀ m, Setting.ofNode (untaggedNode content style m) = some v) :
    Yields (readNode true indentless (fuel + 1) depth s) v rest := by
  obtain ⟨m, hread⟩ := readNode_scalar h indentless fuel depth
  exact ⟨_, _, hread, h.drop, hv m⟩

end Scalars

section Parts

variable {n k : Node Mark} {v : Setting} {key : String}

/-- What the items that were read so far, the last one first, come to. -/
def Lists (acc : List (Node Mark)) (vs : List Setting) : Prop :=
  ∀ stop more ws, Setting.ofNodeItems (toItems stop more) = some ws →
    Setting.ofNodeItems (toItems stop (acc.reverse ++ more)) = some (vs ++ ws)

theorem Lists.nil : Lists [] [] := fun _ _ _ h => h

theorem Lists.cons {acc : List (Node Mark)} {vs : List Setting} (h : Lists acc vs) (hv : Setting.ofNode n = some v) :
    Lists (n :: acc) (vs ++ [v]) := by
  intro stop more ws hws
  rw [List.reverse_cons, List.append_assoc, List.append_assoc]
  exact h stop (n :: more) (v :: ws) (by rw [toItems, Setting.ofNodeItems, hv, hws])

theorem Lists.ofNode {acc : List (Node Mark)} {vs : List Setting} (h : Lists acc vs) (start stop : Mark) :
    Setting.ofNode (.list start (toItems stop acc.reverse)) = some (.list vs .file) := by
  have hitems := h stop [] [] rfl
  rw [List.append_nil, List.append_nil] at hitems
  rw [Setting.ofNode, hitems]
  rfl

/-- What the members that were read so far, the last one first, come to. -/
def Sets (acc : List (Node Mark × Node Mark)) (sorted : List (String × Setting)) : Prop :=
  ∀ stop more, Setting.ofNodeMembers [] (toMembers stop (acc.reverse ++ more)) =
    Setting.ofNodeMembers sorted (toMembers stop more)

theorem Sets.nil : Sets [] [] := fun _ _ => rfl

theorem Sets.cons {acc : List (Node Mark × Node Mark)} {sorted : List (String × Setting)} (h : Sets acc sorted)
    (hkey : keyText? k = some key) (hv : Setting.ofNode n = some v) :
    Sets ((k, n) :: acc) (Setting.put key v sorted) := by
  intro stop more
  rw [List.reverse_cons, List.append_assoc, h]
  simp only [List.singleton_append, toMembers, hkey, Setting.ofNodeMembers, hv]

theorem Sets.ofNode {acc : List (Node Mark × Node Mark)} {sorted : List (String × Setting)} (h : Sets acc sorted)
    (start stop : Mark) : Setting.ofNode (.object start (toMembers stop acc.reverse)) = some (.dict sorted .file) := by
  have hmembers := h stop []
  rw [List.append_nil] at hmembers
  rw [Setting.ofNode, hmembers]
  rfl

end Parts

section Collections

variable {s : Source} {t : Token} {ts rest : List Token} {fuel depth : Nat} {start : Mark}

def readEntries (indentless : Bool) :
    Nat → Nat → Mark → List (Node Mark) → Source → Except Fault (Node Mark × Source) :=
  if indentless then readIndentless else readBlockSequence

def closing (indentless : Bool) : List Token := if indentless then [] else [.blockEnd]

theorem readEntries_entry (indentless : Bool) (acc : List (Node Mark)) (h : s.Ahead (.blockEntry :: t :: rest))
    (ht : t ∉ [Token.blockEntry, .key, .value, .blockEnd]) :
    readEntries indentless (fuel + 2) depth start acc s = readNode true false fuel depth s.drop >>= fun r =>
      readEntries indentless (fuel + 1) depth start (r.1 :: acc) r.2 := by
  obtain ⟨m, hp⟩ := h.peek
  cases indentless with
  | true =>
    have hunless := readUnless_other h.drop ht false fuel depth
    simp only [readEntries, if_true]
    rw [readIndentless, hp, ok_bind]
    simp only [hunless]
  | false =>
    have ht' : t ∉ [Token.blockEntry, .blockEnd] := by simp_all
    have hunless := readUnless_other h.drop ht' false fuel depth
    simp only [readEntries, Bool.false_eq_true, if_false]
    rw [readBlockSequence, hp, ok_bind]
    simp only [hunless]

theorem yields_closing (indentless : Bool) {acc : List (Node Mark)} {vs : List Setting} (hacc : Lists acc vs)
    (h : s.Ahead (closing indentless ++ rest))
    (hrest : indentless = true → rest.head?.any (· ≠ .blockEntry) = true) :
    Yields (readEntries indentless (fuel + 1) depth start acc s) (.list vs .file) rest := by
  cases indentless with
  | true =>
    obtain ⟨t, more, rfl, ht⟩ : ∃ t more, rest = t :: more ∧ t ≠ .blockEntry := by
      cases rest with
      | nil => simp at hrest
      | cons t more => exact ⟨t, more, rfl, by simpa using hrest rfl⟩
    obtain ⟨m, hp⟩ := h.peek
    refine ⟨_, s, ?_, h, hacc.ofNode start m⟩
    simp only [readEntries, if_true]
    rw [readIndentless, hp, ok_bind]
    cases t with
    | blockEntry => exact absurd rfl ht
    | _ => rfl
  | false =>
    obtain ⟨m, hp⟩ := h.peek
    refine ⟨_, s.drop, ?_, h.drop, hacc.ofNode start m⟩
    simp only [readEntries, Bool.false_eq_true, if_false]
    rw [readBlockSequence, hp, ok_bind]

theorem readBlockMapping_member {acc : List (Node Mark × Node Mark)} (h : s.Ahead (.key :: t :: ts))
    (ht : t ∉ [Token.key, .value, .blockEnd]) :
    readBlockMapping (fuel + 2) depth start acc s = readNode true true fuel depth s.drop >>= fun k =>
      readValue [.key, .value, .blockEnd] true (fuel + 1) depth k.2 >>= fun v =>
        readBlockMapping (fuel + 1) depth start ((k.1, v.1) :: acc) v.2 := by
  obtain ⟨m, hp⟩ := h.peek
  have hunless := readUnless_other h.drop ht true fuel depth
  rw [readBlockMapping, hp, ok_bind]
  simp only [hunless]

theorem yields_mapping_end {acc : List (Node Mark × Node Mark)} {sorted : List (String × Setting)}
    (hacc : Sets acc sorted) (h : s.Ahead (.blockEnd :: rest)) :
    Yields (readBlockMapping (fuel + 1) depth start acc s) (.dict sorted .file) rest := by
  obtain ⟨m, hp⟩ := h.peek
  refine ⟨_, s.drop, ?_, h.drop, hacc.ofNode start m⟩
  rw [readBlockMapping, hp, ok_bind]

theorem yields_brackets {indentless : Bool} (h : s.Ahead (.flowSequenceStart :: .flowSequenceEnd :: rest)) :
    Yields (readNode true indentless (fuel + 2) (depth + 1) s) (.list [] .file) rest := by
  obtain ⟨m, hread⟩ := readNode_collection h indentless rfl (fuel + 1) depth
  obtain ⟨stop, hp⟩ := h.drop.peek
  refine ⟨_, s.drop.drop, ?_, h.drop.drop, Lists.nil.ofNode m stop⟩
  rw [hread, readFlowSequence, hp, ok_bind]
  exact if_pos rfl

theorem yields_braces {indentless : Bool} (h : s.Ahead (.flowMappingStart :: .flowMappingEnd :: rest)) :
    Yields (readNode true indentless (fuel + 2) (depth + 1) s) (.dict [] .file) rest := by
  obtain ⟨m, hread⟩ := readNode_collection h indentless rfl (fuel + 1) depth
  obtain ⟨stop, hp⟩ := h.drop.peek
  refine ⟨_, s.drop.drop, ?_, h.drop.drop, Sets.nil.ofNode m stop⟩
  rw [hread, readFlowMapping, hp, ok_bind]
  exact if_pos rfl

/-- How the tokens of a value begin. -/
theorem exists_first (v : Value) (behindKey : Bool) : ∃ t ts, v.tokens behindKey = t :: ts ∧
    t ∉ [Token.key, .value, .blockEnd] ∧ (behindKey = false → t ≠ .blockEntry) := by
  cases v with
  | list items =>
    cases items with
    | nil => exact ⟨_, _, rfl, by decide, fun _ => by decide⟩
    | cons v more =>
      cases behindKey with
      | true => exact ⟨_, _, rfl, by decide, nofun⟩
      | false => exact ⟨_, _, rfl, by decide, fun _ => by decide⟩
  | map members => cases members <;> exact ⟨_, _, rfl, by decide, fun _ => by decide⟩
  | _ => exact ⟨_, _, rfl, by simp [textToken], fun _ => by simp [textToken]⟩

end Collections

section Values

mutual

/-- A value is read from its tokens. Behind a key another entry would still be one of the value's. -/
theorem yields_value (v : Value) (behindKey indentless : Bool) (hkey : behindKey = true → indentless = true)
    (fuel : Nat) {depth : Nat} {s : Source} {rest : List Token} (h : s.Ahead (v.tokens behindKey ++ rest))
    (hfuel : 4 * (v.tokens behindKey).length + 2 ≤ fuel) (hdepth : v.nesting ≤ depth)
    (hrest : behindKey = true → rest.head?.any (· ≠ .blockEntry) = true) :
    Yields (readNode true indentless fuel depth s) v.toSetting rest := by
  obtain ⟨fuel, rfl⟩ : ∃ k, fuel = k + 2 := ⟨fuel - 2, by omega⟩
  cases v with
  | null =>
    refine yields_scalar h fun m => ?_
    rw [untaggedNode, if_pos rfl, resolve_null]
    rfl
  | number n =>
    refine yields_scalar h fun m => ?_
    rw [untaggedNode, if_pos rfl]
    rfl
  | text text =>
    refine yields_scalar h fun m => ?_
    rw [ofNode_text, String.ofList_toList]
    rfl
  | list items =>
    obtain ⟨depth, rfl⟩ : ∃ d, depth = d + 1 := ⟨depth - 1, by rw [Value.nesting] at hdepth; omega⟩
    have hdepth : itemsNesting items ≤ depth := Nat.le_of_succ_le_succ hdepth
    cases items with
    | nil => exact yields_brackets h
    | cons v more =>
      cases behindKey with
      | true =>
        obtain rfl := hkey rfl
        have htokens : (Value.list (v :: more)).tokens true = itemTokens (v :: more) ++ closing true :=
          (List.append_nil _).symm
        rw [htokens] at h hfuel
        rw [List.length_append] at hfuel
        obtain ⟨m, hread⟩ := readNode_collection h true rfl (fuel + 1) depth
        have hfuel : 4 * (itemTokens (v :: more)).length + 1 ≤ fuel + 1 := by omega
        rw [hread]
        exact yields_items (v :: more) true Lists.nil m h hfuel hdepth hrest
      | false =>
        have htokens : (Value.list (v :: more)).tokens false =
            .blockSequenceStart :: (itemTokens (v :: more) ++ closing false) := rfl
        rw [htokens] at h hfuel
        rw [List.length_cons, List.length_append] at hfuel
        obtain ⟨m, hread⟩ := readNode_collection h indentless rfl (fuel + 1) depth
        have hfuel : 4 * (itemTokens (v :: more)).length + 1 ≤ fuel + 1 := by omega
        rw [hread]
        exact yields_items (v :: more) false Lists.nil m h.drop hfuel hdepth nofun
  | map members =>
    obtain ⟨depth, rfl⟩ : ∃ d, depth = d + 1 := ⟨depth - 1, by rw [Value.nesting] at hdepth; omega⟩
    have hdepth : membersNesting members ≤ depth := Nat.le_of_succ_le_succ hdepth
    cases members with
    | nil => exact yields_braces h
    | cons member more =>
      have htokens : (Value.map (member :: more)).tokens behindKey =
          .blockMappingStart :: (memberTokens (member :: more) ++ [.blockEnd]) := rfl
      rw [htokens] at h hfuel
      rw [List.length_cons, List.length_append] at hfuel
      obtain ⟨m, hread⟩ := readNode_collection h indentless rfl (fuel + 1) depth
      have hahead : s.drop.Ahead (memberTokens (member :: more) ++ .blockEnd :: rest) := by
        rw [List.append_cons]
        exact h.drop
      rw [hread]
      exact yields_members (member :: more) Sets.nil hahead (by omega) hdepth

theorem yields_items (items : List Value) (indentless : Bool) {acc : List (Node Mark)} {vs : List Setting}
    (hacc : Lists acc vs) {fuel depth : Nat} (start : Mark) {s : Source} {rest : List Token}
    (h : s.Ahead (itemTokens items ++ closing indentless ++ rest)) (hfuel : 4 * (itemTokens items).length + 1 ≤ fuel)
    (hdepth : itemsNesting items ≤ depth) (hrest : indentless = true → rest.head?.any (· ≠ .blockEntry) = true) :
    Yields (readEntries indentless fuel depth start acc s) (.list (vs ++ itemSettings items) .file) rest := by
  cases items with
  | nil =>
    obtain ⟨fuel, rfl⟩ : ∃ k, fuel = k + 1 := ⟨fuel - 1, by omega⟩
    rw [itemSettings, List.append_nil]
    exact yields_closing indentless hacc h hrest
  | cons v more =>
    rw [itemTokens, List.length_cons, List.length_append] at hfuel
    obtain ⟨fuel, rfl⟩ : ∃ k, fuel = k + 2 := ⟨fuel - 2, by omega⟩
    obtain ⟨hv, hmore⟩ : v.nesting ≤ depth ∧ itemsNesting more ≤ depth := max_le_iff.mp hdepth
    obtain ⟨t, ts, ht, hfirst, hentry⟩ := exists_first v false
    have hahead : s.Ahead (.blockEntry :: (v.tokens false ++ (itemTokens more ++ closing indentless ++ rest))) := by
      simpa [itemTokens] using h
    have hother : t ∉ [Token.blockEntry, .key, .value, .blockEnd] :=
      List.not_mem_cons_of_ne_of_not_mem (hentry rfl) hfirst
    obtain ⟨n, s', hread, hahead', hn⟩ := yields_value v false false nofun fuel hahead.drop (by omega) hv nofun
    rw [ht] at hahead
    have hfuel : 4 * (itemTokens more).length + 1 ≤ fuel + 1 := by omega
    have hyields := yields_items more indentless (hacc.cons hn) start hahead' hfuel hmore hrest
    rw [List.append_assoc] at hyields
    rw [readEntries_entry indentless acc hahead hother, hread, ok_bind]
    exact hyields

theorem yields_members (members : List (String × Value)) {acc : List (Node Mark × Node Mark)}
    {sorted : List (String × Setting)} (hacc : Sets acc sorted) {fuel depth : Nat} {start : Mark} {s : Source}
    {rest : List Token} (h : s.Ahead (memberTokens members ++ .blockEnd :: rest))
    (hfuel : 4 * (memberTokens members).length + 1 ≤ fuel) (hdepth : membersNesting members ≤ depth) :
    Yields (readBlockMapping fuel depth start acc s) (.dict (memberSettings sorted members) .file) rest := by
  cases members with
  | nil =>
    obtain ⟨fuel, rfl⟩ : ∃ k, fuel = k + 1 := ⟨fuel - 1, by omega⟩
    exact yields_mapping_end hacc h
  | cons member more =>
    obtain ⟨key, v⟩ := member
    simp only [memberTokens, List.length_cons, List.length_append] at hfuel
    obtain ⟨fuel, rfl⟩ : ∃ k, fuel = k + 5 := ⟨fuel - 5, by omega⟩
    obtain ⟨hv, hmore⟩ : v.nesting ≤ depth ∧ membersNesting more ≤ depth := max_le_iff.mp hdepth
    obtain ⟨t, ts, ht, hfirst, -⟩ := exists_first v (isShortKey key.toList)
    have hahead : s.Ahead (.key :: textToken (isShortKey key.toList) key.toList :: .value ::
        (v.tokens (isShortKey key.toList) ++ (memberTokens more ++ .blockEnd :: rest))) := by
      simpa [memberTokens] using h
    have hbehind : (memberTokens more ++ .blockEnd :: rest).head?.any (· ≠ .blockEntry) = true := by
      cases more <;> rfl
    obtain ⟨m, hkey⟩ := readNode_scalar hahead.drop true (fuel + 2) depth
    obtain ⟨n, s', hread, hahead', hn⟩ := yields_value v _ true (fun _ => rfl) (fuel + 2) hahead.drop.drop.drop
      (by omega) hv fun _ => hbehind
    have hvalue : readValue [.key, .value, .blockEnd] true (fuel + 4) depth s.drop.drop = .ok (n, s') := by
      have hnode := hahead.drop.drop.drop
      rw [ht] at hnode
      rw [readValue_value hahead.drop.drop, readUnless_other hnode hfirst, hread]
    rw [readBlockMapping_member hahead (by simp [textToken]), hkey, ok_bind, hvalue, ok_bind, memberSettings]
    refine yields_members more (hacc.cons ?_ hn) hahead' (by omega) hmore
    rw [keyText?_untaggedNode, String.ofList_toList]

end

end Values

theorem hasMore_end {ts : List Placed} (h : ts.map Prod.fst = [.streamEnd]) : hasMore ts = false := by
  obtain ⟨⟨_, m⟩, rfl, rfl⟩ := List.map_eq_singleton_iff.mp h
  rfl

/-- The document of a mapping's text is the tree of what the mapping sets, and nothing follows it. -/
theorem read_render {members : List (String × Value)} (hne : members ≠ [])
    (hdepth : (Value.map members).nesting ≤ depthLimit) :
    ∃ n, read .resolved (writeMembers 0 members) = .ok ⟨some n, false⟩ ∧
      Setting.ofNode n = some (Value.map members).toSetting := by
  obtain ⟨ts, hts, htokens⟩ := tokens_render hne
  obtain ⟨member, more, rfl⟩ := List.exists_cons_of_ne_nil hne
  have hvalue : ts.map Prod.fst = (Value.map (member :: more)).tokens false ++ [.streamEnd] := by
    rw [htokens]
    simp [Value.tokens]
  have hahead : Source.Ahead ⟨.resolved, ts, [], none⟩
      ((Value.map (member :: more)).tokens false ++ [.streamEnd]) := ⟨rfl, hvalue⟩
  obtain ⟨⟨_, m⟩, rest, rfl, rfl, hrest⟩ := List.map_eq_cons_iff.mp htokens
  have hlength := congrArg List.length hvalue
  rw [List.length_map, List.length_append, List.length_singleton] at hlength
  obtain ⟨n, s, hread, hend, hn⟩ := yields_value (.map (member :: more)) false false nofun
    (4 * ((Token.blockMappingStart, m) :: rest).length + 3) hahead (by omega) hdepth nofun
  obtain ⟨stop, hp⟩ := hend.peek
  refine ⟨n, ?_, hn⟩
  have hunless := readUnless_other hahead List.not_mem_nil false
    (4 * ((Token.blockMappingStart, m) :: rest).length + 3) depthLimit
  rw [hread] at hunless
  have hfirst : Source.peek ⟨.resolved, (.blockMappingStart, m) :: rest, [], none⟩ =
      .ok (.blockMappingStart, m) := rfl
  have hskip : skipDirectives ((.blockMappingStart, m) :: rest) = (.blockMappingStart, m) :: rest := rfl
  rw [read, hts]
  simp only [hfirst, ok_bind, hskip, reduceCtorEq, if_false, decide_false, Bool.or_false, Bool.false_and,
    Bool.false_eq_true, hunless, hp, hasMore_end hend.tokens]

theorem exists_object {n : Node Mark} {members : List (String × Setting)}
    (h : Setting.ofNode n = some (.dict members .file)) : ∃ start ms, n = .object start ms := by
  cases n with
  | object start ms => exact ⟨start, ms, rfl⟩
  | list start items =>
    rw [Setting.ofNode] at h
    cases hitems : Setting.ofNodeItems items <;> rw [hitems] at h <;> cases h
  | _ => cases h

end SequencerHub.Yaml

namespace SequencerHub
open Yaml

theorem Settings.fileLayer_render (path : String) {members : List (String × Value)} (hne : members ≠ [])
    (hdepth : (Value.map members).nesting ≤ depthLimit) :
    fileLayer path (Yaml.render (.map members)) = .ok (Value.map members).toSetting := by
  obtain ⟨n, hread, hn⟩ := read_render hne hdepth
  obtain ⟨start, ms, rfl⟩ := exists_object hn
  have htext : (Yaml.render (.map members)).toList = writeMembers 0 members := by
    cases members with
    | nil => exact absurd rfl hne
    | cons member more => exact String.toList_ofList
  rw [fileLayer, htext, hread]
  simp only [hn, Bool.false_eq_true, if_false]

end SequencerHub

import SequencerHub.Proofs.JsonText

/-! How deep JSON text may be nested. The text of a value is read back if fewer brackets are open at any place of it
than the reader can count, and at the first bracket beyond that the text is refused as a whole. -/
namespace SequencerHub

/-- What it means that a tree holds a fault. -/
def Node.Breaks {μ : Type} (n : Node μ) : Prop := n.toJson.toOption = none

def Items.Breaks {μ : Type} (items : Items μ) : Prop := ∀ index, (items.toJson index).toOption = none

def Members.Breaks {μ : Type} (members : Members μ) : Prop := members.toJson.toOption = none

section Breaks

variable {μ : Type} {v : Node μ} {items : Items μ} {members : Members μ} {start : μ}

theorem Node.breaks_list (h : items.Breaks) : (Node.list start items).Breaks := by
  simp [Node.Breaks, Node.toJson, h 0]

theorem Node.breaks_object (h : members.Breaks) : (Node.object start members).Breaks := by
  have hm : members.toJson.toOption = none := h
  simp [Node.Breaks, Node.toJson, hm]

theorem Items.breaks_item (h : v.Breaks ∨ items.Breaks) : (Items.item v items).Breaks := by
  intro index
  rcases h with hv | hi
  · have hv : v.toJson.toOption = none := hv
    simp [Items.toJson, hv]
  · simp [Items.toJson, hi (index + 1)]

theorem Members.breaks_member {key : String} {keyStop keyEnd next : μ} (h : v.Breaks ∨ members.Breaks) :
    (Members.member key keyStop keyEnd v next members).Breaks := by
  rcases h with hv | hm
  · have hv : v.toJson.toOption = none := hv
    simp [Members.Breaks, Members.toJson, hv]
  · have hm : members.toJson.toOption = none := hm
    simp [Members.Breaks, Members.toJson, hm]

end Breaks

namespace JsonText

section Steps

variable {fuel depth : Nat} {cs rest : List Char}

theorem readItem_breaks (h : (readValue fuel depth cs).1.Breaks) : (readItem (fuel + 1) depth cs).1.Breaks := by
  rw [readItem]
  cases hv : readValue fuel depth cs with
  | mk v stop =>
    rw [hv] at h
    cases stop <;> exact Items.breaks_item (.inl h)

theorem readItem_breaks_behind {v : Node Spot} {r : List Char} (hv : readValue fuel depth cs = (v, some r))
    (h : (readItems fuel depth false r).1.Breaks) : (readItem (fuel + 1) depth cs).1.Breaks := by
  rw [readItem, hv]
  exact Items.breaks_item (.inr h)

theorem readMember_written (fuel depth : Nat) (k : String) (cs : List Char) : ∃ keyStop keyEnd next members,
    (readMember (fuel + 1) depth (Json.quote k.toList ++ ':' :: cs)).1 =
      .member k keyStop keyEnd (readValue fuel depth cs).1 next members ∧
    ∀ r, (readValue fuel depth cs).2 = some r → members = (readMembers fuel depth false r).1 := by
  have hk : (k.toList.flatMap Json.escape ++ ['"']) ++ ':' :: cs =
      k.toList.flatMap Json.escape ++ '"' :: ':' :: cs := by simp
  rw [Json.quote, List.cons_append, List.cons_append, hk, readMember]
  simp only [QuotedText.read_quote, skipBlanks_cons (c := ':') (by decide), String.ofList_toList]
  cases readValue fuel depth cs with
  | mk v stop =>
    cases stop with
    | some r =>
      refine ⟨_, _, _, _, rfl, fun r' hr => ?_⟩
      rw [← Option.some.inj hr]
    | none =>
      dsimp only
      split <;> exact ⟨_, _, _, _, rfl, by nofun⟩

theorem readMember_breaks {k : String} (h : (readValue fuel depth cs).1.Breaks) :
    (readMember (fuel + 1) depth (Json.quote k.toList ++ ':' :: cs)).1.Breaks := by
  obtain ⟨keyStop, keyEnd, next, members, hm, -⟩ := readMember_written fuel depth k cs
  rw [hm]
  exact Members.breaks_member (.inl h)

theorem readMember_breaks_behind {k : String} {v : Node Spot} {r : List Char}
    (hv : readValue fuel depth cs = (v, some r)) (h : (readMembers fuel depth false r).1.Breaks) :
    (readMember (fuel + 1) depth (Json.quote k.toList ++ ':' :: cs)).1.Breaks := by
  obtain ⟨keyStop, keyEnd, next, members, hm, hrest⟩ := readMember_written fuel depth k cs
  rw [hm]
  refine Members.breaks_member (.inr ?_)
  rw [hrest r (by rw [hv])]
  exact h

/-- At a bracket beyond the depth the reader gives up; before, it goes on to what the bracket opens. -/
theorem readValue_array_breaks (h : depth ≤ 1 ∨ (readItems fuel (depth - 1) true cs).1.Breaks) :
    (readValue (fuel + 1) depth ('[' :: cs)).1.Breaks := by
  rw [readValue, skipBlanks_cons (by decide)]
  by_cases hd : depth ≤ 1
  · simp [hd, breakOff, Node.Breaks, Node.toJson]
  · have hi := h.resolve_left hd
    simp only [if_neg hd]
    exact Node.breaks_list hi

theorem readValue_object_breaks (h : depth ≤ 1 ∨ (readMembers fuel (depth - 1) true cs).1.Breaks) :
    (readValue (fuel + 1) depth ('\x7b' :: cs)).1.Breaks := by
  rw [readValue, skipBlanks_cons (by decide)]
  by_cases hd : depth ≤ 1
  · simp [hd, breakOff, Node.Breaks, Node.toJson]
  · have hm := h.resolve_left hd
    simp only [if_neg hd]
    exact Node.breaks_object hm

end Steps

mutual

/-- The text of a value that is nested beyond the depth is read as a tree that holds a fault, whatever follows it. -/
theorem readValue_deep (j : Json) (hj : j.isExact = true) (fuel depth : Nat) (hf : 2 * j.write.length ≤ fuel)
    (hpos : 0 < depth) (hd : depth ≤ j.nesting) (rest : List Char) :
    (readValue fuel depth (j.write ++ rest)).1.Breaks := by
  -- The values before the one that is too deep are read to their ends, so the reader gets to that one.
  cases j with
  | null => exact absurd hd (Nat.not_le.mpr hpos)
  | bool b => exact absurd hd (Nat.not_le.mpr hpos)
  | number n => exact absurd hd (Nat.not_le.mpr hpos)
  | string s => exact absurd hd (Nat.not_le.mpr hpos)
  | array items =>
    have hlen := length_write_array items
    have hnest : depth ≤ Json.nestingOfItems items + 1 := hd
    obtain ⟨fuel, rfl⟩ : ∃ k, fuel = k + 2 := ⟨fuel - 2, by omega⟩
    rw [write_array]
    refine readValue_array_breaks ?_
    by_cases hone : depth ≤ 1
    · exact .inl hone
    · refine .inr ?_
      have hinner := readItem_deep items hj fuel (depth - 1) (by omega) (by omega) (by omega) rest
      cases items with
      | nil => exact absurd hnest hone
      | cons i more =>
        obtain ⟨c, cs, hc, ho⟩ := writeItems_opens hj
        rw [hc, List.cons_append] at hinner ⊢
        rw [readItems_first ho]
        exact hinner
  | object members =>
    have hlen := length_write_object members
    have hnest : depth ≤ Json.nestingOfMembers members + 1 := hd
    obtain ⟨fuel, rfl⟩ : ∃ k, fuel = k + 2 := ⟨fuel - 2, by omega⟩
    rw [write_object]
    refine readValue_object_breaks ?_
    by_cases hone : depth ≤ 1
    · exact .inl hone
    · refine .inr ?_
      have hinner := readMember_deep members hj fuel (depth - 1) (by omega) (by omega) (by omega) rest
      cases members with
      | nil => exact absurd hnest hone
      | cons m more =>
        obtain ⟨cs, hc⟩ := writeMembers_opens m more
        rw [hc, List.cons_append] at hinner ⊢
        rw [readMembers_first]
        exact hinner

theorem readItem_deep (items : List Json) (hj : Json.areExact items = true) (fuel depth : Nat)
    (hf : 2 * (Json.writeItems items).length + 1 ≤ fuel) (hpos : 0 < depth) (hd : depth ≤ Json.nestingOfItems items)
    (rest : List Char) : (readItem fuel depth (Json.writeItems items ++ ']' :: rest)).1.Breaks := by
  cases items with
  | nil => exact absurd hd (Nat.not_le.mpr hpos)
  | cons j more =>
    simp only [Json.areExact, Bool.and_eq_true] at hj
    simp only [Json.nestingOfItems, le_max_iff] at hd
    obtain ⟨fuel, rfl⟩ : ∃ k, fuel = k + 1 := ⟨fuel - 1, by omega⟩
    cases more with
    | nil =>
      have hdeep : depth ≤ j.nesting := hd.resolve_right (Nat.not_le.mpr hpos)
      rw [Json.writeItems] at hf ⊢
      exact readItem_breaks (readValue_deep j hj.1 fuel depth (by omega) hpos hdeep _)
    | cons w more =>
      have hlen := length_writeItems_more j w more
      rw [writeItems_more]
      by_cases hdeep : depth ≤ j.nesting
      · exact readItem_breaks (readValue_deep j hj.1 fuel depth (by omega) hpos hdeep _)
      · obtain ⟨v, hv, -⟩ := readValue_write j hj.1 fuel depth (by omega) (Nat.not_le.mp hdeep)
          (ends_of_mem (c := ',') (by simp) (Json.writeItems (w :: more) ++ ']' :: rest))
        have hjpos := write_length_pos hj.1
        obtain ⟨fuel, rfl⟩ : ∃ k, fuel = k + 1 := ⟨fuel - 1, by omega⟩
        have hinner := readItem_deep (w :: more) hj.2 fuel depth (by omega) hpos (hd.resolve_left hdeep) rest
        obtain ⟨c, cs, hc, ho⟩ := writeItems_opens hj.2
        rw [hc, List.cons_append] at hv hinner ⊢
        exact readItem_breaks_behind hv (by rw [readItems_comma ho]; exact hinner)

theorem readMember_deep (members : List (String × Json)) (hj : Json.membersAreExact members = true) (fuel depth : Nat)
    (hf : 2 * (Json.writeMembers members).length + 1 ≤ fuel) (hpos : 0 < depth)
    (hd : depth ≤ Json.nestingOfMembers members) (rest : List Char) :
    (readMember fuel depth (Json.writeMembers members ++ '\x7d' :: rest)).1.Breaks := by
  cases members with
  | nil => exact absurd hd (Nat.not_le.mpr hpos)
  | cons m more =>
    obtain ⟨k, j⟩ := m
    simp only [Json.membersAreExact, Bool.and_eq_true] at hj
    simp only [Json.nestingOfMembers, le_max_iff] at hd
    obtain ⟨fuel, rfl⟩ : ∃ k, fuel = k + 1 := ⟨fuel - 1, by omega⟩
    cases more with
    | nil =>
      have hdeep : depth ≤ j.nesting := hd.resolve_right (Nat.not_le.mpr hpos)
      have hlen := length_writeMembers_last k j
      rw [writeMembers_last]
      exact readMember_breaks (readValue_deep j hj.1 fuel depth (by omega) hpos hdeep _)
    | cons m more =>
      have hlen := length_writeMembers_more k j m more
      rw [writeMembers_more]
      by_cases hdeep : depth ≤ j.nesting
      · exact readMember_breaks (readValue_deep j hj.1 fuel depth (by omega) hpos hdeep _)
      · obtain ⟨v, hv, -⟩ := readValue_write j hj.1 fuel depth (by omega) (Nat.not_le.mp hdeep)
          (ends_of_mem (c := ',') (by simp) (Json.writeMembers (m :: more) ++ '\x7d' :: rest))
        obtain ⟨fuel, rfl⟩ : ∃ k, fuel = k + 1 := ⟨fuel - 1, by omega⟩
        have hinner := readMember_deep (m :: more) hj.2 fuel depth (by omega) hpos (hd.resolve_left hdeep) rest
        obtain ⟨cs, hc⟩ := writeMembers_opens m more
        rw [hc, List.cons_append] at hv hinner ⊢
        exact readMember_breaks_behind hv (by rw [readMembers_comma]; exact hinner)

end
end JsonText

/-- The text of a value that is nested too deep is refused. -/
theorem Json.parse_deep {j : Json} (hj : j.isExact = true) (hd : JsonText.depthLimit ≤ j.nesting) :
    ∃ e, Json.parse j.write = .error e := by
  have hbreaks : (JsonText.tree JsonText.depthLimit j.write).1.Breaks := by
    rw [JsonText.tree, ← List.append_nil j.write]
    exact JsonText.readValue_deep j hj _ _ (by simp; omega) (by decide) hd []
  cases htree : JsonText.tree JsonText.depthLimit j.write with
  | mk root rest =>
    rw [htree] at hbreaks
    have hroot : root.toJson.toOption = none := hbreaks
    cases hread : root.toJson with
    | ok v =>
      rw [hread] at hroot
      cases hroot
    | error e =>
      have hdecode : decodeText JsonText.depthLimit Node.toJson j.write = .error (.ofText j.write e) := by
        simp only [decodeText, htree, hread]
      exact ⟨_, by rw [Json.parse, hdecode]⟩

end SequencerHub

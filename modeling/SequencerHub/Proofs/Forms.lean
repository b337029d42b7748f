import SequencerHub.Proofs.RoundTrip

/-! What tags and open records are read from: objects and lists of JSON values, in either form. -/
namespace SequencerHub

variable {τ δ α : Type}

namespace Json

def under (key : String) (ms : List (String × Json)) : List Json := (ms.filter (·.1 = key)).map (·.2)

variable {key : String} {m : String × Json} {ms ns : List (String × Json)}

theorem under_cons_self (v : Json) (ms : List (String × Json)) : under key ((key, v) :: ms) = v :: under key ms := by
  simp [under]

theorem under_cons_ne (h : m.1 ≠ key) (ms : List (String × Json)) : under key (m :: ms) = under key ms := by
  simp [under, h]

theorem under_append (key : String) (ms ns : List (String × Json)) :
    under key (ms ++ ns) = under key ms ++ under key ns := by
  simp [under]

theorem under_eq_nil : under key ms = [] ↔ key ∉ ms.map Prod.fst := by
  rw [under, List.map_eq_nil_iff, List.filter_eq_nil_iff]
  simp only [decide_eq_true_eq, List.mem_map, not_exists, not_and]

theorem under_filter {p : String → Bool} (h : p key = true) (ms : List (String × Json)) :
    under key (ms.filter fun m => p m.1) = under key ms := by
  unfold under
  rw [List.filter_filter]
  congr 2
  funext m
  by_cases hm : m.1 = key <;> simp [hm, h]

theorem under_perm (h : ms.Perm ns) (key : String) : (under key ms).Perm (under key ns) :=
  (h.filter _).map _

theorem length_under (key : String) (ms : List (String × Json)) :
    (under key ms).length = (ms.map Prod.fst).count key := by
  rw [under, List.length_map, ← List.countP_eq_length_filter, List.count, List.countP_map]
  rfl

theorem nodup_iff_under : (ms.map Prod.fst).Nodup ↔ ∀ key ∈ ms.map Prod.fst, (under key ms).length ≤ 1 := by
  simp only [List.nodup_iff_count_le_one, length_under]
  refine ⟨fun h key _ => h key, fun h key => ?_⟩
  by_cases hkey : key ∈ ms.map Prod.fst
  · exact h key hkey
  · rw [List.count_eq_zero_of_not_mem hkey]
    exact Nat.zero_le 1

theorem find?_ofJson_eq_under (key : String) (ms : List (String × Json)) :
    (Members.ofJson ms).find? key = (under key ms).head?.map Node.ofJson := by
  rw [Members.find?_ofJson, under, List.head?_map, List.head?_filter, Option.map_map]
  rfl

end Json

section AtMostOne

variable {ι : Type*} {β : Type} {F G : ι → List β} {ks : List ι} {xs : List (Option β)}

theorem forall₂_toList : List.Forall₂ (fun k x => F k = x.toList) ks xs ↔
    (∀ k ∈ ks, (F k).length ≤ 1) ∧ ks.map (fun k => (F k).head?) = xs := by
  induction ks generalizing xs with
  | nil => simp [eq_comm]
  | cons k ks ih =>
    have hhead : ∀ x : Option β, F k = x.toList ↔ (F k).length ≤ 1 ∧ (F k).head? = x := by
      intro x
      match F k with
      | [] => cases x <;> simp
      | [a] => cases x <;> simp [eq_comm]
      | a :: b :: l => cases x <;> simp
    cases xs with
    | nil => simp
    | cons x xs =>
      rw [List.forall₂_cons, hhead, ih, List.forall_mem_cons, List.map_cons, List.cons.injEq]
      tauto

theorem forall₂_toList_perm (h : ∀ k ∈ ks, (F k).Perm (G k))
    (hxs : List.Forall₂ (fun k x => F k = x.toList) ks xs) : List.Forall₂ (fun k x => G k = x.toList) ks xs := by
  induction hxs with
  | nil => exact .nil
  | @cons k x ks xs hk hks ih =>
    obtain ⟨hperm, hrest⟩ := List.forall_mem_cons.mp h
    refine .cons ?_ (ih hrest)
    rw [hk] at hperm
    cases x with
    | none => exact hperm.symm.eq_nil
    | some v => exact hperm.symm.eq_singleton

end AtMostOne

section Values

variable {v : Json}

theorem decodeJson_eq_ok {read : Node Unit → Decoded Unit α} {a : α} :
    decodeJson read v = .ok a ↔ read (Node.ofJson v) = .ok a := by
  unfold decodeJson
  cases read (Node.ofJson v) <;> simp

theorem text_ofJson_eq_ok {expected s : String} : (Node.ofJson v).text expected = .ok s ↔ v = .string s := by
  cases v <;> simp [Node.ofJson, Node.text, Node.refuse]

theorem string_ofJson_eq_ok {s : String} : (Node.ofJson v).string = .ok s ↔ v = .string s := text_ofJson_eq_ok

theorem int32_ofJson_eq_ok {n : Int32} : (Node.ofJson v).int32 = .ok n ↔ v = .ofInt32 n := by
  refine ⟨fun h => ?_, fun h => h ▸ Request.int32_ofJson n⟩
  have hinteger : ∃ i, (Node.ofJson v).integer (-0x80000000) 0x7fffffff "i32" = .ok i ∧ Int32.ofInt i = n := by
    unfold Node.int32 at h
    cases hi : (Node.ofJson v).integer (-0x80000000) 0x7fffffff "i32" with
    | error e => simp [hi] at h
    | ok i => exact ⟨i, rfl, by simpa [hi] using h⟩
  obtain ⟨i, hi, rfl⟩ := hinteger
  cases v with
  | number x =>
    cases x with
    | float x => cases hi
    | whole w =>
      simp only [Node.ofJson, Node.integer, Node.scalar?] at hi
      split_ifs at hi with hrange
      obtain rfl := Except.ok.inj hi
      have hval : (Int32.ofInt w.val).toInt = w.val := Int32.toInt_ofInt_of_le (by omega) (by omega)
      have hwhole : Whole.ofInt32 (Int32.ofInt w.val) = w := by
        cases w
        simp only [Whole.ofInt32, hval]
      rw [Json.ofInt32, hwhole]
  | _ => cases hi

end Values

namespace Tag

variable (t : Tag τ) {a : τ} {c : Content}

theorem readName_ofJson_eq_ok {v : Json} :
    t.readName (Node.ofJson v) = .ok a ↔ ∃ name, v = .string name ∧ t.choice.find? name = some a := by
  unfold readName
  cases htext : (Node.ofJson v).text "variant identifier" with
  | error e =>
    have hno : ∀ name, v ≠ .string name := by
      rintro name rfl
      cases htext
    simp [hno, bind, Except.bind]
  | ok name =>
    obtain rfl := text_ofJson_eq_ok.mp htext
    simp only [ok_bind, Json.string.injEq, exists_eq_left']
    rw [← toOption_eq_some, Choice.named_toOption]

/-- The members of an object are parted into the tag, which stands there once, and the others. -/
theorem readMembers_eq_ok (tag : Option τ) (aside ms : List (String × Json)) :
    t.readMembers tag aside (.ofJson ms) = .ok (a, c) ↔
      c = .members (aside ++ ms.filter (·.1 ≠ t.name)) ∧
        tag.elim (∃ v, Json.under t.name ms = [v] ∧ t.readName (Node.ofJson v) = .ok a)
          fun b => b = a ∧ Json.under t.name ms = [] := by
  induction ms generalizing tag aside with
  | nil => cases tag <;> simp [Members.ofJson, readMembers, Json.under, eq_comm, and_comm]
  | cons m ms ih =>
    obtain ⟨key, v⟩ := m
    by_cases hkey : key = t.name
    · subst hkey
      rw [Json.under_cons_self]
      cases tag with
      | some b => simp [Members.ofJson, readMembers]
      | none =>
        simp only [Members.ofJson, readMembers, if_true]
        cases hname : t.readName (Node.ofJson v) with
        | error e => simp [inPart, hname]
        | ok b => simp [inPart, ih, hname, and_comm]
    · have hunder : Json.under t.name ((key, v) :: ms) = Json.under t.name ms := Json.under_cons_ne hkey ms
      simp only [Members.ofJson, readMembers, if_neg hkey, Node.toJson_ofJson, inPart, ih, hunder]
      simp [hkey]

theorem split_object_eq_ok {ms : List (String × Json)} : t.split (Node.ofJson (.object ms)) = .ok (a, c) ↔
    c = .members (ms.filter (·.1 ≠ t.name)) ∧
      ∃ name, Json.under t.name ms = [.string name] ∧ t.choice.find? name = some a := by
  rw [Node.ofJson, split, readMembers_eq_ok, List.nil_append, Option.elim_none]
  simp only [readName_ofJson_eq_ok]
  constructor
  · rintro ⟨hc, v, hv, name, rfl, ha⟩
    exact ⟨hc, name, hv, ha⟩
  · rintro ⟨hc, name, hv, ha⟩
    exact ⟨hc, _, hv, name, rfl, ha⟩

theorem split_array_eq_ok {vs : List Json} : t.split (Node.ofJson (.array vs)) = .ok (a, c) ↔
    ∃ name rest, vs = .string name :: rest ∧ t.choice.find? name = some a ∧ c = .items rest := by
  cases vs with
  | nil => simp [Node.ofJson, Items.ofJson, split]
  | cons v rest =>
    have hsplit : ∀ b, t.readName (Node.ofJson v) = .ok b →
        t.split (Node.ofJson (.array (v :: rest))) = .ok (b, .items rest) := by
      intro b hb
      simp only [Node.ofJson, Items.ofJson, split, hb, inPart, ok_bind, Items.toJson_ofJson]
    constructor
    · intro h
      cases hname : t.readName (Node.ofJson v) with
      | error e => simp [Node.ofJson, Items.ofJson, split, hname, inPart, bind, Except.bind] at h
      | ok b =>
        obtain ⟨name, rfl, hb⟩ := t.readName_ofJson_eq_ok.mp hname
        rw [hsplit b hname] at h
        obtain ⟨rfl, rfl⟩ := Prod.mk.inj (Except.ok.inj h)
        exact ⟨name, rest, rfl, hb, rfl⟩
    · rintro ⟨name, rest', heq, ha, rfl⟩
      obtain ⟨rfl, rfl⟩ := List.cons.inj heq
      exact hsplit a (t.readName_ofJson_eq_ok.mpr ⟨name, rfl, ha⟩)

theorem read_eq_ok {μ : Type} {form : τ → Node Unit → Decoded Unit α} {n : Node μ} {r : α} :
    t.read form n = .ok r ↔ ∃ a c, t.split n = .ok (a, c) ∧ form a c.toNode = .ok r := by
  unfold read
  cases hsplit : t.split n with
  | error e => simp [bind, Except.bind]
  | ok x =>
    obtain ⟨a, c⟩ := x
    simp only [ok_bind]
    cases hform : form a c.toNode with
    | error e => simp [hform]
    | ok r' => simp [hform]

end Tag

namespace RecordShape

variable {r : RecordShape Unit δ} {slots : List (Slot Unit δ)} {d : δ} {ms : List (String × Json)}

theorem readMembers_known (hopen : r.closed = false) (d : δ) (ms : List (String × Json)) :
    r.readMembers d (.ofJson ms) = r.readMembers d (.ofJson (ms.filter fun m => m.1 ∈ r.names)) := by
  induction ms generalizing d with
  | nil => rfl
  | cons m ms ih =>
    obtain ⟨key, v⟩ := m
    by_cases hkey : key ∈ r.names
    · rw [List.filter_cons_of_pos (by simpa using hkey)]
      simp only [Members.ofJson, readMembers, ih, hopen, Bool.false_eq_true, if_false]
    · have hfind : r.fields.find? (·.name = key) = none :=
        List.find?_eq_none.mpr fun f hf hname => hkey (List.mem_map.mpr ⟨f, hf, by simpa using hname⟩)
      rw [List.filter_cons_of_neg (by simpa using hkey)]
      simp only [Members.ofJson, readMembers, hfind, hopen, Bool.false_eq_true, if_false, ih]

theorem nodup_of_readMembers (h : r.Slotted slots) {x : δ × Unit} (hknown : ∀ m ∈ ms, m.1 ∈ r.names)
    (hread : r.readMembers d (.ofJson ms) = .ok x) :
    (ms.map Prod.fst).Nodup ∧ ∀ s ∈ slots, (s.get d).isSome → s.field.name ∉ ms.map Prod.fst := by
  induction ms generalizing d with
  | nil => exact ⟨List.nodup_nil, fun _ _ _ => List.not_mem_nil⟩
  | cons m ms ih =>
    obtain ⟨key, v⟩ := m
    obtain ⟨hkey, hms⟩ := List.forall_mem_cons.mp hknown
    rw [Members.ofJson, readMembers] at hread
    split at hread
    · rename_i hfield
      obtain ⟨s, hmem, rfl, rfl⟩ := h.exists_slot hfield
      split_ifs at hread with hgiven
      rw [(h.lawful s hmem).given] at hgiven
      split at hread
      · rename_i d₁ hd₁
        have hset : ∃ w, s.set w d = d₁ := by
          have hreads := (h.lawful s hmem).reads (Node.ofJson v) d
          rw [← toOption_inPart (.key s.field.name), hd₁, toOption_ok] at hreads
          obtain ⟨w, -, hw⟩ := Option.map_eq_some_iff.mp hreads.symm
          exact ⟨w, hw⟩
        obtain ⟨w, rfl⟩ := hset
        obtain ⟨hnodup, hgone⟩ := ih hms hread
        have hself : s.field.name ∉ ms.map Prod.fst := by
          refine hgone s hmem ?_
          rw [(h.lawful s hmem).get_set, Option.isSome_some]
        refine ⟨List.nodup_cons.mpr ⟨hself, hnodup⟩, fun t ht htd => ?_⟩
        have hapart : s.Apart t := h.apart_of_ne hmem ht fun heq => hgiven (heq ▸ htd)
        rw [List.map_cons, List.mem_cons, not_or]
        exact ⟨hapart.names.symm, hgone t ht (by rwa [hapart.right])⟩
      · cases hread
    · rename_i hfield
      exact absurd hkey (not_mem_names hfield)

def paired (slots : List (Slot Unit δ)) (xs : List (Option Json)) : List (Slot Unit δ × Option (Node Unit)) :=
  List.zipWith (fun s x => (s, x.map Node.ofJson)) slots xs

/-- Whether a record comes out of the values for its fields. -/
def Completes (r : RecordShape Unit δ) (build : δ → Option α) (slots : List (Slot Unit δ)) (d : δ)
    (xs : List (Option Json)) (a : α) : Prop :=
  ∃ d', Slot.fill (paired slots xs) d = some d' ∧ r.missing? d' = none ∧ build d' = some a

section Forms

variable {build : δ → Option α} {a : α}

theorem missing?_eq_none : r.missing? d = none ↔ ∀ f ∈ r.fields, f.presence = .required → f.given d = true := by
  simp [missing?]

theorem completes_nil : r.Completes build [] d [] a ↔ r.missing? d = none ∧ build d = some a := by
  simp [Completes, paired, Slot.fill]

theorem completes_cons {s : Slot Unit δ} {x : Option Json} {xs : List (Option Json)} :
    r.Completes build (s :: slots) d (x :: xs) a ↔ x.elim (r.Completes build slots d xs a) fun v =>
      ∃ w, s.read (Node.ofJson v) = .ok w ∧ r.Completes build slots (s.set w d) xs a := by
  cases x with
  | none => rfl
  | some v =>
    cases hread : s.read (Node.ofJson v) with
    | error e => simp [Completes, paired, Slot.fill, hread]
    | ok w => simp [Completes, paired, Slot.fill, hread]

theorem valuesOf_ofJson (slots : List (Slot Unit δ)) (ms : List (String × Json)) : valuesOf slots (.ofJson ms) =
    paired slots (slots.map fun s => (Json.under s.field.name ms).head?) := by
  rw [valuesOf, paired, List.zipWith_map_right, List.zipWith_self]
  exact List.map_congr_left fun s _ => by rw [Json.find?_ofJson_eq_under]

/-- The object form of an open record has at most one member for each field. The other members are free. -/
theorem read_members_eq_ok (h : r.Slotted slots) (hopen : r.closed = false) (hd : ∀ s ∈ slots, s.get d = none)
    (origin : Origin) : r.read origin d build (.object () (.ofJson ms)) = .ok a ↔
      (∀ s ∈ slots, (Json.under s.field.name ms).length ≤ 1) ∧
        r.Completes build slots d (slots.map fun s => (Json.under s.field.name ms).head?) a := by
  set known := ms.filter fun m => m.1 ∈ r.names with hknown
  have hnames : ∀ key, key ∈ r.names ↔ ∃ s ∈ slots, s.field.name = key := by
    intro key
    simp [names, h.fields]
  have hunder : ∀ s ∈ slots, Json.under s.field.name known = Json.under s.field.name ms := fun s hs =>
    Json.under_filter (p := fun key => key ∈ r.names) (by simpa using (hnames _).mpr ⟨s, hs, rfl⟩) ms
  have hkeys : ∀ m ∈ known, m.1 ∈ r.names := fun m hm => by simpa using (List.mem_filter.mp hm).2
  have hnodup : (known.map Prod.fst).Nodup ↔ ∀ s ∈ slots, (Json.under s.field.name ms).length ≤ 1 := by
    rw [Json.nodup_iff_under]
    constructor
    · intro hall s hs
      rw [← hunder s hs]
      by_cases hkey : s.field.name ∈ known.map Prod.fst
      · exact hall _ hkey
      · rw [Json.under_eq_nil.mpr hkey]
        exact Nat.zero_le 1
    · intro hall key hkey
      obtain ⟨m, hm, rfl⟩ := List.mem_map.mp hkey
      obtain ⟨s, hs, hname⟩ := (hnames _).mp (hkeys m hm)
      rw [← hname, hunder s hs]
      exact hall s hs
  have hvalues : valuesOf slots (.ofJson known) =
      paired slots (slots.map fun s => (Json.under s.field.name ms).head?) := by
    rw [valuesOf_ofJson]
    congr 1
    exact List.map_congr_left fun s hs => by rw [hunder s hs]
  have hfill : (known.map Prod.fst).Nodup → (r.readMembers d (.ofJson known)).toOption.map Prod.fst =
      Slot.fill (paired slots (slots.map fun s => (Json.under s.field.name ms).head?)) d := by
    intro hn
    rw [← hvalues]
    exact readMembers_eq_fill h (Members.isWhole_ofJson known) (Members.keys_ofJson known ▸ hn) (fun s hs _ => hd s hs)
      fun hclosed => absurd (hopen.symm.trans hclosed) Bool.false_ne_true
  rw [read, bind_finish_eq_ok, readMembers_known hopen, ← hnodup]
  constructor
  · rintro ⟨d', hd', hfinish⟩
    obtain ⟨x, hx, rfl⟩ := Option.map_eq_some_iff.mp hd'
    have hn := (nodup_of_readMembers h hkeys (toOption_eq_some.mp hx)).1
    exact ⟨hn, x.1, hfill hn ▸ hd', hfinish⟩
  · rintro ⟨hn, d', hd', hfinish⟩
    exact ⟨d', (hfill hn).trans hd', hfinish⟩

/-- What is read of a list that was set aside: the values at the positions of the fields. -/
theorem readItems_content (hl : ∀ s ∈ slots, s.Lawful) (vs : List Json) (index : Nat) :
    (r.readItems .content index d (slots.map Slot.field) (.ofJson vs)).toOption.map Prod.fst =
      if vs.length ≤ slots.length ∧ ∀ s ∈ slots.drop vs.length, s.field.presence = .defaulted then
        Slot.fill (paired slots (vs.map some)) d
      else none := by
  induction slots generalizing vs index d with
  | nil => cases vs <;> simp [Items.ofJson, readItems, readEnd, paired, Slot.fill]
  | cons s slots ih =>
    obtain ⟨hs, hl⟩ := List.forall_mem_cons.mp hl
    cases vs with
    | nil =>
      have ih := ih (d := d) hl [] (index + 1)
      by_cases hp : s.field.presence = .defaulted
      · simpa [Items.ofJson, readItems, hp, paired] using ih
      · simp [Items.ofJson, readItems, hp]
    | cons v vs =>
      have hreads := hs.reads (Node.ofJson v) d
      simp only [List.map_cons, Items.ofJson, readItems, List.length_cons, List.drop_succ_cons, paired,
        List.zipWith_cons_cons, Option.map_some, Slot.fill, toOption_bind, toOption_inPart, hreads]
      cases (s.read (Node.ofJson v)).toOption with
      | none => simp
      | some w => simpa [paired] using ih hl vs (index + 1)

/-- The list form of a record whose last field has no default has one element for each field. -/
theorem read_items_eq_ok (h : r.Slotted slots) (hlast : ∀ s ∈ slots.getLast?, s.field.presence ≠ .defaulted)
    (vs : List Json) : r.read .content d build (.list () (.ofJson vs)) = .ok a ↔
      vs.length = slots.length ∧ r.Completes build slots d (vs.map some) a := by
  have hlength : (vs.length ≤ slots.length ∧ ∀ s ∈ slots.drop vs.length, s.field.presence = .defaulted) ↔
      vs.length = slots.length := by
    constructor
    · rintro ⟨hle, hall⟩
      refine hle.antisymm (Nat.not_lt.mp fun hlt => ?_)
      -- if elements were missing, the last field would be one of those that stay without
      have hne : slots.drop vs.length ≠ [] := by
        rwa [Ne, List.drop_eq_nil_iff, Nat.not_le]
      have hget : slots.getLast? = some ((slots.drop vs.length).getLast hne) := by
        rw [List.getLast_drop, List.getLast?_eq_some_getLast]
      exact hlast _ hget (hall _ (List.getLast_mem hne))
    · intro heq
      rw [heq, List.drop_length]
      exact ⟨le_rfl, List.forall_mem_nil _⟩
  rw [read, if_neg (by simp), bind_finish_eq_ok, h.fields, readItems_content h.lawful]
  simp only [hlength, Option.ite_none_right_eq_some, and_assoc, exists_and_left, Completes]

end Forms
end RecordShape
end SequencerHub

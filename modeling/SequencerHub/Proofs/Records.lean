import SequencerHub.Decode.Record
import SequencerHub.Proofs.Marks

/-! A record is what the values of its fields are read as. Which of them stands where among the members, and what other
members there are, does not matter. -/
namespace SequencerHub

variable {μ δ α : Type}

namespace Members

def find? (key : String) : Members μ → Option (Node μ)
  | .member k _ _ v _ rest => if k = key then some v else rest.find? key
  | _ => none

def keys : Members μ → List String
  | .member k _ _ _ _ rest => k :: rest.keys
  | _ => []

def IsWhole : Members μ → Prop
  | .member _ _ _ _ _ rest => rest.IsWhole
  | .done _ => True
  | _ => False

theorem find?_eq_none {key : String} {ms : Members μ} (h : key ∉ ms.keys) : ms.find? key = none := by
  cases ms with
  | member k _ _ v _ rest =>
    obtain ⟨hk, hrest⟩ := List.ne_and_not_mem_of_not_mem_cons h
    rw [find?, if_neg (Ne.symm hk), find?_eq_none hrest]
  | _ => rfl

section OfJson

variable {ms ns : List (String × Json)}

theorem isWhole_ofJson (ms : List (String × Json)) : (Members.ofJson ms).IsWhole := by
  induction ms with
  | nil => trivial
  | cons m ms ih => exact ih

theorem keys_ofJson (ms : List (String × Json)) : (Members.ofJson ms).keys = ms.map Prod.fst := by
  induction ms with
  | nil => rfl
  | cons m ms ih => rw [Members.ofJson, keys, ih, List.map_cons]

theorem find?_ofJson (key : String) (ms : List (String × Json)) :
    (Members.ofJson ms).find? key = (ms.find? (·.1 = key)).map fun m => Node.ofJson m.2 := by
  induction ms with
  | nil => rfl
  | cons m ms ih =>
    rw [Members.ofJson, find?, ih, List.find?_cons]
    by_cases hk : m.1 = key <;> simp [hk]

/-- With one member for a key, that member is found wherever it stands. -/
theorem find?_of_mem {β : Type} {ms : List (String × β)} {m : String × β} (hn : (ms.map Prod.fst).Nodup)
    (hm : m ∈ ms) : ms.find? (·.1 = m.1) = some m := by
  induction ms with
  | nil => cases hm
  | cons n ms ih =>
    obtain ⟨hhead, hn⟩ := List.nodup_cons.mp hn
    rcases List.mem_cons.mp hm with rfl | hm
    · simp
    · have hne : n.1 ≠ m.1 := fun heq => hhead (heq ▸ List.mem_map_of_mem hm)
      rw [List.find?_cons_of_neg (by simpa using hne), ih hn hm]

theorem find?_perm (hp : ms.Perm ns) (hn : (ms.map Prod.fst).Nodup) (key : String) :
    (Members.ofJson ms).find? key = (Members.ofJson ns).find? key := by
  have hn' : (ns.map Prod.fst).Nodup := (hp.map Prod.fst).nodup hn
  rw [find?_ofJson, find?_ofJson]
  by_cases hkey : key ∈ ms.map Prod.fst
  · obtain ⟨m, hm, rfl⟩ := List.mem_map.mp hkey
    rw [find?_of_mem hn hm, find?_of_mem hn' (hp.mem_iff.mp hm)]
  · have hnone : ∀ {ls : List (String × Json)}, key ∉ ls.map Prod.fst → ls.find? (·.1 = key) = none :=
      fun h => List.find?_eq_none.mpr fun m hm => by simpa using fun heq => h (List.mem_map.mpr ⟨m, hm, heq⟩)
    rw [hnone hkey, hnone fun h => hkey ((hp.map Prod.fst).mem_iff.mpr h)]

end OfJson
end Members

/-- Whether the elements come to their end without a fault. -/
def Items.IsWhole : Items μ → Prop
  | .item _ rest => rest.IsWhole
  | .done _ => True
  | .broken _ _ => False

/-- A field with its place in the draft. -/
structure Slot (μ δ : Type) where
  {value : Type}
  field : Field μ δ
  read : Node μ → Decoded μ value
  get : δ → Option value
  set : value → δ → δ

namespace Slot

/-- The field is read as the value that is put at its place. -/
structure Lawful (s : Slot μ δ) : Prop where
  reads : ∀ n d, (s.field.read n d).toOption = (s.read n).toOption.map (s.set · d)
  given : ∀ d, s.field.given d = (s.get d).isSome
  get_set : ∀ v d, s.get (s.set v d) = some v

theorem Lawful.of_read {s : Slot μ δ} (hread : ∀ n d, s.field.read n d = s.read n >>= fun v => .ok (s.set v d))
    (hgiven : ∀ d, s.field.given d = (s.get d).isSome) (hget : ∀ v d, s.get (s.set v d) = some v) : s.Lawful := by
  refine ⟨fun n d => ?_, hgiven, hget⟩
  rw [hread, toOption_bind]
  cases (s.read n).toOption <;> rfl

structure Apart (s t : Slot μ δ) : Prop where
  names : s.field.name ≠ t.field.name
  swap : ∀ v w d, t.set w (s.set v d) = s.set v (t.set w d)
  left : ∀ w d, s.get (t.set w d) = s.get d
  right : ∀ v d, t.get (s.set v d) = t.get d

theorem Apart.symm {s t : Slot μ δ} (h : s.Apart t) : t.Apart s :=
  ⟨h.names.symm, fun v w d => (h.swap w v d).symm, h.right, h.left⟩

/-- The draft once the values that are there have been put at their places, one after the other. -/
def fill : List (Slot μ δ × Option (Node μ)) → δ → Option δ
  | [], d => some d
  | (_, none) :: more, d => fill more d
  | (s, some n) :: more, d => (s.read n).toOption.bind fun v => fill more (s.set v d)

section Fill

variable {values : List (Slot μ δ × Option (Node μ))} {s : Slot μ δ} {d d' : δ}

theorem fill_get (h : ∀ x ∈ values, x.1.Apart s) (hd : fill values d = some d') : s.get d' = s.get d := by
  induction values generalizing d with
  | nil => rw [Option.some.inj hd]
  | cons x more ih =>
    obtain ⟨hx, hmore⟩ := List.forall_mem_cons.mp h
    obtain ⟨t, _ | n⟩ := x
    · exact ih hmore hd
    · obtain ⟨w, -, hd⟩ := Option.bind_eq_some_iff.mp hd
      rw [ih hmore hd, hx.right]

theorem get_of_fill (hl : ∀ x ∈ values, x.1.Lawful) (ha : (values.map Prod.fst).Pairwise Apart)
    (hd : fill values d = some d') {x : Option (Node μ)} (hx : (s, x) ∈ values) :
    x.elim (s.get d' = s.get d) fun n => ∃ v, s.read n = .ok v ∧ s.get d' = some v := by
  induction values generalizing d with
  | nil => cases hx
  | cons y more ih =>
    obtain ⟨hy, hmore⟩ := List.forall_mem_cons.mp hl
    obtain ⟨hya, hamore⟩ := List.pairwise_cons.mp ha
    have haside : ∀ z ∈ more, z.1.Apart y.1 := fun z hz => (hya z.1 (List.mem_map_of_mem hz)).symm
    rcases List.mem_cons.mp hx with rfl | hx
    · cases x with
      | none => exact fill_get haside hd
      | some n =>
        obtain ⟨v, hv, hd⟩ := Option.bind_eq_some_iff.mp hd
        exact ⟨v, toOption_eq_some.mp hv, by rw [fill_get haside hd, hy.get_set]⟩
    · have hs : y.1.Apart s := hya s (List.mem_map_of_mem (f := Prod.fst) hx)
      obtain ⟨t, _ | n⟩ := y
      · exact ih hmore hamore hd ‹(s, x) ∈ more›
      · obtain ⟨w, -, hd⟩ := Option.bind_eq_some_iff.mp hd
        have hget := ih hmore hamore hd ‹(s, x) ∈ more›
        cases x with
        | none => exact hget.trans (hs.right w d)
        | some m => exact hget

/-- The draft has what the values are read as, and nothing where there is no value. -/
def Holds (values : List (Slot μ δ × Option (Node μ))) (d : δ) : Prop :=
  ∀ x ∈ values, x.2.map x.1.read = (x.1.get d).map .ok

theorem exists_fill (h : ∀ x ∈ values, ∀ n ∈ x.2, ∃ v, x.1.read n = .ok v) (d : δ) : ∃ d', fill values d = some d' := by
  induction values generalizing d with
  | nil => exact ⟨d, rfl⟩
  | cons x more ih =>
    obtain ⟨hx, hmore⟩ := List.forall_mem_cons.mp h
    obtain ⟨t, _ | n⟩ := x
    · exact ih hmore d
    · obtain ⟨v, hv⟩ := hx n rfl
      obtain ⟨d', hd'⟩ := ih hmore (t.set v d)
      exact ⟨d', by rw [fill, hv, toOption_ok, Option.bind_some, hd']⟩

/-- A draft that is nothing but what is at its places is filled from the values if and only if it holds them. -/
theorem fill_eq_some (hl : ∀ x ∈ values, x.1.Lawful) (ha : (values.map Prod.fst).Pairwise Apart)
    (hd : ∀ x ∈ values, x.1.get d = none)
    (hext : ∀ d₁ d₂ : δ, (∀ x ∈ values, x.1.get d₁ = x.1.get d₂) → d₁ = d₂) :
    fill values d = some d' ↔ Holds values d' := by
  have holds : ∀ {d'}, fill values d = some d' → Holds values d' := by
    rintro d' hd' ⟨s, x⟩ hx
    have hget := get_of_fill hl ha hd' hx
    cases x with
    | none => simp [hget.trans (hd _ hx)]
    | some n =>
      obtain ⟨v, hv, hget⟩ := hget
      simp [hv, hget]
  refine ⟨holds, fun h => ?_⟩
  have hreads : ∀ x ∈ values, ∀ n ∈ x.2, ∃ v, x.1.read n = .ok v := by
    rintro ⟨s, _⟩ hx n rfl
    obtain ⟨v, -, hv⟩ := Option.map_eq_some_iff.mp (h _ hx).symm
    exact ⟨v, hv.symm⟩
  obtain ⟨d₁, hd₁⟩ := exists_fill hreads d
  have hsame : d₁ = d' := hext d₁ d' fun x hx =>
    Option.map_injective (fun _ _ => Except.ok.inj) ((holds hd₁ x hx).symm.trans (h x hx))
  rw [hd₁, hsame]

end Fill
end Slot

namespace RecordShape

/-- A record each of whose fields has a place of its own in the draft. -/
structure Slotted (r : RecordShape μ δ) (slots : List (Slot μ δ)) : Prop where
  fields : r.fields = slots.map Slot.field
  lawful : ∀ s ∈ slots, s.Lawful
  apart : slots.Pairwise Slot.Apart

theorem Slotted.apart_of_ne {r : RecordShape μ δ} {slots : List (Slot μ δ)} (h : r.Slotted slots) {s t : Slot μ δ}
    (hs : s ∈ slots) (ht : t ∈ slots) (hne : s ≠ t) : s.Apart t :=
  haveI : Std.Symm (Slot.Apart (μ := μ) (δ := δ)) := ⟨fun _ _ => Slot.Apart.symm⟩
  h.apart.forall hs ht hne

/-- A field that the record finds has a slot. -/
theorem Slotted.exists_slot {r : RecordShape μ δ} {slots : List (Slot μ δ)} (h : r.Slotted slots) {key : String}
    {field : Field μ δ} (hfield : r.fields.find? (·.name = key) = some field) :
    ∃ s ∈ slots, s.field = field ∧ s.field.name = key := by
  rw [h.fields, List.find?_map] at hfield
  obtain ⟨s, hs, rfl⟩ := Option.map_eq_some_iff.mp hfield
  exact ⟨s, List.mem_of_find?_eq_some hs, rfl, by simpa using List.find?_some hs⟩

theorem not_mem_names {r : RecordShape μ δ} {key : String} (h : r.fields.find? (·.name = key) = none) :
    key ∉ r.names := by
  intro hmem
  obtain ⟨f, hf, hname⟩ := List.mem_map.mp hmem
  exact List.find?_eq_none.mp h f hf (by simp [hname])

def valuesOf (slots : List (Slot μ δ)) (ms : Members μ) : List (Slot μ δ × Option (Node μ)) :=
  slots.map fun s => (s, ms.find? s.field.name)

def itemsOf : List (Slot μ δ) → Items μ → List (Slot μ δ × Option (Node μ))
  | s :: slots, .item v rest => (s, some v) :: itemsOf slots rest
  | slots, _ => slots.map fun s => (s, none)

theorem fst_itemsOf (slots : List (Slot μ δ)) (items : Items μ) : (itemsOf slots items).map Prod.fst = slots := by
  induction slots generalizing items with
  | nil => cases items <;> rfl
  | cons s slots ih => cases items <;> simp [itemsOf, ih, Function.comp_def]

section Members

variable {r : RecordShape μ δ} {slots : List (Slot μ δ)}

theorem valuesOf_member {s : Slot μ δ} {before after : List (Slot μ δ)}
    (ha : (before ++ s :: after).Pairwise Slot.Apart) (keyStop keyEnd next : μ) (v : Node μ) (rest : Members μ) :
    valuesOf (before ++ s :: after) (.member s.field.name keyStop keyEnd v next rest) =
      valuesOf before rest ++ (s, some v) :: valuesOf after rest := by
  obtain ⟨-, hafter, hcross⟩ := List.pairwise_append.mp ha
  have hother : ∀ t : Slot μ δ, s.field.name ≠ t.field.name →
      (Members.member s.field.name keyStop keyEnd v next rest).find? t.field.name = rest.find? t.field.name :=
    fun t ht => if_neg ht
  have hself : (Members.member s.field.name keyStop keyEnd v next rest).find? s.field.name = some v := if_pos rfl
  simp only [valuesOf, List.map_append, List.map_cons, hself]
  congr 1
  · exact List.map_congr_left fun t ht => by
      rw [hother t (hcross t ht s List.mem_cons_self).names.symm]
  · congr 1
    exact List.map_congr_left fun t ht => by rw [hother t ((List.pairwise_cons.mp hafter).1 t ht).names]

theorem valuesOf_unknown (h : r.Slotted slots) {key : String} (hkey : key ∉ r.names) (keyStop keyEnd next : μ)
    (v : Node μ) (rest : Members μ) :
    valuesOf slots (.member key keyStop keyEnd v next rest) = valuesOf slots rest := by
  refine List.map_congr_left fun s hs => ?_
  have hne : key ≠ s.field.name := by
    rintro rfl
    exact hkey (List.mem_map.mpr ⟨s.field, h.fields ▸ List.mem_map_of_mem hs, rfl⟩)
  rw [Members.find?, if_neg hne]

theorem fill_done (slots : List (Slot μ δ)) (stop : μ) (d : δ) :
    Slot.fill (valuesOf slots (.done stop)) d = some d := by
  induction slots with
  | nil => rfl
  | cons s slots ih => exact ih

theorem fill_append {s : Slot μ δ} {before after : List (Slot μ δ)}
    (ha : (before ++ s :: after).Pairwise Slot.Apart) {rest : Members μ} (hs : s.field.name ∉ rest.keys) (v : Node μ)
    (d : δ) : Slot.fill (valuesOf before rest ++ (s, some v) :: valuesOf after rest) d =
      (s.read v).toOption.bind fun w => Slot.fill (valuesOf (before ++ s :: after) rest) (s.set w d) := by
  obtain ⟨hbefore, -, hcross⟩ := List.pairwise_append.mp ha
  have hnone : valuesOf (before ++ s :: after) rest = valuesOf before rest ++ (s, none) :: valuesOf after rest := by
    simp [valuesOf, Members.find?_eq_none hs]
  rw [hnone]
  clear hnone ha
  induction before generalizing d with
  | nil => rfl
  | cons t before ih =>
    have hst : t.Apart s := hcross t List.mem_cons_self s List.mem_cons_self
    have ih := fun d => ih d (List.pairwise_cons.mp hbefore).2 fun u hu => hcross u (List.mem_cons_of_mem t hu)
    simp only [valuesOf, List.map_cons, List.cons_append] at ih ⊢
    cases rest.find? t.field.name with
    | none => exact ih d
    | some n =>
      simp only [Slot.fill]
      cases (t.read n).toOption with
      | none => cases (s.read v).toOption <;> rfl
      | some w =>
        simp only [Option.bind_some, ih, hst.swap]

theorem fill_member {s : Slot μ δ} (ha : slots.Pairwise Slot.Apart) (hs : s ∈ slots) (keyStop keyEnd next : μ)
    (v : Node μ) {rest : Members μ} (hk : s.field.name ∉ rest.keys) (d : δ) :
    Slot.fill (valuesOf slots (.member s.field.name keyStop keyEnd v next rest)) d =
      (s.read v).toOption.bind fun w => Slot.fill (valuesOf slots rest) (s.set w d) := by
  obtain ⟨before, after, rfl⟩ := List.append_of_mem hs
  rw [valuesOf_member ha, fill_append ha hk]

/-- An object is read as the values that it has for the fields, in the order of the fields. -/
theorem readMembers_eq_fill (h : r.Slotted slots) {ms : Members μ} {d : δ} (hw : ms.IsWhole) (hn : ms.keys.Nodup)
    (hd : ∀ s ∈ slots, s.field.name ∈ ms.keys → s.get d = none)
    (hc : r.closed = true → ∀ key ∈ ms.keys, key ∈ r.names) :
    (r.readMembers d ms).toOption.map Prod.fst = Slot.fill (valuesOf slots ms) d := by
  cases ms with
  | done stop => exact (fill_done slots stop d).symm
  | keyless found f place => exact hw.elim
  | broken f place => exact hw.elim
  | member key keyStop keyEnd v next rest =>
    obtain ⟨hkey, hrest⟩ := List.nodup_cons.mp hn
    have hcrest : r.closed = true → ∀ k ∈ rest.keys, k ∈ r.names :=
      fun hclosed k hk => hc hclosed k (List.mem_cons_of_mem key hk)
    rw [readMembers]
    split
    · rename_i hfield
      obtain ⟨s, hmem, rfl, rfl⟩ := h.exists_slot hfield
      have hgiven : s.field.given d = false := by
        rw [(h.lawful s hmem).given, hd s hmem List.mem_cons_self]
        rfl
      rw [fill_member h.apart hmem _ _ _ v hkey, hgiven, if_neg Bool.false_ne_true]
      have hreads := (h.lawful s hmem).reads v d
      have hdrest : ∀ w, ∀ t ∈ slots, t.field.name ∈ rest.keys → t.get (s.set w d) = none := by
        intro w t ht htk
        have hne : s ≠ t := by
          rintro rfl
          exact hkey htk
        have hst : s.Apart t := h.apart_of_ne hmem ht hne
        rw [hst.right, hd t ht (List.mem_cons_of_mem _ htk)]
      cases hread : s.field.read v d with
      | error e =>
        rw [hread, toOption_error] at hreads
        have hnone : (s.read v).toOption = none := Option.map_eq_none_iff.mp hreads.symm
        rw [hnone]
        rfl
      | ok d₁ =>
        rw [hread, toOption_ok] at hreads
        obtain ⟨w, hw', rfl⟩ := Option.map_eq_some_iff.mp hreads.symm
        rw [hw', Option.bind_some]
        exact readMembers_eq_fill h hw hrest (hdrest w) hcrest
    · rename_i hfield
      have hnot : key ∉ r.names := not_mem_names hfield
      have hopen : r.closed = false := by
        cases hclosed : r.closed with
        | false => rfl
        | true => exact absurd (hc hclosed key List.mem_cons_self) hnot
      rw [hopen, if_neg Bool.false_ne_true, valuesOf_unknown h hnot]
      exact readMembers_eq_fill h hw hrest (fun s hs hk => hd s hs (List.mem_cons_of_mem key hk)) hcrest

theorem known_of_readMembers {ms : Members μ} {d : δ} {x : δ × μ} (h : r.readMembers d ms = .ok x) :
    ms.IsWhole ∧ (r.closed = true → ∀ key ∈ ms.keys, key ∈ r.names) := by
  cases ms with
  | done stop => exact ⟨trivial, fun _ => List.forall_mem_nil _⟩
  | keyless found f place => cases h
  | broken f place => cases h
  | member key keyStop keyEnd v next rest =>
    rw [readMembers] at h
    split at h
    · rename_i field hfield
      split_ifs at h
      split at h
      · obtain ⟨hw, hc⟩ := known_of_readMembers h
        have hkey : key ∈ r.names := List.mem_map.mpr
          ⟨field, List.mem_of_find?_eq_some hfield, by simpa using List.find?_some hfield⟩
        exact ⟨hw, fun hclosed => List.forall_mem_cons.mpr ⟨hkey, hc hclosed⟩⟩
      · cases h
    · split_ifs at h with hclosed
      obtain ⟨hw, hc⟩ := known_of_readMembers h
      exact ⟨hw, fun hclosed' => absurd hclosed' hclosed⟩

/-- The order of its members makes no difference to what an object is read as. -/
theorem read_perm {r : RecordShape Unit δ} {slots : List (Slot Unit δ)} (h : r.Slotted slots) (origin : Origin) {d : δ}
    (hd : ∀ s ∈ slots, s.get d = none) (hopen : r.closed = false) (build : δ → Option α)
    {ms ns : List (String × Json)} (hp : ms.Perm ns) (hn : (ms.map Prod.fst).Nodup) :
    (r.read origin d build (.object () (.ofJson ms))).toOption =
      (r.read origin d build (.object () (.ofJson ns))).toOption := by
  have hfill : ∀ ls : List (String × Json), (ls.map Prod.fst).Nodup →
      (r.readMembers d (.ofJson ls)).toOption.map Prod.fst = Slot.fill (valuesOf slots (.ofJson ls)) d :=
    fun ls hls => readMembers_eq_fill h (Members.isWhole_ofJson ls) (Members.keys_ofJson ls ▸ hls)
      (fun s hs _ => hd s hs) fun hclosed => absurd (hopen.symm.trans hclosed) Bool.false_ne_true
  have hvalues : valuesOf slots (Members.ofJson ms) = valuesOf slots (Members.ofJson ns) :=
    List.map_congr_left fun s _ => by rw [Members.find?_perm hp hn]
  have hmembers : (r.readMembers d (.ofJson ms)).toOption = (r.readMembers d (.ofJson ns)).toOption := by
    refine Option.map_injective (f := Prod.fst) (fun _ _ hfst => Prod.ext hfst rfl) ?_
    rw [hfill ms hn, hvalues, hfill ns ((hp.map Prod.fst).nodup hn)]
  rw [read, read, toOption_bind, toOption_bind, hmembers]

/-- A draft is finished if it lacks nothing. -/
theorem finish_eq_ok {build : δ → Option α} {d : δ} (stop : μ) {a : α} :
    r.finish build (d, stop) = .ok a ↔ r.missing? d = none ∧ build d = some a := by
  simp only [finish]
  cases r.missing? d <;> cases build d <;> simp

/-- What it takes for a draft to be all there is to a record with the given places. -/
structure Drafted (slots : List (Slot μ δ)) (d : δ) : Prop where
  empty : ∀ s ∈ slots, s.get d = none
  ext : ∀ d₁ d₂ : δ, (∀ s ∈ slots, s.get d₁ = s.get d₂) → d₁ = d₂

theorem fill_eq_some (h : r.Slotted slots) {d d' : δ} (hd : Drafted slots d)
    {values : List (Slot μ δ × Option (Node μ))} (hv : values.map Prod.fst = slots) :
    Slot.fill values d = some d' ↔ Slot.Holds values d' := by
  have hmem : ∀ x ∈ values, x.1 ∈ slots := fun x hx => hv ▸ List.mem_map_of_mem hx
  refine Slot.fill_eq_some (fun x hx => h.lawful _ (hmem x hx)) (hv ▸ h.apart) (fun x hx => hd.empty _ (hmem x hx))
    fun d₁ d₂ hsame => hd.ext d₁ d₂ fun s hs => ?_
  obtain ⟨x, hx, rfl⟩ := List.mem_map.mp (hv ▸ hs)
  exact hsame x hx

theorem bind_finish_eq_ok {build : δ → Option α} {x : Decoded μ (δ × μ)} {a : α} :
    x >>= r.finish build = .ok a ↔
      ∃ d, x.toOption.map Prod.fst = some d ∧ r.missing? d = none ∧ build d = some a := by
  cases x with
  | error e => simp [bind, Except.bind]
  | ok x => simp [← finish_eq_ok x.2]

section Forms

variable [Mark μ] {d : δ} {build : δ → Option α} {a : α} {start : μ}

theorem read_object_eq_ok (h : r.Slotted slots) (hd : Drafted slots d) (origin : Origin) {ms : Members μ}
    (hw : ms.IsWhole) (hn : ms.keys.Nodup) :
    r.read origin d build (.object start ms) = .ok a ↔ (r.closed = true → ∀ key ∈ ms.keys, key ∈ r.names) ∧
      ∃ d', Slot.Holds (valuesOf slots ms) d' ∧ r.missing? d' = none ∧ build d' = some a := by
  have hvalues : (valuesOf slots ms).map Prod.fst = slots := by simp [valuesOf, Function.comp_def]
  rw [read, bind_finish_eq_ok]
  constructor
  · rintro ⟨d', hd', hfinish⟩
    obtain ⟨x, hx, rfl⟩ := Option.map_eq_some_iff.mp hd'
    have hc := (known_of_readMembers (toOption_eq_some.mp hx)).2
    rw [readMembers_eq_fill h hw hn (fun s hs _ => hd.empty s hs) hc, fill_eq_some h hd hvalues] at hd'
    exact ⟨hc, x.1, hd', hfinish⟩
  · rintro ⟨hc, d', hholds, hfinish⟩
    refine ⟨d', ?_, hfinish⟩
    rwa [readMembers_eq_fill h hw hn (fun s hs _ => hd.empty s hs) hc, fill_eq_some h hd hvalues]

/-- A list of settings is read as the values at the positions of the fields, as far as it goes. -/
theorem readItems_eq_fill {items : Items μ} (hl : ∀ s ∈ slots, s.Lawful) (hw : items.IsWhole) (index : Nat) :
    (r.readItems .layers index d (slots.map Slot.field) items).toOption.map Prod.fst =
      if ∀ s ∈ slots.drop (itemCount items), s.field.presence = .defaulted then Slot.fill (itemsOf slots items) d
      else none := by
  induction slots generalizing items index d with
  | nil => cases items <;> first | exact hw.elim | simp [readItems, readEnd, itemsOf, Slot.fill]
  | cons s slots ih =>
    obtain ⟨hs, hl⟩ := List.forall_mem_cons.mp hl
    cases items with
    | broken f place => exact hw.elim
    | item v rest =>
      have hreads := hs.reads v d
      have hrest : rest.IsWhole := hw
      simp only [List.map_cons, readItems, itemCount, List.drop_succ_cons, itemsOf, Slot.fill, toOption_bind,
        toOption_inPart, hreads]
      cases (s.read v).toOption with
      | none => simp
      | some w => simpa using ih hl hrest (index + 1)
    | done stop =>
      have hnone : Slot.fill (itemsOf (s :: slots) (.done stop)) d = Slot.fill (itemsOf slots (.done stop)) d := by
        cases slots <;> rfl
      have ih := ih (d := d) hl hw (index + 1)
      simp only [List.map_cons, readItems, itemCount, List.drop_zero, List.forall_mem_cons, hnone] at ih ⊢
      by_cases hp : s.field.presence = .defaulted
      · simp only [hp, if_true, true_and, ih]
      · simp [hp]

theorem read_list_eq_ok (h : r.Slotted slots) (hd : Drafted slots d) {items : Items μ} (hw : items.IsWhole) :
    r.read .layers d build (.list start items) = .ok a ↔
      (∀ s ∈ slots.drop (itemCount items), s.field.presence = .defaulted) ∧
        ∃ d', Slot.Holds (itemsOf slots items) d' ∧ r.missing? d' = none ∧ build d' = some a := by
  rw [read, if_neg (by simp), bind_finish_eq_ok, h.fields, readItems_eq_fill h.lawful hw]
  simp only [Option.ite_none_right_eq_some, fill_eq_some h hd (fst_itemsOf slots items), and_assoc, exists_and_left]

end Forms

end Members
end RecordShape
end SequencerHub

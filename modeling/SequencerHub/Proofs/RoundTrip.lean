import SequencerHub.Proofs.Records
import SequencerHub.Proofs.Tables
import SequencerHub.Proofs.WireForms

/-! Requests and envelopes come through the wire as they are: as values, as texts, and with their members in any
order. -/
namespace SequencerHub

variable {α τ : Type}

namespace Json

/-- The two ways to read a value: from the value itself, and from its text. -/
structure ReadsAs (j : Json) (typed : ∀ {μ : Type}, Node μ → Decoded μ α) (a : α) : Prop where
  value : decodeJson typed j = .ok a
  text : decodeText JsonText.depthLimit typed j.write = .ok a

/-- Whether two objects have the same members, in whatever order. -/
def Reorders (j k : Json) : Prop := ∃ ms ns, j = .object ms ∧ k = .object ns ∧ ms.Perm ns

/-- What it means that nothing of an object is lost on the wire. The members are sorted when the object is made a
value before it is sent. -/
structure Travels (j : Json) (typed : ∀ {μ : Type}, Node μ → Decoded μ α) (a : α) : Prop where
  written : j.ReadsAs typed a
  sorted : j.canonical.ReadsAs typed a
  reordered : ∀ k : Json, k.Reorders j → k.ReadsAs typed a

/-- A value without parts whose text tells it exactly. -/
def IsFlat (j : Json) : Prop := j.isExact = true ∧ j.nesting = 0

theorem Reorders.trans {j k l : Json} (hjk : j.Reorders k) (hkl : k.Reorders l) : j.Reorders l := by
  obtain ⟨ms, ns, rfl, rfl, hp⟩ := hjk
  obtain ⟨_, ls, hk, rfl, hq⟩ := hkl
  cases hk
  exact ⟨ms, ls, rfl, rfl, hp.trans hq⟩

theorem IsFlat.canonical {j : Json} (h : j.IsFlat) : j.canonical = j := by
  cases j with
  | array items => exact absurd h.2 (Nat.succ_ne_zero _)
  | object members => exact absurd h.2 (Nat.succ_ne_zero _)
  | _ => rfl

section Flat

variable {ms ns : List (String × Json)}

theorem object_isExact (h : ∀ m ∈ ms, m.2.IsFlat) : (Json.object ms).isExact = true := by
  rw [isExact]
  induction ms with
  | nil => rfl
  | cons m ms ih =>
    obtain ⟨hm, hms⟩ := List.forall_mem_cons.mp h
    rw [membersAreExact, hm.1, ih hms, Bool.and_self]

theorem object_nesting (h : ∀ m ∈ ms, m.2.IsFlat) : (Json.object ms).nesting < JsonText.depthLimit := by
  have hzero : nestingOfMembers ms = 0 := by
    induction ms with
    | nil => rfl
    | cons m ms ih =>
      obtain ⟨hm, hms⟩ := List.forall_mem_cons.mp h
      rw [nestingOfMembers, hm.2, ih hms, max_self]
  rw [nesting, hzero]
  decide

theorem insertMembers_perm {sorted : List (String × Json)} (hn : ((ms ++ sorted).map Prod.fst).Nodup) :
    (ms.foldl (fun sorted (k, v) => insertMember k v sorted) sorted).Perm (ms ++ sorted) := by
  induction ms generalizing sorted with
  | nil => exact List.Perm.refl _
  | cons m ms ih =>
    rw [List.cons_append, List.map_cons, List.nodup_cons, List.map_append] at hn
    have hfresh : m.1 ∉ sorted.map Prod.fst := fun hm => hn.1 (List.mem_append_right _ hm)
    have hp : (ms ++ insertMember m.1 m.2 sorted).Perm (m :: (ms ++ sorted)) :=
      (((insertMember_putsInOrder m.1 m.2).perm hfresh).append_left ms).trans List.perm_middle
    refine (ih ?_).trans hp
    rw [(hp.map Prod.fst).nodup_iff, List.map_cons, List.map_append]
    exact List.nodup_cons.mpr hn

/-- Sorting the members of an object loses none of them. -/
theorem canonical_reorders {j : Json} (hj : j.Reorders (.object ns)) (hn : (ns.map Prod.fst).Nodup)
    (h : ∀ m ∈ ns, m.2.IsFlat) : j.canonical.Reorders (.object ns) := by
  obtain ⟨ms, _, rfl, hns, hp⟩ := hj
  cases hns
  have hmembers : ∀ ls : List (String × Json), (∀ m ∈ ls, m.2.IsFlat) → canonicalMembers ls = ls := by
    intro ls hls
    induction ls with
    | nil => rfl
    | cons m ls ih =>
      obtain ⟨hm, hls⟩ := List.forall_mem_cons.mp hls
      rw [canonicalMembers, hm.canonical, ih hls]
  have hflat : ∀ m ∈ ms, m.2.IsFlat := fun m hm => h m (hp.mem_iff.mp hm)
  have hempty : ((ms ++ []).map Prod.fst).Nodup := by
    rw [List.append_nil]
    exact (hp.map Prod.fst).nodup_iff.mpr hn
  have hsorted := insertMembers_perm hempty
  rw [List.append_nil] at hsorted
  exact ⟨_, _, by rw [canonical, hmembers ms hflat, ofMembers], rfl, hsorted.trans hp⟩

theorem get?_of_reorders {j : Json} (hj : j.Reorders (.object ns)) (hn : (ns.map Prod.fst).Nodup) {m : String × Json}
    (hm : m ∈ ns) : j.get? m.1 = some m.2 := by
  obtain ⟨ms, _, rfl, hns, hp⟩ := hj
  cases hns
  have hrev : (ms.reverse.map Prod.fst).Nodup := by
    rw [List.map_reverse, List.nodup_reverse]
    exact (hp.map Prod.fst).nodup_iff.mpr hn
  rw [get?, Members.find?_of_mem hrev (List.mem_reverse.mpr (hp.mem_iff.mpr hm)), Option.map_some]

end Flat
end Json

namespace Tag

variable (t : Tag τ) {tag : τ} {form : τ → Node Unit → Decoded Unit α} {a : α} {name : String}
  {rest : List (String × Json)}

theorem read_of_perm (hname : t.choice.find? name = some tag) (hrest : t.name ∉ rest.map Prod.fst)
    (hform : ∀ ms : List (String × Json), ms.Perm rest → form tag (.object () (.ofJson ms)) = .ok a)
    {ms : List (String × Json)} (hp : ms.Perm ((t.name, .string name) :: rest)) :
    t.read form (Node.ofJson (.object ms)) = .ok a := by
  obtain ⟨before, after, rfl⟩ := List.append_of_mem (hp.mem_iff.mpr List.mem_cons_self)
  have hothers : (before ++ after).Perm rest := (List.perm_middle.symm.trans hp).cons_inv
  have huntagged : ∀ m ∈ before ++ after, m.1 ≠ t.name := fun m hm heq =>
    hrest (heq ▸ List.mem_map_of_mem (hothers.mem_iff.mp hm))
  have hsplit := t.split_ofJson hname before (fun m hm => huntagged m (List.mem_append_left _ hm))
    fun m hm => huntagged m (List.mem_append_right _ hm)
  simp only [read, hsplit, ok_bind, Content.toNode, hform _ hothers]

/-- A tagged value without nested parts comes through the wire. -/
theorem travels (hname : t.choice.find? name = some tag) (hn : (t.name :: rest.map Prod.fst).Nodup)
    (hflat : ∀ m ∈ rest, m.2.IsFlat)
    (hform : ∀ ms : List (String × Json), ms.Perm rest → form tag (.object () (.ofJson ms)) = .ok a) {j : Json}
    (hj : j.Reorders (.object ((t.name, .string name) :: rest))) : j.Travels (t.read form) a := by
  have hall : ∀ m ∈ (t.name, Json.string name) :: rest, m.2.IsFlat := List.forall_mem_cons.mpr ⟨⟨rfl, rfl⟩, hflat⟩
  have hreads : ∀ k : Json, k.Reorders (.object ((t.name, .string name) :: rest)) → k.ReadsAs (t.read form) a := by
    rintro k ⟨ms, _, rfl, hns, hp⟩
    cases hns
    have hread := t.read_of_perm hname (List.nodup_cons.mp hn).1 hform hp
    have hms : ∀ m ∈ ms, m.2.IsFlat := fun m hm => hall m (hp.mem_iff.mp hm)
    refine ⟨by rw [decodeJson, hread], ?_⟩
    refine decodeText_write (Json.object_isExact hms) (Json.object_nesting hms) fun n hbare => toOption_eq_some.mp ?_
    rw [← t.read_bare, hbare, hread, toOption_ok]
  exact ⟨hreads j hj, hreads _ (Json.canonical_reorders hj hn hall), fun k hk => hreads k (hk.trans hj)⟩

end Tag

namespace Request

def tokenSlot : Slot Unit Draft := ⟨tokenField, Node.string, Draft.token, fun v d => { d with token := some v }⟩

def typeSlot : Slot Unit Draft :=
  ⟨typeField, Node.string, Draft.sequencerType, fun v d => { d with sequencerType := some v }⟩

def configSlot : Slot Unit Draft := ⟨configField, Node.string, Draft.config, fun v d => { d with config := some v }⟩

def idSlot : Slot Unit Draft := ⟨idField, readId, Draft.id, fun v d => { d with id := some v }⟩

def xSlot : Slot Unit Draft := ⟨xField, Node.int32, Draft.x, fun v d => { d with x := some v }⟩

def ySlot : Slot Unit Draft := ⟨yField, Node.int32, Draft.y, fun v d => { d with y := some v }⟩

def allSlots : List (Slot Unit Draft) := [tokenSlot, typeSlot, configSlot, idSlot, xSlot, ySlot]

theorem allSlots_lawful : ∀ s ∈ allSlots, s.Lawful := by
  simp only [allSlots, List.forall_mem_cons]
  refine ⟨?_, ?_, ?_, ?_, ?_, ?_, by simp⟩ <;> exact .of_read (fun _ _ => rfl) (fun _ => rfl) fun _ _ => rfl

theorem allSlots_apart : allSlots.Pairwise Slot.Apart := by
  simp only [allSlots, List.pairwise_cons, List.forall_mem_cons]
  refine ⟨⟨?_, ?_, ?_, ?_, ?_, by simp⟩, ⟨?_, ?_, ?_, ?_, by simp⟩, ⟨?_, ?_, ?_, by simp⟩, ⟨?_, ?_, by simp⟩,
    ⟨?_, by simp⟩, by simp, List.Pairwise.nil⟩ <;>
    exact ⟨by decide, fun _ _ _ => rfl, fun _ _ => rfl, fun _ _ => rfl⟩

theorem allSlots_empty : ∀ s ∈ allSlots, s.get {} = none := by
  simp [allSlots, tokenSlot, typeSlot, configSlot, idSlot, xSlot, ySlot]

def slots : Operation → List (Slot Unit Draft)
  | .createSequencer | .openSequencer => [tokenSlot, typeSlot, configSlot]
  | .closeSequencer | .destroySequencer => [tokenSlot, idSlot]
  | .checkSequencer | .sayHello => [idSlot]
  | .computeSum => [idSlot, xSlot, ySlot]

theorem slots_sublist (op : Operation) : (slots op).Sublist allSlots := by
  cases op with
  | computeSum => exact List.drop_sublist 3 allSlots
  | _ => simp [slots, allSlots]

theorem slotted (op : Operation) : (shape op).Slotted (slots op) :=
  ⟨by cases op <;> rfl, fun s hs => allSlots_lawful s ((slots_sublist op).subset hs),
    allSlots_apart.sublist (slots_sublist op)⟩

theorem members_nodup (r : Request) : (tag.name :: r.members.map Prod.fst).Nodup := by
  cases r <;> simp [members, tag]

theorem members_flat (r : Request) : ∀ m ∈ r.members, m.2.IsFlat := by
  have hstring : ∀ s : String, (Json.string s).IsFlat := fun _ => ⟨rfl, rfl⟩
  have hint : ∀ n : Int32, (Json.ofInt32 n).IsFlat := fun _ => ⟨rfl, rfl⟩
  cases r <;> simp [members, hstring, hint]

theorem form_of_perm (r : Request) {ms : List (String × Json)} (hp : ms.Perm r.members) :
    (shape r.op).read .content {} (build r.op) (.object () (.ofJson ms)) = .ok r := by
  have hn : (ms.map Prod.fst).Nodup := (hp.map Prod.fst).nodup_iff.mpr (List.nodup_cons.mp r.members_nodup).2
  have hempty : ∀ s ∈ slots r.op, s.get {} = none := fun s hs => allSlots_empty s ((slots_sublist r.op).subset hs)
  rw [← toOption_eq_some, RecordShape.read_perm (slotted r.op) .content hempty rfl _ hp hn, form_ofJson, toOption_ok]

/-- A request comes through the wire. -/
theorem travels (r : Request) {j : Json} (hj : j.Reorders r.toJson) : j.Travels read r :=
  tag.travels (find?_op r.op) r.members_nodup r.members_flat (fun _ hp => r.form_of_perm hp) hj

theorem get?_op (r : Request) {j : Json} (hj : j.Reorders r.toJson) : j.get? "op" = some (.string r.op.name) :=
  Json.get?_of_reorders hj r.members_nodup List.mem_cons_self

end Request

namespace Payload

/-- What it means that a type can travel: its values have no parts, and are read as they were written. -/
structure Fits (p : Payload α) : Prop where
  faithful : p.Faithful
  flat : ∀ v, (p.write v).IsFlat

theorem int32_fits : Payload.int32.Fits := ⟨int32_faithful, fun _ => ⟨rfl, rfl⟩⟩

theorem boolean_fits : Payload.boolean.Fits := ⟨boolean_faithful, fun _ => ⟨rfl, rfl⟩⟩

theorem string_fits : Payload.string.Fits := ⟨fun _ => rfl, fun _ => ⟨rfl, rfl⟩⟩

theorem id_fits : Payload.id.Fits := ⟨id_faithful, fun _ => ⟨rfl, rfl⟩⟩

theorem unit_fits : Payload.unit.Fits := ⟨fun _ => rfl, fun _ => ⟨rfl, rfl⟩⟩

theorem optional_fits : Payload.optional.Fits := by
  refine ⟨fun v => ?_, fun v => by cases v <;> exact ⟨rfl, rfl⟩⟩
  cases v with
  | none => rfl
  | some n =>
    have hn : Node.int32 (Node.ofJson (.ofInt32 n)) = .ok n := Request.int32_ofJson n
    show some <$> Node.int32 (Node.ofJson (.ofInt32 n)) = .ok (some n)
    rw [hn]
    rfl

end Payload

namespace Envelope

def kindSlot : Slot Unit FailureDraft :=
  ⟨failureShape.fields[0], ErrorKind.choice.read .content, FailureDraft.kind, fun v d => { d with kind := some v }⟩

def errorSlot : Slot Unit FailureDraft :=
  ⟨failureShape.fields[1], Node.string, FailureDraft.error, fun v d => { d with error := some v }⟩

theorem failure_slotted : failureShape.Slotted [kindSlot, errorSlot] := by
  refine ⟨rfl, ?_, ?_⟩
  · simp only [List.forall_mem_cons]
    refine ⟨?_, ?_, by simp⟩ <;> exact .of_read (fun _ _ => rfl) (fun _ => rfl) fun _ _ => rfl
  · have hapart : kindSlot.Apart errorSlot := ⟨by decide, fun _ _ _ => rfl, fun _ _ => rfl, fun _ _ => rfl⟩
    simpa using hapart

def failureJson (k : ErrorKind) (e : String) : Json :=
  .object [("error", .string e), ("kind", .string k.name), ("status", .string "failure")]

theorem failure_travels (p : Payload α) (k : ErrorKind) (e : String) {j : Json} (hj : j.Reorders (failureJson k e)) :
    j.Travels (read p) (.failure k e) := by
  have hfront : (failureJson k e).Reorders
      (.object [("status", .string "failure"), ("error", .string e), ("kind", .string k.name)]) :=
    ⟨_, _, rfl, rfl, List.perm_append_singleton _ [_, _]⟩
  have hname : tag.choice.find? "failure" = some .failure := rfl
  refine tag.travels hname (by simp [tag]) ?_ (fun ms hp => ?_) (hj.trans hfront)
  · simp only [List.forall_mem_cons]
    exact ⟨⟨rfl, rfl⟩, ⟨rfl, rfl⟩, by simp⟩
  · have hn : (ms.map Prod.fst).Nodup := (hp.map Prod.fst).nodup_iff.mpr (by simp)
    have hempty : ∀ s ∈ [kindSlot, errorSlot], s.get {} = none := by simp [kindSlot, errorSlot]
    have hform := form_failure p k e
    rw [readForm, ← toOption_eq_some] at hform ⊢
    rw [RecordShape.read_perm failure_slotted .content hempty rfl _ hp hn, hform]

theorem success_travels {p : Payload α} (hp : p.Fits) (v : α) {j : Json}
    (hj : j.Reorders ((success v).toJson p.write)) : j.Travels (read p) (.success v) := by
  have hname : tag.choice.find? "success" = some .success := rfl
  refine tag.travels hname (by simp [tag]) ?_ (fun ms hms => ?_) hj
  · simpa using hp.flat v
  · obtain rfl := List.perm_singleton.mp hms
    exact form_success hp.faithful v

end Envelope

/-- What it means that envelopes of a type come through the wire. A failure is the same to every type. -/
structure Payload.RoundTrips (p : Payload α) : Prop where
  travels : ∀ e : Envelope α, (e.toJson p.write).Travels (Envelope.read p) e
  failure : ∀ (k : ErrorKind) (e : String), (Envelope.failure k e : Envelope α).toJson p.write = Envelope.failureJson k e
  accepts : ∀ (k : ErrorKind) (e : String), (Envelope.failureJson k e).Travels (Envelope.read p) (.failure k e)
  ofResult : ∀ e : Envelope α, Envelope.ofResult e.toResult = e
  toResult : ∀ r : Except RemoteError α, (Envelope.ofResult r).toResult = r

theorem Payload.Fits.roundTrips {p : Payload α} (h : p.Fits) : p.RoundTrips where
  travels e := by
    have hself : (e.toJson p.write).Reorders (e.toJson p.write) := by cases e <;> exact ⟨_, _, rfl, rfl, .refl _⟩
    cases e with
    | success v => exact Envelope.success_travels h v hself
    | failure k e => exact Envelope.failure_travels p k e hself
  failure _ _ := rfl
  accepts k e := Envelope.failure_travels p k e ⟨_, _, rfl, rfl, .refl _⟩
  ofResult e := by cases e <;> rfl
  toResult r := by cases r <;> rfl

/-- What it means that the wire gives back what is put on it. -/
structure WireIsTransparent : Prop where
  requests : ∀ r : Request, r.toJson.Travels Request.read r
  operation : ∀ (r : Request) (j : Json), j.Reorders r.toJson → j.get? "op" = some (.string r.op.name)
  int32 : Payload.int32.RoundTrips
  boolean : Payload.boolean.RoundTrips
  string : Payload.string.RoundTrips
  id : Payload.id.RoundTrips
  unit : Payload.unit.RoundTrips
  optional : Payload.optional.RoundTrips

/-- Every request, and every envelope of the types that travel, is read back from its value and from its text. -/
theorem wire_transparent : WireIsTransparent where
  requests r := r.travels ⟨_, _, rfl, rfl, .refl _⟩
  operation r _ hj := r.get?_op hj
  int32 := Payload.int32_fits.roundTrips
  boolean := Payload.boolean_fits.roundTrips
  string := Payload.string_fits.roundTrips
  id := Payload.id_fits.roundTrips
  unit := Payload.unit_fits.roundTrips
  optional := Payload.optional_fits.roundTrips

end SequencerHub

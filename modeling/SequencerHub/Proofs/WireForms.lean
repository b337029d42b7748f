import SequencerHub.Client.Call
import SequencerHub.Proofs.IdText
import SequencerHub.Proofs.JsonText

/-! What is written for the wire is what is read from it: requests, and replies at the type of their values. -/
namespace SequencerHub

variable {μ α τ : Type}

namespace Tag

variable (t : Tag τ) {name : String} {a : τ}

theorem readMembers_aside {ms : List (String × Json)} (h : ∀ m ∈ ms, m.1 ≠ t.name) (rest : List (String × Json))
    (tag : Option τ) (aside : List (String × Json)) : t.readMembers tag aside (.ofJson (ms ++ rest)) =
      t.readMembers tag (aside ++ ms) (.ofJson rest) := by
  induction ms generalizing aside with
  | nil => simp
  | cons m ms ih =>
    obtain ⟨k, j⟩ := m
    have hk : k ≠ t.name := h (k, j) List.mem_cons_self
    simp only [List.cons_append, Members.ofJson, readMembers, if_neg hk, Node.toJson_ofJson, inPart,
      ih fun m hm => h m (List.mem_cons_of_mem _ hm), List.append_assoc, List.nil_append]

theorem readMembers_tag (h : t.choice.find? name = some a) (aside rest : List (String × Json)) :
    t.readMembers none aside (.ofJson ((t.name, .string name) :: rest)) =
      t.readMembers (some a) aside (.ofJson rest) := by
  have hn : t.readName (Node.ofJson (.string name)) = .ok a := by
    simp [readName, Node.ofJson, Node.text, Choice.named, h]
  rw [Members.ofJson, readMembers, if_pos rfl, hn]
  rfl

/-- The tag is found wherever it stands, and all else is set aside in order. -/
theorem split_ofJson (h : t.choice.find? name = some a) (before : List (String × Json)) {after : List (String × Json)}
    (hb : ∀ m ∈ before, m.1 ≠ t.name) (ha : ∀ m ∈ after, m.1 ≠ t.name) :
    t.split (Node.ofJson (.object (before ++ (t.name, .string name) :: after))) =
      .ok (a, .members (before ++ after)) := by
  have hafter : t.readMembers (some a) before (.ofJson after) = .ok (a, .members (before ++ after)) := by
    rw [← List.append_nil after, t.readMembers_aside ha, List.append_nil]
    rfl
  rw [Node.ofJson, split, t.readMembers_aside hb, List.nil_append, t.readMembers_tag h, hafter]

end Tag

section Record

variable {δ : Type} {r : RecordShape Unit δ} {draft draft' : δ}

theorem RecordShape.readMembers_member (field : Field Unit δ) {key : String} {v : Json}
    (hfield : r.fields.find? (·.name = key) = some field) (hgiven : field.given draft = false)
    (hread : field.read (Node.ofJson v) draft = .ok draft') (rest : List (String × Json)) :
    r.readMembers draft (.ofJson ((key, v) :: rest)) = r.readMembers draft' (.ofJson rest) := by
  rw [Members.ofJson, RecordShape.readMembers]
  simp only [hfield, hgiven, hread, inPart, Bool.false_eq_true, if_false]

theorem RecordShape.read_of_members (origin : Origin) {ms : List (String × Json)} {build : δ → Option α} {a : α}
    (hread : r.readMembers draft (.ofJson ms) = .ok (draft', ())) (hmissing : r.missing? draft' = none)
    (hbuild : build draft' = some a) : r.read origin draft build (.object () (.ofJson ms)) = .ok a := by
  rw [RecordShape.read, hread, ok_bind, RecordShape.finish, hmissing, hbuild]

end Record

namespace Request

theorem readId_ofJson (id : SequencerId) : readId (Node.ofJson (.string id.toText)) = .ok id := by
  simp [readId, Node.parsed, Node.ofJson, Node.text, SequencerId.ofText_toText, Except.mapError]

theorem int32_ofJson (n : Int32) : (Node.ofJson (.ofInt32 n)).int32 = .ok n := by
  have hlow := n.le_toInt
  have hhigh := n.toInt_lt
  have hfits : -0x80000000 ≤ n.toInt ∧ n.toInt ≤ 0x7fffffff := by omega
  simp only [Json.ofInt32, Node.ofJson, Node.int32, Node.integer, Node.scalar?, Whole.ofInt32, if_pos hfits]
  simp [Functor.map, Except.map]

theorem find?_op (op : Operation) : tag.choice.find? op.name = some op := by
  cases op <;> rfl

theorem members_untagged (r : Request) : ∀ m ∈ r.members, m.1 ≠ tag.name := by
  cases r <;> simp [members, tag]

section Form

variable {op : Operation}

theorem readMembers_construct (h : (shape (μ := Unit) op).fields = [tokenField, typeField, configField])
    (token sequencerType config : String) : (shape op).readMembers {} (.ofJson
      [("token", .string token), ("sequencer_type", .string sequencerType), ("config", .string config)]) =
        .ok ({ token := some token, sequencerType := some sequencerType, config := some config }, ()) := by
  rw [RecordShape.readMembers_member tokenField (by rw [h]; rfl) rfl rfl,
    RecordShape.readMembers_member typeField (by rw [h]; rfl) rfl rfl,
    RecordShape.readMembers_member configField (by rw [h]; rfl) rfl rfl]
  rfl

theorem read_idField (id : SequencerId) (d : Draft) :
    idField.read (Node.ofJson (.string id.toText)) d = .ok { d with id := some id } := by
  simp [idField, readId_ofJson]

theorem read_xField (x : Int32) (d : Draft) :
    xField.read (Node.ofJson (.ofInt32 x)) d = .ok { d with x := some x } := by
  simp [xField, int32_ofJson]

theorem read_yField (y : Int32) (d : Draft) :
    yField.read (Node.ofJson (.ofInt32 y)) d = .ok { d with y := some y } := by
  simp [yField, int32_ofJson]

theorem readMembers_remove (h : (shape (μ := Unit) op).fields = [tokenField, idField]) (token : String)
    (id : SequencerId) : (shape op).readMembers {}
      (.ofJson [("token", .string token), ("sequencer_id", .string id.toText)]) =
        .ok ({ token := some token, id := some id }, ()) := by
  rw [RecordShape.readMembers_member tokenField (by rw [h]; rfl) rfl rfl,
    RecordShape.readMembers_member idField (by rw [h]; rfl) rfl (read_idField id _)]
  rfl

theorem readMembers_id (h : (shape (μ := Unit) op).fields = [idField]) (id : SequencerId) :
    (shape op).readMembers {} (.ofJson [("sequencer_id", .string id.toText)]) = .ok ({ id := some id }, ()) := by
  rw [RecordShape.readMembers_member idField (by rw [h]; rfl) rfl (read_idField id _)]
  rfl

theorem readMembers_sum (id : SequencerId) (x y : Int32) : (shape .computeSum).readMembers {}
    (.ofJson [("sequencer_id", .string id.toText), ("x", .ofInt32 x), ("y", .ofInt32 y)]) =
      .ok ({ id := some id, x := some x, y := some y }, ()) := by
  rw [RecordShape.readMembers_member idField rfl rfl (read_idField id _),
    RecordShape.readMembers_member xField rfl rfl (read_xField x _),
    RecordShape.readMembers_member yField rfl rfl (read_yField y _)]
  rfl

end Form

/-- The members of a request are read as that request, once its operation is known. -/
theorem form_ofJson (r : Request) :
    (shape r.op).read .content {} (build r.op) (.object () (.ofJson r.members)) = .ok r := by
  cases r with
  | construct how token sequencerType config =>
    cases how
    · exact RecordShape.read_of_members .content (readMembers_construct rfl token sequencerType config) rfl rfl
    · exact RecordShape.read_of_members .content (readMembers_construct rfl token sequencerType config) rfl rfl
  | close token id => exact RecordShape.read_of_members .content (readMembers_remove rfl token id) rfl rfl
  | destroy token id => exact RecordShape.read_of_members .content (readMembers_remove rfl token id) rfl rfl
  | check id => exact RecordShape.read_of_members .content (readMembers_id rfl id) rfl rfl
  | sayHello id => exact RecordShape.read_of_members .content (readMembers_id rfl id) rfl rfl
  | computeSum id x y => exact RecordShape.read_of_members .content (readMembers_sum id x y) rfl rfl

theorem read_ofJson (r : Request) : read (Node.ofJson r.toJson) = .ok r := by
  have hs : tag.split (Node.ofJson r.toJson) = .ok (r.op, .members r.members) :=
    tag.split_ofJson (find?_op r.op) [] (by simp) r.members_untagged
  simp only [read, Tag.read, hs, ok_bind, Content.toNode, form_ofJson]

theorem read_of_bare {n : Node μ} {r : Request} (h : n.bare = Node.ofJson r.toJson) : read n = .ok r := by
  have hr : (read n).toOption = some r := by
    rw [read, ← Tag.read_bare, h, ← read, read_ofJson, toOption_ok]
  exact toOption_eq_some.mp hr

end Request

/-- Values of the type are read as they were written. -/
def Payload.Faithful (p : Payload α) : Prop := ∀ v, p.read (Node.ofJson (p.write v)) = .ok v

theorem Payload.id_faithful : Payload.id.Faithful := Request.readId_ofJson

theorem Payload.boolean_faithful : Payload.boolean.Faithful := fun _ => rfl

theorem Payload.int32_faithful : Payload.int32.Faithful := Request.int32_ofJson

namespace Envelope

variable {p : Payload α}

theorem form_success (hp : p.Faithful) (v : α) :
    readForm p .success (.object () (.ofJson [("value", p.write v)])) = .ok (success v) := by
  have hvalue : (some <$> p.read (Node.ofJson (p.write v)) : Decoded Unit (Option α)) = .ok (some v) := by
    rw [hp v]
    rfl
  have hread : (successShape p).readMembers none (.ofJson [("value", p.write v)]) = .ok (some v, ()) := by
    rw [RecordShape.readMembers_member _ rfl rfl hvalue]
    rfl
  have hmissing : (successShape p).missing? (some v) = none := by simp [RecordShape.missing?, successShape]
  exact RecordShape.read_of_members .content hread hmissing rfl

theorem form_failure (p : Payload α) (k : ErrorKind) (e : String) :
    readForm p .failure (.object () (.ofJson [("error", .string e), ("kind", .string k.name)])) =
      .ok (failure k e) := by
  have hread : failureShape.readMembers {} (.ofJson [("error", .string e), ("kind", .string k.name)]) =
      .ok ({ kind := some k, error := some e }, ()) := by
    cases k <;> rfl
  exact RecordShape.read_of_members .content hread rfl rfl

/-- An envelope is read as it was written, at the type of its value. -/
theorem read_toJson (hp : p.Faithful) (e : Envelope α) : read p (Node.ofJson (e.toJson p.write)) = .ok e := by
  cases e with
  | success v =>
    have hs : tag.split (Node.ofJson ((success v).toJson p.write)) = .ok (.success, .members [("value", p.write v)]) :=
      tag.split_ofJson (show tag.choice.find? "success" = some .success from rfl) [] (by simp) (by simp [tag])
    simp only [read, Tag.read, hs, ok_bind, Content.toNode, form_success hp]
  | failure k e =>
    have hs : tag.split (Node.ofJson ((failure k e).toJson p.write)) =
        .ok (.failure, .members [("error", .string e), ("kind", .string k.name)]) :=
      tag.split_ofJson (show tag.choice.find? "failure" = some .failure from rfl)
        [("error", .string e), ("kind", .string k.name)] (by simp [tag]) (by simp)
    simp only [read, Tag.read, hs, ok_bind, Content.toNode, form_failure]

end Envelope

theorem unwrap_toJson {p : Payload α} (hp : p.Faithful) (e : Envelope α) :
    unwrap p (e.toJson p.write) = e.toResult.mapError .remote := by
  rw [unwrap, decodeJson, Envelope.read_toJson hp]

end SequencerHub

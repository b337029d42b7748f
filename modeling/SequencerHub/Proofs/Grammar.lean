import SequencerHub.Proofs.Forms

/-! Which JSON values are requests, and what they say. -/
namespace SequencerHub

namespace Json

def SpellsId (id : SequencerId) (v : Json) : Prop := ∃ text, v = .string text ∧ SequencerId.ofText text = .ok id

def IsText (v : Json) : Prop := ∃ text, v = .string text

def IsId (v : Json) : Prop := ∃ id, SpellsId id v

def IsInt32 (v : Json) : Prop := ∃ n : Int32, v = .ofInt32 n

end Json

/-- A field with the values that do for it. -/
structure FieldForm where
  name : String
  Admits : Json → Prop

/-- Whether a value does for a field, or its absence. An absent token stands for the empty one. -/
def FieldForm.Gives (f : FieldForm) : Option Json → Prop
  | some v => f.Admits v
  | none => f.name = "token" ∧ f.Admits (.string "")

namespace Request

def forms : Request → List FieldForm
  | construct _ token sequencerType config =>
    [⟨"token", (· = .string token)⟩, ⟨"sequencer_type", (· = .string sequencerType)⟩,
      ⟨"config", (· = .string config)⟩]
  | close token id => [⟨"token", (· = .string token)⟩, ⟨"sequencer_id", Json.SpellsId id⟩]
  | destroy token id => [⟨"token", (· = .string token)⟩, ⟨"sequencer_id", Json.SpellsId id⟩]
  | check id => [⟨"sequencer_id", Json.SpellsId id⟩]
  | sayHello id => [⟨"sequencer_id", Json.SpellsId id⟩]
  | computeSum id x y => [⟨"sequencer_id", Json.SpellsId id⟩, ⟨"x", (· = .ofInt32 x)⟩, ⟨"y", (· = .ofInt32 y)⟩]

theorem readId_ofJson_eq_ok {id : SequencerId} {v : Json} : readId (Node.ofJson v) = .ok id ↔ v.SpellsId id := by
  unfold readId Node.parsed Json.SpellsId
  cases htext : (Node.ofJson v).text "a formatted UUID string" with
  | error e =>
    have hno : ∀ text, v ≠ .string text := by
      rintro text rfl
      cases htext
    simp [hno, bind, Except.bind]
  | ok text =>
    obtain rfl := text_ofJson_eq_ok.mp htext
    simp only [ok_bind, Json.string.injEq, exists_eq_left']
    cases SequencerId.ofText text <;> simp [Except.mapError]

section Complete

variable {op : Operation} {d : Draft} {r : Request} {xs : List (Option Json)}

open RecordShape

/-- Whether a request is what a draft amounts to. -/
def Finishes : Request → Draft → Prop
  | construct _ token sequencerType config, d =>
    d.token.getD "" = token ∧ d.sequencerType = some sequencerType ∧ d.config = some config
  | close token id, d => d.token.getD "" = token ∧ d.id = some id
  | destroy token id, d => d.token.getD "" = token ∧ d.id = some id
  | check id, d => d.id = some id
  | sayHello id, d => d.id = some id
  | computeSum id x y, d => d.id = some id ∧ d.x = some x ∧ d.y = some y

theorem missing?_of_finishes (h : r.Finishes d) : (shape r.op : RecordShape Unit Draft).missing? d = none := by
  refine missing?_eq_none.mpr ?_
  change ∀ f ∈ (fields r.op : List (Field Unit Draft)), f.presence = .required → f.given d = true
  cases r
  case construct how token sequencerType config =>
    obtain ⟨-, htype, hconfig⟩ := h
    cases how <;> simp [Request.op, fields, tokenField, typeField, configField, htype, hconfig]
  case close token id | destroy token id => simp [Request.op, fields, tokenField, idField, h.2]
  case check id | sayHello id =>
    have hid : d.id = some id := h
    simp [Request.op, fields, idField, hid]
  case computeSum id x y =>
    obtain ⟨hid, hx, hy⟩ := h
    simp [Request.op, fields, idField, xField, yField, hid, hx, hy]

theorem build_eq_some : build op d = some r ↔ r.op = op ∧ r.Finishes d := by
  constructor
  · intro h
    cases op <;> simp only [build, Option.bind_eq_bind, Option.bind_eq_some_iff, Option.some.injEq] at h
    case createSequencer | openSequencer =>
      obtain ⟨s, hs, c, hc, rfl⟩ := h
      exact ⟨rfl, rfl, hs, hc⟩
    case closeSequencer | destroySequencer =>
      obtain ⟨id, hid, rfl⟩ := h
      exact ⟨rfl, rfl, hid⟩
    case checkSequencer | sayHello =>
      obtain ⟨id, hid, rfl⟩ := h
      exact ⟨rfl, hid⟩
    case computeSum =>
      obtain ⟨id, hid, x, hx, y, hy, rfl⟩ := h
      exact ⟨rfl, hid, hx, hy⟩
  · rintro ⟨rfl, h⟩
    cases r
    case construct how token sequencerType config =>
      obtain ⟨htoken, htype, hconfig⟩ := h
      cases how <;> simp [Request.op, build, htoken, htype, hconfig]
    case close token id | destroy token id => simp [Request.op, build, h.1, h.2]
    case check id | sayHello id =>
      have hid : d.id = some id := h
      simp [Request.op, build, hid]
    case computeSum id x y =>
      obtain ⟨hid, hx, hy⟩ := h
      simp [Request.op, build, hid, hx, hy]

theorem completes_done : (shape op).Completes (build op) [] d [] r ↔ r.op = op ∧ r.Finishes d := by
  rw [completes_nil, build_eq_some]
  refine and_iff_right_of_imp ?_
  rintro ⟨rfl, h⟩
  exact missing?_of_finishes h

theorem op_of_completes (h : (shape op).Completes (build op) (slots op) {} xs r) : r.op = op := by
  obtain ⟨d, -, -, hbuild⟩ := h
  exact (build_eq_some.mp hbuild).1

/-- A record comes out as a request if the values for its fields say the same as the request. -/
theorem completes_self (r : Request) (hlen : xs.length = (slots r.op).length) :
    (shape r.op).Completes (build r.op) (slots r.op) {} xs r ↔ List.Forall₂ FieldForm.Gives r.forms xs := by
  cases r
  case construct how token sequencerType config =>
    have hslots : slots (construct how token sequencerType config).op = [tokenSlot, typeSlot, configSlot] := by
      cases how <;> rfl
    rw [hslots] at hlen ⊢
    obtain ⟨x₁, x₂, x₃, rfl⟩ := List.length_eq_three.mp hlen
    simp only [completes_cons, completes_done, true_and, Finishes]
    cases x₁ <;> cases x₂ <;> cases x₃ <;>
      simp [tokenSlot, typeSlot, configSlot, string_ofJson_eq_ok, forms, FieldForm.Gives, and_comm, and_left_comm]
  case close token id | destroy token id =>
    obtain ⟨x₁, x₂, rfl⟩ := List.length_eq_two.mp hlen
    simp only [Request.op, slots, completes_cons, completes_done, true_and, Finishes]
    cases x₁ <;> cases x₂ <;>
      simp [tokenSlot, idSlot, string_ofJson_eq_ok, readId_ofJson_eq_ok, forms, FieldForm.Gives, and_comm]
  case check id | sayHello id =>
    obtain ⟨x, rfl⟩ := List.length_eq_one_iff.mp hlen
    simp only [Request.op, slots, completes_cons, completes_done, true_and, Finishes]
    cases x <;> simp [idSlot, readId_ofJson_eq_ok, forms, FieldForm.Gives]
  case computeSum id x y =>
    obtain ⟨x₁, x₂, x₃, rfl⟩ := List.length_eq_three.mp hlen
    simp only [Request.op, slots, completes_cons, completes_done, true_and, Finishes]
    cases x₁ <;> cases x₂ <;> cases x₃ <;>
      simp [idSlot, xSlot, ySlot, int32_ofJson_eq_ok, readId_ofJson_eq_ok, forms, FieldForm.Gives]

end Complete

def wanted : Operation → List FieldForm
  | .createSequencer | .openSequencer =>
    [⟨"token", Json.IsText⟩, ⟨"sequencer_type", Json.IsText⟩, ⟨"config", Json.IsText⟩]
  | .closeSequencer | .destroySequencer => [⟨"token", Json.IsText⟩, ⟨"sequencer_id", Json.IsId⟩]
  | .checkSequencer | .sayHello => [⟨"sequencer_id", Json.IsId⟩]
  | .computeSum => [⟨"sequencer_id", Json.IsId⟩, ⟨"x", Json.IsInt32⟩, ⟨"y", Json.IsInt32⟩]

/-- The values that a JSON value of an operation has for fields with the given names. -/
inductive Shows (op : Operation) (names : List String) : Json → List (Option Json) → Prop
  /-- The operation and every field stand there once, a field maybe not at all. Other members are free. -/
  | object {ms : List (String × Json)} {xs : List (Option Json)} (htag : Json.under "op" ms = [.string op.name])
      (hfields : List.Forall₂ (fun name x => Json.under name ms = x.toList) names xs) : Shows op names (.object ms) xs
  /-- The values stand behind the operation, in the order of the fields. -/
  | list (vs : List Json) : Shows op names (.array (.string op.name :: vs)) (vs.map some)

/-- The grammar of an operation whose fields have the given forms. -/
def Written (op : Operation) (forms : List FieldForm) (v : Json) : Prop :=
  ∃ xs, Shows op (forms.map FieldForm.name) v xs ∧ List.Forall₂ FieldForm.Gives forms xs

theorem find?_op_iff {name : String} {op : Operation} : tag.choice.find? name = some op ↔ name = op.name := by
  refine ⟨fun h => ?_, fun h => h ▸ find?_op op⟩
  obtain ⟨x, hx, rfl⟩ := Option.map_eq_some_iff.mp h
  obtain ⟨op, -, rfl⟩ := List.mem_map.mp (List.mem_of_find?_eq_some hx)
  simpa [eq_comm] using List.find?_some hx

theorem names_forms (r : Request) : r.forms.map FieldForm.name = (slots r.op).map (·.field.name) := by
  cases r with
  | construct how token sequencerType config => cases how <;> rfl
  | _ => rfl

theorem form_members_eq_ok {op : Operation} {ms : List (String × Json)} {r : Request} :
    (shape op).read .content {} (build op) (.object () (.ofJson ms)) = .ok r ↔ r.op = op ∧
      ∃ xs, List.Forall₂ (fun name x => Json.under name ms = x.toList) (r.forms.map FieldForm.name) xs ∧
        List.Forall₂ FieldForm.Gives r.forms xs := by
  have hempty : ∀ s ∈ slots op, s.get {} = none := fun s hs => allSlots_empty s ((slots_sublist op).subset hs)
  rw [RecordShape.read_members_eq_ok (slotted op) rfl hempty]
  constructor
  · rintro ⟨hone, hcompletes⟩
    obtain rfl := op_of_completes hcompletes
    refine ⟨rfl, _, ?_, (completes_self r (by simp)).mp hcompletes⟩
    rw [names_forms, List.forall₂_map_left_iff, forall₂_toList]
    exact ⟨hone, rfl⟩
  · rintro ⟨rfl, xs, hxs, hgives⟩
    rw [names_forms, List.forall₂_map_left_iff, forall₂_toList] at hxs
    obtain ⟨hone, rfl⟩ := hxs
    exact ⟨hone, (completes_self r (by simp)).mpr hgives⟩

theorem form_items_eq_ok {op : Operation} {vs : List Json} {r : Request} :
    (shape op).read .content {} (build op) (.list () (.ofJson vs)) = .ok r ↔ r.op = op ∧
      List.Forall₂ FieldForm.Gives r.forms (vs.map some) := by
  have hlast : ∀ s ∈ (slots op).getLast?, s.field.presence ≠ .defaulted := by
    cases op <;> simp [slots, configSlot, configField, idSlot, idField, ySlot, yField]
  rw [RecordShape.read_items_eq_ok (slotted op) hlast]
  constructor
  · rintro ⟨hlength, hcompletes⟩
    obtain rfl := op_of_completes hcompletes
    exact ⟨rfl, (completes_self r (by simpa using hlength)).mp hcompletes⟩
  · rintro ⟨rfl, hgives⟩
    have hlength : vs.length = (slots r.op).length := by
      have hforms := congrArg List.length (names_forms r)
      rw [List.length_map, List.length_map] at hforms
      rw [← hforms, hgives.length_eq, List.length_map]
    exact ⟨hlength, (completes_self r (by simpa using hlength)).mpr hgives⟩

theorem untagged_forms (r : Request) : ∀ name ∈ r.forms.map FieldForm.name, name ≠ tag.name := by
  cases r <;> simp [forms, tag]

theorem under_untagged (r : Request) (ms : List (String × Json)) : ∀ name ∈ r.forms.map FieldForm.name,
    (Json.under name (ms.filter (·.1 ≠ tag.name))).Perm (Json.under name ms) := fun name hname =>
  .of_eq (Json.under_filter (p := fun key => key ≠ tag.name) (by simpa using r.untagged_forms name hname) ms)

/-- A value is read as the request that it spells, in either form. -/
theorem decode_eq_ok {v : Json} {r : Request} : decodeJson read v = .ok r ↔ Written r.op r.forms v := by
  rw [decodeJson_eq_ok, read, tag.read_eq_ok]
  constructor
  · rintro ⟨op, c, hsplit, hform⟩
    cases v with
    | object ms =>
      obtain ⟨rfl, name, htag, hname⟩ := tag.split_object_eq_ok.mp hsplit
      obtain rfl := find?_op_iff.mp hname
      obtain ⟨rfl, xs, hxs, hgives⟩ := form_members_eq_ok.mp hform
      exact ⟨xs, .object htag (forall₂_toList_perm (r.under_untagged ms) hxs), hgives⟩
    | array vs =>
      obtain ⟨name, rest, rfl, hname, rfl⟩ := tag.split_array_eq_ok.mp hsplit
      obtain rfl := find?_op_iff.mp hname
      obtain ⟨rfl, hgives⟩ := form_items_eq_ok.mp hform
      exact ⟨_, .list rest, hgives⟩
    | _ => cases hsplit
  · rintro ⟨xs, hshows, hgives⟩
    cases hshows with
    | @object ms xs htag hfields =>
      refine ⟨r.op, _, tag.split_object_eq_ok.mpr ⟨rfl, _, htag, find?_op r.op⟩, ?_⟩
      have hset := forall₂_toList_perm (fun name hname => (r.under_untagged ms name hname).symm) hfields
      exact form_members_eq_ok.mpr ⟨rfl, xs, hset, hgives⟩
    | list vs =>
      exact ⟨r.op, _, tag.split_array_eq_ok.mpr ⟨_, vs, rfl, find?_op r.op, rfl⟩, form_items_eq_ok.mpr ⟨rfl, hgives⟩⟩

theorem gives_exists {A : Type} {name : String} {P : A → Json → Prop} {x : Option Json} :
    (⟨name, fun v => ∃ a, P a v⟩ : FieldForm).Gives x ↔ ∃ a, (⟨name, P a⟩ : FieldForm).Gives x := by
  cases x with
  | none => simp [FieldForm.Gives]
  | some v => rfl

section Values

variable {xs : List (Option Json)}

theorem exists_construct (h : List.Forall₂ FieldForm.Gives (wanted .createSequencer) xs) (how : Construction) :
    ∃ token sequencerType config,
      List.Forall₂ FieldForm.Gives (construct how token sequencerType config).forms xs := by
  obtain _ | ⟨h₁, _ | ⟨h₂, _ | ⟨h₃, ⟨⟩⟩⟩⟩ := h
  obtain ⟨token, h₁⟩ := gives_exists.mp h₁
  obtain ⟨sequencerType, h₂⟩ := gives_exists.mp h₂
  obtain ⟨config, h₃⟩ := gives_exists.mp h₃
  exact ⟨token, sequencerType, config, .cons h₁ (.cons h₂ (.cons h₃ .nil))⟩

theorem exists_removal (h : List.Forall₂ FieldForm.Gives (wanted .closeSequencer) xs) :
    ∃ token id, List.Forall₂ FieldForm.Gives (close token id).forms xs := by
  obtain _ | ⟨h₁, _ | ⟨h₂, ⟨⟩⟩⟩ := h
  obtain ⟨token, h₁⟩ := gives_exists.mp h₁
  obtain ⟨id, h₂⟩ := gives_exists.mp h₂
  exact ⟨token, id, .cons h₁ (.cons h₂ .nil)⟩

theorem exists_check (h : List.Forall₂ FieldForm.Gives (wanted .checkSequencer) xs) :
    ∃ id, List.Forall₂ FieldForm.Gives (check id).forms xs := by
  obtain _ | ⟨h₁, ⟨⟩⟩ := h
  obtain ⟨id, h₁⟩ := gives_exists.mp h₁
  exact ⟨id, .cons h₁ .nil⟩

theorem exists_sum (h : List.Forall₂ FieldForm.Gives (wanted .computeSum) xs) :
    ∃ id x y, List.Forall₂ FieldForm.Gives (computeSum id x y).forms xs := by
  obtain _ | ⟨h₁, _ | ⟨h₂, _ | ⟨h₃, ⟨⟩⟩⟩⟩ := h
  obtain ⟨id, h₁⟩ := gives_exists.mp h₁
  obtain ⟨x, h₂⟩ := gives_exists.mp h₂
  obtain ⟨y, h₃⟩ := gives_exists.mp h₃
  exact ⟨id, x, y, .cons h₁ (.cons h₂ (.cons h₃ .nil))⟩

theorem wanted_of_forms {r : Request} (h : List.Forall₂ FieldForm.Gives r.forms xs) :
    List.Forall₂ FieldForm.Gives (wanted r.op) xs := by
  cases r
  case construct how token sequencerType config =>
    obtain _ | ⟨h₁, _ | ⟨h₂, _ | ⟨h₃, ⟨⟩⟩⟩⟩ := h
    cases how <;>
      exact .cons (gives_exists.mpr ⟨_, h₁⟩) (.cons (gives_exists.mpr ⟨_, h₂⟩)
        (.cons (gives_exists.mpr ⟨_, h₃⟩) .nil))
  case close token id | destroy token id =>
    obtain _ | ⟨h₁, _ | ⟨h₂, ⟨⟩⟩⟩ := h
    exact .cons (gives_exists.mpr ⟨_, h₁⟩) (.cons (gives_exists.mpr ⟨_, h₂⟩) .nil)
  case check id | sayHello id =>
    obtain _ | ⟨h₁, ⟨⟩⟩ := h
    exact .cons (gives_exists.mpr ⟨_, h₁⟩) .nil
  case computeSum id x y =>
    obtain _ | ⟨h₁, _ | ⟨h₂, _ | ⟨h₃, ⟨⟩⟩⟩⟩ := h
    exact .cons (gives_exists.mpr ⟨_, h₁⟩) (.cons (gives_exists.mpr ⟨_, h₂⟩) (.cons (gives_exists.mpr ⟨_, h₃⟩) .nil))

theorem exists_forms {op : Operation} : List.Forall₂ FieldForm.Gives (wanted op) xs ↔
    ∃ r : Request, r.op = op ∧ List.Forall₂ FieldForm.Gives r.forms xs := by
  constructor
  · intro h
    cases op with
    | createSequencer =>
      obtain ⟨token, sequencerType, config, h⟩ := exists_construct h .create
      exact ⟨_, rfl, h⟩
    | openSequencer =>
      obtain ⟨token, sequencerType, config, h⟩ := exists_construct h .attach
      exact ⟨_, rfl, h⟩
    | closeSequencer =>
      obtain ⟨token, id, h⟩ := exists_removal h
      exact ⟨close token id, rfl, h⟩
    | destroySequencer =>
      obtain ⟨token, id, h⟩ := exists_removal h
      exact ⟨destroy token id, rfl, h⟩
    | checkSequencer =>
      obtain ⟨id, h⟩ := exists_check h
      exact ⟨check id, rfl, h⟩
    | sayHello =>
      obtain ⟨id, h⟩ := exists_check h
      exact ⟨sayHello id, rfl, h⟩
    | computeSum =>
      obtain ⟨id, x, y, h⟩ := exists_sum h
      exact ⟨computeSum id x y, rfl, h⟩
  · rintro ⟨r, rfl, h⟩
    exact wanted_of_forms h

end Values

theorem names_wanted (r : Request) : (wanted r.op).map FieldForm.name = r.forms.map FieldForm.name := by
  cases r with
  | construct how token sequencerType config => cases how <;> rfl
  | _ => rfl

theorem exists_decode_iff {v : Json} : (∃ r, decodeJson read v = .ok r) ↔ ∃ op, Written op (wanted op) v := by
  constructor
  · rintro ⟨r, hr⟩
    obtain ⟨xs, hshows, hgives⟩ := decode_eq_ok.mp hr
    exact ⟨r.op, xs, r.names_wanted ▸ hshows, wanted_of_forms hgives⟩
  · rintro ⟨op, xs, hshows, hgives⟩
    obtain ⟨r, rfl, hforms⟩ := exists_forms.mp hgives
    exact ⟨r, decode_eq_ok.mpr ⟨xs, r.names_wanted ▸ hshows, hforms⟩⟩

theorem decode_of_perm {ms ns : List (String × Json)} {r : Request}
    (h : ∀ name ∈ "op" :: r.forms.map FieldForm.name, (Json.under name ms).Perm (Json.under name ns))
    (hr : decodeJson read (.object ms) = .ok r) : decodeJson read (.object ns) = .ok r := by
  obtain ⟨htagged, hnamed⟩ := List.forall_mem_cons.mp h
  obtain ⟨xs, hshows, hgives⟩ := decode_eq_ok.mp hr
  cases hshows with
  | object htag hfields =>
    rw [htag] at htagged
    exact decode_eq_ok.mpr ⟨xs, .object htagged.symm.eq_singleton (forall₂_toList_perm hnamed hfields), hgives⟩

structure FollowsGrammar : Prop where
  accepts : ∀ v, (∃ r, decodeJson read v = .ok r) ↔ ∃ op, Written op (wanted op) v
  reads : ∀ v r, decodeJson read v = .ok r ↔ Written r.op r.forms v
  order : ∀ ms ns : List (String × Json), ms.Perm ns →
    (decodeJson read (.object ms)).toOption = (decodeJson read (.object ns)).toOption
  additional : ∀ (ms more : List (String × Json)) (r : Request),
    (∀ m ∈ more, m.1 ∉ "op" :: r.forms.map FieldForm.name) →
      (decodeJson read (.object (ms ++ more)) = .ok r ↔ decodeJson read (.object ms) = .ok r)
  again : ∀ r : Request, ∃ ms, r.toJson = .object ms ∧ decodeJson read (.object ms) = .ok r

/-- Exactly the values of the grammar are requests, and they are read as what they say. -/
theorem follows_grammar : FollowsGrammar where
  accepts _ := exists_decode_iff
  reads _ _ := decode_eq_ok
  order ms ns hperm := by
    have hunder : ∀ name, (Json.under name ms).Perm (Json.under name ns) := Json.under_perm hperm
    refine Option.ext fun r => ?_
    rw [toOption_eq_some, toOption_eq_some]
    exact ⟨decode_of_perm fun name _ => hunder name, decode_of_perm fun name _ => (hunder name).symm⟩
  additional ms more r hmore := by
    have hunder : ∀ name ∈ "op" :: r.forms.map FieldForm.name, Json.under name (ms ++ more) = Json.under name ms := by
      intro name hname
      have hnone : Json.under name more = [] := Json.under_eq_nil.mpr fun hmem => by
        obtain ⟨m, hm, rfl⟩ := List.mem_map.mp hmem
        exact hmore m hm hname
      rw [Json.under_append, hnone, List.append_nil]
    exact ⟨decode_of_perm fun name hname => .of_eq (hunder name hname),
      decode_of_perm fun name hname => .of_eq (hunder name hname).symm⟩
  again r := ⟨_, rfl, (r.travels ⟨_, _, rfl, rfl, .refl _⟩).written.value⟩

example : decodeJson read (.object [("config", .string ""), ("note", .null), ("op", .string "create_sequencer"),
    ("sequencer_type", .string "dummy")]) = .ok (construct .create "" "dummy" "") := by
  rfl

end Request
end SequencerHub

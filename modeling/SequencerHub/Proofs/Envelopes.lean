import SequencerHub.Proofs.Grammar

/-! Which JSON values are replies, and what they carry. -/
namespace SequencerHub

namespace Json

def IsNothing (v : Json) : Prop := v = .null ∨ v = .object []

/-- A kind of failure in one of its spellings: its name, or an object that has the name for its only key. -/
inductive SpellsKind (k : ErrorKind) : Json → Prop
  | name : SpellsKind k (.string k.name)
  | key {v : Json} (hv : v.IsNothing) : SpellsKind k (.object [(k.name, v)])

/-- A reply that says that there is a value. Other members of an object are free. -/
inductive SaysValue : Json → Json → Prop
  | object {ms : List (String × Json)} {v : Json} (hstatus : under "status" ms = [.string "success"])
      (hvalue : under "value" ms = [v]) : SaysValue (.object ms) v
  | list (v : Json) : SaysValue (.array [.string "success", v]) v

inductive SaysFailure (e : RemoteError) : Json → Prop
  | object {ms : List (String × Json)} {k : Json} (hstatus : under "status" ms = [.string "failure"])
      (hkind : under "kind" ms = [k]) (herror : under "error" ms = [.string e.message])
      (hk : k.SpellsKind e.kind) : SaysFailure e (.object ms)
  | list {k : Json} (hk : k.SpellsKind e.kind) : SaysFailure e (.array [.string "failure", k, .string e.message])

end Json

theorem ErrorKind.find?_choice_iff {name : String} {k : ErrorKind} : choice.find? name = some k ↔ name = k.name := by
  constructor
  · intro h
    obtain ⟨x, hx, rfl⟩ := Option.map_eq_some_iff.mp h
    obtain rfl : x.1 = name := by simpa using List.find?_some hx
    have hmem := List.mem_of_find?_eq_some hx
    simp only [choice, List.mem_cons, List.not_mem_nil, or_false] at hmem
    rcases hmem with rfl | rfl | rfl | rfl | rfl | rfl <;> rfl
  · rintro rfl
    cases k <;> rfl

theorem unit_content_eq_ok {v : Json} {u : Unit} : (Node.ofJson v).unit .content = .ok u ↔ v.IsNothing := by
  unfold Json.IsNothing
  cases v with
  | object ms => cases ms <;> simp [Node.ofJson, Members.ofJson, Node.unit, Node.scalar?, Node.refuse]
  | _ => simp [Node.ofJson, Node.unit, Node.scalar?, Node.refuse]

theorem ErrorKind.named_eq_ok {name : String} {k : ErrorKind} {place : Unit} :
    choice.named name place = .ok k ↔ name = k.name := by
  rw [← toOption_eq_some, Choice.named_toOption, find?_choice_iff]

theorem ErrorKind.read_content_eq_ok {k : ErrorKind} {v : Json} :
    choice.read .content (Node.ofJson v) = .ok k ↔ v.SpellsKind k := by
  cases v with
  | string name =>
    have hread : choice.read .content (Node.ofJson (.string name)) = choice.named name () := rfl
    rw [hread, named_eq_ok]
    constructor
    · rintro rfl
      exact .name
    · rintro ⟨⟩
      rfl
  | object ms =>
    match ms with
    | [(key, w)] =>
      have hread : choice.read .content (Node.ofJson (.object [(key, w)])) =
          choice.named key () >>= fun a => (Node.ofJson w).unit .content >>= fun _ => .ok a := rfl
      rw [hread, ← toOption_eq_some]
      simp only [toOption_bind, Option.bind_eq_some_iff, toOption_eq_some, named_eq_ok, unit_content_eq_ok]
      constructor
      · rintro ⟨k', rfl, -, hv, heq⟩
        obtain rfl := Except.ok.inj heq
        exact .key hv
      · intro h
        cases h with
        | key hv => exact ⟨k, rfl, (), hv, rfl⟩
    | [] | _ :: _ :: _ => exact ⟨nofun, nofun⟩
  | _ => exact ⟨nofun, nofun⟩

namespace Payload

variable {α : Type}

/-- What it means that JSON values spell the values of a type, which has to be there. -/
structure Spelled (p : Payload α) (Spells : α → Json → Prop) : Prop where
  present : p.absent = none
  reads : ∀ v x, p.read (Node.ofJson x) = .ok v ↔ Spells v x

theorem id_spelled : Payload.id.Spelled Json.SpellsId := ⟨rfl, fun _ _ => Request.readId_ofJson_eq_ok⟩

theorem int32_spelled : Payload.int32.Spelled fun n x => x = .ofInt32 n := ⟨rfl, fun _ _ => int32_ofJson_eq_ok⟩

theorem boolean_spelled : Payload.boolean.Spelled fun b x => x = .bool b := by
  refine ⟨rfl, fun b x => ?_⟩
  cases x <;> simp [boolean, Node.ofJson, Node.boolean, Node.scalar?, Node.refuse]

end Payload

namespace Envelope

variable {α : Type} {p : Payload α} {Spells : α → Json → Prop} {e : Envelope α} {j : Json}

def valueSlot (p : Payload α) : Slot Unit (Option α) :=
  ⟨(successShape p).fields.head (List.cons_ne_nil _ _), p.read, id, fun v _ => some v⟩

theorem success_slotted (p : Payload α) : (successShape p).Slotted [valueSlot p] := by
  have hlawful : (valueSlot p).Lawful := .of_read (fun _ _ => rfl) (fun _ => rfl) fun _ _ => rfl
  exact ⟨rfl, by simpa using hlawful, List.pairwise_singleton _ _⟩

section Complete

open RecordShape

theorem success_missing? (hp : p.absent = none) {v : Option α} : (successShape p).missing? v = none ↔ v.isSome := by
  rw [missing?_eq_none]
  simp [successShape, hp]

theorem failure_missing? {d : FailureDraft} : failureShape.missing? d = none ↔ d.kind.isSome ∧ d.error.isSome := by
  rw [missing?_eq_none]
  simp [failureShape]

theorem success_completes (hp : p.Spelled Spells) {x : Option Json} :
    (successShape p).Completes (fun v => success <$> (v <|> p.absent)) [valueSlot p] none [x] e ↔
      ∃ w v, x = some w ∧ Spells v w ∧ e = success v := by
  cases x with
  | none =>
    rw [completes_cons, Option.elim_none, completes_nil, success_missing? hp.present]
    simp
  | some w =>
    rw [completes_cons, Option.elim_some]
    simp [completes_nil, success_missing? hp.present, valueSlot, hp.reads, eq_comm]

theorem failure_completes {x y : Option Json} :
    failureShape.Completes (fun d => do some (failure (← d.kind) (← d.error))) [kindSlot, errorSlot] {} [x, y] e ↔
      ∃ w k m, x = some w ∧ y = some (.string m) ∧ w.SpellsKind k ∧ e = failure k m := by
  simp only [completes_cons, completes_nil, failure_missing?]
  cases x with
  | none => cases y <;> simp [errorSlot]
  | some w =>
    cases y with
    | none => simp [kindSlot]
    | some v =>
      simp only [kindSlot, errorSlot, ErrorKind.read_content_eq_ok, string_ofJson_eq_ok, Option.elim_some]
      constructor
      · rintro ⟨k, hk, m, rfl, -, he⟩
        exact ⟨w, k, m, rfl, rfl, hk, (Option.some.inj he).symm⟩
      · rintro ⟨w', k, m, hw, hv, hk, rfl⟩
        obtain rfl := Option.some.inj hw
        exact ⟨k, hk, m, Option.some.inj hv, ⟨rfl, rfl⟩, rfl⟩

end Complete

section Forms

variable {ms : List (String × Json)} {vs : List Json}

theorem eq_singleton_iff {xs : List Json} {x : Json} : xs = [x] ↔ xs.length ≤ 1 ∧ xs.head? = some x := by
  match xs with
  | [] => simp
  | [y] => simp
  | _ :: _ :: _ => simp

theorem success_members_eq_ok (hp : p.Spelled Spells) : readForm p .success (.object () (.ofJson ms)) = .ok e ↔
    ∃ w v, Json.under "value" ms = [w] ∧ Spells v w ∧ e = success v := by
  rw [readForm, RecordShape.read_members_eq_ok (success_slotted p) rfl (by simp [valueSlot])]
  simp only [List.map_cons, List.map_nil, success_completes hp, eq_singleton_iff, List.forall_mem_singleton]
  constructor
  · rintro ⟨hlength, w, v, hw, hv, he⟩
    exact ⟨w, v, ⟨hlength, hw⟩, hv, he⟩
  · rintro ⟨w, v, ⟨hlength, hw⟩, hv, he⟩
    exact ⟨hlength, w, v, hw, hv, he⟩

theorem success_items_eq_ok (hp : p.Spelled Spells) : readForm p .success (.list () (.ofJson vs)) = .ok e ↔
    ∃ w v, vs = [w] ∧ Spells v w ∧ e = success v := by
  have hlast : ∀ s ∈ [valueSlot p].getLast?, s.field.presence ≠ .defaulted := by
    simp [valueSlot, successShape, hp.present]
  rw [readForm, RecordShape.read_items_eq_ok (success_slotted p) hlast]
  constructor
  · rintro ⟨hlength, hcompletes⟩
    obtain ⟨x, rfl⟩ := List.length_eq_one_iff.mp hlength
    obtain ⟨w, v, hw, hv, he⟩ := (success_completes hp).mp hcompletes
    exact ⟨w, v, congrArg List.singleton (Option.some.inj hw), hv, he⟩
  · rintro ⟨w, v, rfl, hv, he⟩
    exact ⟨rfl, (success_completes hp).mpr ⟨w, v, rfl, hv, he⟩⟩

theorem failure_members_eq_ok : readForm p .failure (.object () (.ofJson ms)) = .ok e ↔
    ∃ w k m, Json.under "kind" ms = [w] ∧ Json.under "error" ms = [.string m] ∧ w.SpellsKind k ∧ e = failure k m := by
  rw [readForm, RecordShape.read_members_eq_ok failure_slotted rfl (by simp [kindSlot, errorSlot])]
  simp only [List.map_cons, List.map_nil, failure_completes, eq_singleton_iff, List.forall_mem_cons]
  constructor
  · rintro ⟨⟨hkinds, herrors, -⟩, w, k, m, hw, hm, hk, he⟩
    exact ⟨w, k, m, ⟨hkinds, hw⟩, ⟨herrors, hm⟩, hk, he⟩
  · rintro ⟨w, k, m, ⟨hkinds, hw⟩, ⟨herrors, hm⟩, hk, he⟩
    exact ⟨⟨hkinds, herrors, List.forall_mem_nil _⟩, w, k, m, hw, hm, hk, he⟩

theorem failure_items_eq_ok : readForm p .failure (.list () (.ofJson vs)) = .ok e ↔
    ∃ w k m, vs = [w, .string m] ∧ w.SpellsKind k ∧ e = failure k m := by
  rw [readForm, RecordShape.read_items_eq_ok failure_slotted (by simp [errorSlot, failureShape])]
  constructor
  · rintro ⟨hlength, hcompletes⟩
    obtain ⟨x, y, rfl⟩ := List.length_eq_two.mp hlength
    obtain ⟨w, k, m, hw, hm, hk, he⟩ := failure_completes.mp hcompletes
    obtain rfl := Option.some.inj hw
    obtain rfl := Option.some.inj hm
    exact ⟨x, k, m, rfl, hk, he⟩
  · rintro ⟨w, k, m, rfl, hk, he⟩
    exact ⟨rfl, failure_completes.mpr ⟨w, k, m, rfl, rfl, hk, he⟩⟩

end Forms

theorem find?_status_iff {name : String} {s : Status} : tag.choice.find? name = some s ↔
    (name = "success" ∧ s = .success) ∨ (name = "failure" ∧ s = .failure) := by
  by_cases hsuccess : name = "success"
  · subst hsuccess
    simp [tag, Choice.find?, eq_comm]
  · by_cases hfailure : name = "failure"
    · subst hfailure
      simp [tag, Choice.find?, eq_comm]
    · simp [tag, Choice.find?, hsuccess, hfailure, Ne.symm hsuccess, Ne.symm hfailure]

/-- What a JSON value says as a reply whose values are spelled in the given way. -/
def Says (Spells : α → Json → Prop) : Envelope α → Json → Prop
  | success v, j => ∃ w, j.SaysValue w ∧ Spells v w
  | failure k m, j => j.SaysFailure ⟨k, m⟩

/-- A value is read as the reply that it says, in either form. -/
theorem decode_eq_ok (hp : p.Spelled Spells) : decodeJson (read p) j = .ok e ↔ Says Spells e j := by
  have hunder : ∀ key ms, key ≠ tag.name → Json.under key (ms.filter (·.1 ≠ tag.name)) = Json.under key ms :=
    fun key ms hkey => Json.under_filter (p := fun key => key ≠ tag.name) (by simpa using hkey) ms
  rw [decodeJson_eq_ok, read, tag.read_eq_ok]
  constructor
  · rintro ⟨s, c, hsplit, hform⟩
    cases j with
    | object ms =>
      obtain ⟨rfl, name, hstatus, hname⟩ := tag.split_object_eq_ok.mp hsplit
      obtain ⟨rfl, rfl⟩ | ⟨rfl, rfl⟩ := find?_status_iff.mp hname
      · obtain ⟨w, v, hw, hv, rfl⟩ := (success_members_eq_ok hp).mp hform
        exact ⟨w, .object hstatus (hunder "value" ms (by decide) ▸ hw), hv⟩
      · obtain ⟨w, k, m, hw, hm, hk, rfl⟩ := failure_members_eq_ok.mp hform
        exact .object hstatus (hunder "kind" ms (by decide) ▸ hw) (hunder "error" ms (by decide) ▸ hm) hk
    | array vs =>
      obtain ⟨name, rest, rfl, hname, rfl⟩ := tag.split_array_eq_ok.mp hsplit
      obtain ⟨rfl, rfl⟩ | ⟨rfl, rfl⟩ := find?_status_iff.mp hname
      · obtain ⟨w, v, rfl, hv, rfl⟩ := (success_items_eq_ok hp).mp hform
        exact ⟨w, .list w, hv⟩
      · obtain ⟨w, k, m, rfl, hk, rfl⟩ := failure_items_eq_ok.mp hform
        exact .list hk
    | _ => cases hsplit
  · intro h
    cases e with
    | success v =>
      obtain ⟨w, hw, hv⟩ := h
      have hname := find?_status_iff.mpr (.inl ⟨rfl, rfl⟩)
      refine ⟨.success, ?_⟩
      cases hw with
      | @object ms w hstatus hvalue =>
        exact ⟨_, tag.split_object_eq_ok.mpr ⟨rfl, _, hstatus, hname⟩,
          (success_members_eq_ok hp).mpr ⟨w, v, (hunder "value" ms (by decide)).trans hvalue, hv, rfl⟩⟩
      | list =>
        exact ⟨_, tag.split_array_eq_ok.mpr ⟨_, _, rfl, hname, rfl⟩, (success_items_eq_ok hp).mpr ⟨w, v, rfl, hv, rfl⟩⟩
    | failure k m =>
      have hname := find?_status_iff.mpr (.inr ⟨rfl, rfl⟩)
      refine ⟨.failure, ?_⟩
      cases h with
      | @object ms w hstatus hkind herror hk =>
        exact ⟨_, tag.split_object_eq_ok.mpr ⟨rfl, _, hstatus, hname⟩, failure_members_eq_ok.mpr
          ⟨w, k, m, (hunder "kind" ms (by decide)).trans hkind, (hunder "error" ms (by decide)).trans herror, hk, rfl⟩⟩
      | list hk =>
        exact ⟨_, tag.split_array_eq_ok.mpr ⟨_, _, rfl, hname, rfl⟩, failure_items_eq_ok.mpr ⟨_, k, m, rfl, hk, rfl⟩⟩

end Envelope
end SequencerHub

import SequencerHub.Proofs.Layering

/-! Settings as they are drawn from layers. Every value is the one that the highest layer with something to say about
it has for it. -/
namespace SequencerHub

variable {α δ : Type}

namespace Layers

variable {layers : Layers} {v : Setting} {read : Node Layer → Decoded Layer α}

/-- The highest layer says this. -/
def Say (read : Node Layer → Decoded Layer α) (layers : Layers) (a : α) : Prop :=
  ∃ v, layers.head? = some v ∧ read v.toNode = .ok a

/-- The highest layer says this, or no layer says anything. -/
def SayOr (default : α) (read : Node Layer → Decoded Layer α) (layers : Layers) (a : α) : Prop :=
  layers.head?.elim (a = default) fun v => read v.toNode = .ok a

def Plain (read : Node Layer → Decoded Layer α) : Prop := ∀ start members a, read (.object start members) ≠ .ok a

theorem plain_string : Plain Node.string := fun _ _ _ h => by cases h

theorem plain_uint16 : Plain Node.uint16 := fun _ _ _ h => by cases h

theorem plain_uint32 : Plain (Node.option Node.uint32) := fun _ _ _ h => by cases h

theorem plain_uint64 (expected : String) : Plain (Node.option (Node.uint64 expected)) := fun _ _ _ h => by cases h

theorem plain_listOf (read : Node Layer → Decoded Layer α) : Plain (Node.listOf read) := fun _ _ _ h => by cases h

theorem map_read_merged (hp : Plain read) (layers : Layers) (a : α) :
    ((merged layers).map Setting.toNode).map read = some (.ok a) ↔ Say read layers a := by
  cases layers with
  | nil => simp [merged, Say]
  | cons v lower =>
    cases v with
    | scalar value layer => simp [merged_scalar, Say]
    | list items layer => simp [merged_list, Say]
    | dict members layer =>
      obtain ⟨ms, hms⟩ := merged_dict members layer lower
      have hfalse : ∀ ms layer, read (Setting.dict ms layer).toNode ≠ .ok a := fun _ _ => hp _ _ a
      simp [hms, Say, hfalse]

theorem say_of_draft (hp : Plain read) {layers : Layers} {a : α} {x : Option α}
    (h : ((merged layers).map Setting.toNode).map read = x.map .ok) (hx : x = some a) : Say read layers a :=
  (map_read_merged hp layers a).mp (by rw [h, hx, Option.map_some])

theorem merged_eq_none : merged layers = none ↔ layers = [] := by
  cases layers <;> simp [merged]

theorem draft_some (v : Setting) (default a : α) :
    (∃ x : Option α, ((some v).map Setting.toNode).map read = x.map .ok ∧ x.getD default = a) ↔
      read v.toNode = .ok a := by
  refine ⟨?_, fun h => ⟨some a, congrArg some h, rfl⟩⟩
  rintro ⟨_ | b, h, rfl⟩
  · cases h
  · exact Option.some.inj h

/-- What is drafted of a value without members, if there is one, is what the highest layer says, if one does. -/
theorem draft_sayOr (hp : Plain read) (default : α) (layers : Layers) (a : α) :
    (∃ x : Option α, ((merged layers).map Setting.toNode).map read = x.map .ok ∧ x.getD default = a) ↔
      SayOr default read layers a := by
  cases layers with
  | nil => simp [merged, SayOr, eq_comm]
  | cons w lower =>
    have hsome : SayOr default read (w :: lower) a ↔ Say read (w :: lower) a := by simp [SayOr, Say]
    rw [hsome, ← map_read_merged hp, merged, draft_some, Option.map_some, Option.map_some, Option.some.injEq]

end Layers

namespace RecordShape

variable {r : RecordShape Layer δ} {slots : List (Slot Layer δ)} {layers : Layers} {v : Setting}

/-- Whether layers have no fields but those of a record, or a list that is long enough for it. -/
def Admits (r : RecordShape Layer δ) : Layers → Prop
  | .dict members layer :: lower => r.closed = true →
    ∀ key, Layers.member key (.dict members layer :: lower) ≠ [] → key ∈ r.names
  | .list items _ :: _ => ∀ f ∈ r.fields.drop items.length, f.presence = .defaulted
  | _ => False

/-- The values that the layers come to, field by field. -/
def drawn (layers : Layers) : Nat → List (Slot Layer δ) → List (Slot Layer δ × Option (Node Layer))
  | _, [] => []
  | position, s :: slots => (s, (layers.field s.field.name position).merged.map Setting.toNode) ::
    drawn layers (position + 1) slots

theorem valuesOf_drawn {members ms : List (String × Setting)} {layer : Layer} {lower : Layers}
    (ho : Layers.Ordered (.dict members layer :: lower))
    (hm : Layers.merged (.dict members layer :: lower) = some (.dict ms layer)) (position : Nat) :
    valuesOf slots (Setting.toMembers layer ms) = drawn (.dict members layer :: lower) position slots := by
  have hfind := Layers.find?_merged ho
  simp only [hm, Option.elim_some, Setting.members] at hfind
  induction slots generalizing position with
  | nil => rfl
  | cons s slots ih =>
    have ih := ih (position + 1)
    simp only [valuesOf, drawn, List.map_cons, Setting.find?_toMembers, hfind] at ih ⊢
    rw [ih]
    rfl

theorem itemsOf_drawn (items : List Setting) (layer : Layer) (lower : Layers) (position : Nat) :
    itemsOf slots (Setting.toItems layer (items.drop position)) = drawn (.list items layer :: lower) position slots := by
  induction slots generalizing position with
  | nil => cases items.drop position <;> rfl
  | cons s slots ih =>
    have ih := ih (position + 1)
    cases hitem : items[position]? with
    | none =>
      have hdrop : items.drop position = [] := List.drop_eq_nil_of_le (List.getElem?_eq_none_iff.mp hitem)
      have hnext : items.drop (position + 1) = [] := by rw [← List.drop_drop, hdrop, List.drop_nil]
      rw [hnext] at ih
      rw [hdrop, drawn, ← ih, Layers.field, hitem]
      cases slots <;> rfl
    | some v =>
      obtain ⟨hlt, rfl⟩ := List.getElem?_eq_some_iff.mp hitem
      rw [List.drop_eq_getElem_cons hlt, drawn, ← ih, Layers.field, hitem]
      rfl

theorem itemCount_toItems (layer : Layer) (items : List Setting) :
    itemCount (Setting.toItems layer items) = items.length := by
  induction items with
  | nil => rfl
  | cons v items ih => rw [Setting.toItems, itemCount, ih, List.length_cons]

theorem isWhole_toItems (layer : Layer) (items : List Setting) : (Setting.toItems layer items).IsWhole := by
  induction items with
  | nil => trivial
  | cons v items ih => exact ih

/-- Layers are read as a record if they have no other fields and every field is read as what they say of it. -/
theorem read_eq_ok (h : r.Slotted slots) {d : δ} (hd : Drafted slots d) {build : δ → Option α} {a : α}
    (ho : layers.Ordered) (hv : layers.merged = some v) :
    r.read .layers d build v.toNode = .ok a ↔ r.Admits layers ∧
      ∃ d', Slot.Holds (drawn layers 0 slots) d' ∧ r.missing? d' = none ∧ build d' = some a := by
  cases layers with
  | nil => cases hv
  | cons w lower =>
    cases w with
    | scalar value layer =>
      rw [Layers.merged_scalar] at hv
      cases hv
      exact iff_of_false (fun hread => by cases hread) fun hadmits => hadmits.1
    | list items layer =>
      rw [Layers.merged_list] at hv
      cases hv
      have hlong : (∀ s ∈ slots.drop items.length, s.field.presence = .defaulted) ↔
          ∀ f ∈ r.fields.drop items.length, f.presence = .defaulted := by
        rw [h.fields, ← List.map_drop, List.forall_mem_map]
      rw [Setting.toNode, read_list_eq_ok h hd (isWhole_toItems layer items), itemCount_toItems, hlong,
        ← itemsOf_drawn items layer lower 0]
      rfl
    | dict members layer =>
      obtain ⟨ms, hms⟩ := Layers.merged_dict members layer lower
      obtain rfl := Option.some.inj (hms.symm.trans hv)
      have hfind := Layers.find?_merged ho
      have hkeys : ∀ key, key ∈ (Setting.toMembers layer ms).keys ↔
          Layers.member key (.dict members layer :: lower) ≠ [] := by
        intro key
        have hmember : Setting.find? key ms = (Layers.member key (.dict members layer :: lower)).merged := by
          rw [← hfind key, hms]
          rfl
        rw [Setting.keys_toMembers, ← lookup_ne_none, ← Setting.find?_eq_lookup, hmember]
        exact Layers.merged_eq_none.not
      have hs : Setting.Sorted ms := by
        cases ho.merged hms with
        | dict _ hs _ => exact hs
      rw [Setting.toNode, read_object_eq_ok h hd .layers (Setting.isWhole_toMembers layer ms)
        (Setting.keys_toMembers layer ms ▸ hs.nodup), valuesOf_drawn ho hms 0]
      simp only [hkeys, Admits]

end RecordShape

open Layers

namespace ServerSettings

def slots : List (Slot Layer Draft) := [
  ⟨shape.fields[0], Node.string, Draft.homeDir, fun v d => { d with homeDir := some v }⟩,
  ⟨shape.fields[1], Node.string, Draft.host, fun v d => { d with host := some v }⟩,
  ⟨shape.fields[2], Node.uint16, Draft.port, fun v d => { d with port := some v }⟩]

theorem slotted : shape.Slotted slots := by
  refine ⟨rfl, ?_, ?_⟩
  · simp only [slots, List.forall_mem_cons]
    refine ⟨?_, ?_, ?_, by simp⟩ <;> exact .of_read (fun _ _ => rfl) (fun _ => rfl) fun _ _ => rfl
  · simp only [slots, List.pairwise_cons, List.forall_mem_cons]
    refine ⟨⟨?_, ?_, by simp⟩, ⟨?_, by simp⟩, by simp, List.Pairwise.nil⟩ <;>
      exact ⟨by decide, fun _ _ _ => rfl, fun _ _ => rfl, fun _ _ => rfl⟩

theorem drafted : RecordShape.Drafted slots {} := by
  refine ⟨by simp [slots], fun d₁ d₂ h => ?_⟩
  simp only [slots, List.forall_mem_cons] at h
  obtain ⟨hhome, hhost, hport, -⟩ := h
  cases d₁
  cases d₂
  cases hhome
  cases hhost
  cases hport
  rfl

structure Drawn (layers : Layers) (s : ServerSettings) : Prop where
  admits : (shape (μ := Layer)).Admits layers
  homeDir : (layers.field "home_dir" 0).Say Node.string s.homeDir
  host : (layers.field "host" 1).Say Node.string s.host
  port : (layers.field "port" 2).Say Node.uint16 s.port

theorem build_eq_some {d : Draft} {s : ServerSettings} :
    build d = some s ↔ d.homeDir = some s.homeDir ∧ d.host = some s.host ∧ d.port = some s.port := by
  obtain ⟨_ | homeDir, _ | host, _ | port⟩ := d <;> cases s <;> simp [build]

theorem read_eq_ok {layers : Layers} {v : Setting} {s : ServerSettings} (ho : layers.Ordered)
    (hv : layers.merged = some v) : read .layers v.toNode = .ok s ↔ Drawn layers s := by
  rw [read, RecordShape.read_eq_ok slotted drafted ho hv]
  simp only [slots, RecordShape.drawn, Slot.Holds, List.forall_mem_cons, build_eq_some]
  constructor
  · rintro ⟨ha, d', ⟨hhome, hhost, hport, -⟩, -, hhome', hhost', hport'⟩
    exact ⟨ha, say_of_draft plain_string hhome hhome', say_of_draft plain_string hhost hhost',
      say_of_draft plain_uint16 hport hport'⟩
  · intro h
    exact ⟨h.admits, ⟨some s.homeDir, some s.host, some s.port⟩, ⟨(map_read_merged plain_string _ _).mpr h.homeDir,
      (map_read_merged plain_string _ _).mpr h.host, (map_read_merged plain_uint16 _ _).mpr h.port, List.forall_mem_nil _⟩, rfl, rfl,
      rfl, rfl⟩

theorem map_read_merged {layers : Layers} {s : ServerSettings} (ho : layers.Ordered) :
    (layers.merged.map Setting.toNode).map (read .layers) = some (.ok s) ↔ Drawn layers s := by
  cases hv : layers.merged with
  | none =>
    obtain rfl := merged_eq_none.mp hv
    exact iff_of_false (fun hread => by cases hread) fun h => h.admits
  | some v => rw [← read_eq_ok ho hv, Option.map_some, Option.map_some, Option.some.injEq]

end ServerSettings

namespace LogSection

def slots : List (Slot Layer Draft) := [
  ⟨shape.fields[0], Node.string, Draft.consoleLevel, fun v d => { d with consoleLevel := some v }⟩,
  ⟨shape.fields[1], Node.string, Draft.file, fun v d => { d with file := some v }⟩,
  ⟨shape.fields[2], Node.string, Draft.fileLevel, fun v d => { d with fileLevel := some v }⟩,
  ⟨shape.fields[3], Node.option Node.uint32, Draft.maxAgeDays, fun v d => { d with maxAgeDays := some v }⟩,
  ⟨shape.fields[4], Node.option (Node.uint64 "usize"), Draft.maxBackups, fun v d => { d with maxBackups := some v }⟩,
  ⟨shape.fields[5], Node.option (Node.uint64 "u64"), Draft.maxSizeMb, fun v d => { d with maxSizeMb := some v }⟩]

theorem slotted : shape.Slotted slots := by
  refine ⟨rfl, ?_, ?_⟩
  · simp only [slots, List.forall_mem_cons]
    refine ⟨?_, ?_, ?_, ?_, ?_, ?_, by simp⟩ <;> exact .of_read (fun _ _ => rfl) (fun _ => rfl) fun _ _ => rfl
  · simp only [slots, List.pairwise_cons, List.forall_mem_cons]
    refine ⟨⟨?_, ?_, ?_, ?_, ?_, by simp⟩, ⟨?_, ?_, ?_, ?_, by simp⟩, ⟨?_, ?_, ?_, by simp⟩, ⟨?_, ?_, by simp⟩,
      ⟨?_, by simp⟩, by simp, List.Pairwise.nil⟩ <;>
      exact ⟨by decide, fun _ _ _ => rfl, fun _ _ => rfl, fun _ _ => rfl⟩

theorem drafted : RecordShape.Drafted slots {} := by
  refine ⟨by simp [slots], fun d₁ d₂ h => ?_⟩
  simp only [slots, List.forall_mem_cons] at h
  obtain ⟨hconsole, hfile, hlevel, hage, hbackups, hsize, -⟩ := h
  cases d₁
  cases d₂
  cases hconsole
  cases hfile
  cases hlevel
  cases hage
  cases hbackups
  cases hsize
  rfl

structure Drawn (layers : Layers) (s : LogSection) : Prop where
  admits : (shape (μ := Layer)).Admits layers
  consoleLevel : (layers.field "console_level" 0).Say Node.string s.consoleLevel
  file : (layers.field "file" 1).Say Node.string s.file
  fileLevel : (layers.field "file_level" 2).SayOr "" Node.string s.fileLevel
  maxAgeDays : (layers.field "max_age_days" 3).SayOr none (Node.option Node.uint32) s.maxAgeDays
  maxBackups : (layers.field "max_backups" 4).SayOr none (Node.option (Node.uint64 "usize")) s.maxBackups
  maxSizeMb : (layers.field "max_size_mb" 5).SayOr none (Node.option (Node.uint64 "u64")) s.maxSizeMb

theorem build_eq_some {d : Draft} {s : LogSection} :
    build d = some s ↔ d.consoleLevel = some s.consoleLevel ∧ d.file = some s.file ∧ d.fileLevel.getD "" = s.fileLevel ∧
      d.maxAgeDays.getD none = s.maxAgeDays ∧ d.maxBackups.getD none = s.maxBackups ∧
      d.maxSizeMb.getD none = s.maxSizeMb := by
  obtain ⟨_ | consoleLevel, _ | file, fileLevel, maxAgeDays, maxBackups, maxSizeMb⟩ := d <;> cases s <;> simp [build]

theorem read_eq_ok {layers : Layers} {v : Setting} {s : LogSection} (ho : layers.Ordered)
    (hv : layers.merged = some v) : read .layers v.toNode = .ok s ↔ Drawn layers s := by
  rw [read, RecordShape.read_eq_ok slotted drafted ho hv]
  simp only [slots, RecordShape.drawn, Slot.Holds, List.forall_mem_cons, build_eq_some]
  constructor
  · rintro ⟨ha, d', ⟨hconsole, hfile, hlevel, hage, hbackups, hsize, -⟩, -, hconsole', hfile', hlevel', hage', hbackups',
      hsize'⟩
    exact ⟨ha, say_of_draft plain_string hconsole hconsole', say_of_draft plain_string hfile hfile',
      (draft_sayOr plain_string _ _ _).mp ⟨_, hlevel, hlevel'⟩, (draft_sayOr plain_uint32 _ _ _).mp ⟨_, hage, hage'⟩,
      (draft_sayOr (plain_uint64 _) _ _ _).mp ⟨_, hbackups, hbackups'⟩,
      (draft_sayOr (plain_uint64 _) _ _ _).mp ⟨_, hsize, hsize'⟩⟩
  · intro h
    obtain ⟨fileLevel, hlevel, hlevel'⟩ := (draft_sayOr plain_string _ _ _).mpr h.fileLevel
    obtain ⟨maxAgeDays, hage, hage'⟩ := (draft_sayOr plain_uint32 _ _ _).mpr h.maxAgeDays
    obtain ⟨maxBackups, hbackups, hbackups'⟩ := (draft_sayOr (plain_uint64 _) _ _ _).mpr h.maxBackups
    obtain ⟨maxSizeMb, hsize, hsize'⟩ := (draft_sayOr (plain_uint64 _) _ _ _).mpr h.maxSizeMb
    exact ⟨h.admits, ⟨some s.consoleLevel, some s.file, fileLevel, maxAgeDays, maxBackups, maxSizeMb⟩,
      ⟨(map_read_merged plain_string _ _).mpr h.consoleLevel, (map_read_merged plain_string _ _).mpr h.file, hlevel,
        hage, hbackups, hsize, List.forall_mem_nil _⟩, rfl, rfl, rfl, hlevel', hage', hbackups', hsize'⟩

end LogSection
section Tables

variable {β γ : Type} {R : β → γ → Prop} {ms : List (String × β)} {xs : List (String × γ)}

theorem mem_keys_iff {key : String} (h : Option.Rel R (lookup key ms) (lookup key xs)) :
    key ∈ ms.map Prod.fst ↔ key ∈ xs.map Prod.fst := by
  rw [← lookup_ne_none, ← lookup_ne_none]
  generalize lookup key ms = b at h
  generalize lookup key xs = c at h
  cases h <;> simp

variable {k k' : String} {b : β} {c : γ}

theorem first_keys_eq (hm : (((k, b) :: ms).map Prod.fst).Pairwise (· < ·))
    (hx : (((k', c) :: xs).map Prod.fst).Pairwise (· < ·))
    (h : ∀ key, Option.Rel R (lookup key ((k, b) :: ms)) (lookup key ((k', c) :: xs))) : k = k' := by
  have hleft := (mem_keys_iff (h k)).mp List.mem_cons_self
  have hright := (mem_keys_iff (h k')).mpr List.mem_cons_self
  rcases List.mem_cons.mp hleft with heq | hleft
  · exact heq
  · rcases List.mem_cons.mp hright with heq | hright
    · exact heq.symm
    · have hlt : k < k' := (List.pairwise_cons.mp hm).1 k' hright
      have hgt : k' < k := (List.pairwise_cons.mp hx).1 k hleft
      exact absurd (String.lt_trans hlt hgt) (String.lt_irrefl k)

theorem rel_of_cons (hm : (((k, b) :: ms).map Prod.fst).Pairwise (· < ·))
    (hx : (((k, c) :: xs).map Prod.fst).Pairwise (· < ·))
    (h : ∀ key, Option.Rel R (lookup key ((k, b) :: ms)) (lookup key ((k, c) :: xs))) :
    R b c ∧ ∀ key, Option.Rel R (lookup key ms) (lookup key xs) := by
  constructor
  · have hfirst := h k
    rw [lookup_cons, lookup_cons, if_pos rfl, if_pos rfl] at hfirst
    cases hfirst with
    | some hbc => exact hbc
  · intro key
    have hkey := h key
    rw [lookup_cons, lookup_cons] at hkey
    split_ifs at hkey with heq
    · subst heq
      rw [lookup_eq_none fun hmem => String.lt_irrefl k ((List.pairwise_cons.mp hm).1 k hmem),
        lookup_eq_none fun hmem => String.lt_irrefl k ((List.pairwise_cons.mp hx).1 k hmem)]
      exact .none
    · exact hkey

/-- Sorted tables correspond entry by entry if they correspond key by key. -/
theorem forall₂_lookup (hm : (ms.map Prod.fst).Pairwise (· < ·)) (hx : (xs.map Prod.fst).Pairwise (· < ·)) :
    List.Forall₂ (fun m x => m.1 = x.1 ∧ R m.2 x.2) ms xs ↔ ∀ key, Option.Rel R (lookup key ms) (lookup key xs) := by
  constructor
  · intro h key
    induction h with
    | nil => exact .none
    | @cons m x ms xs hmx _ ih =>
      obtain ⟨k, b⟩ := m
      obtain ⟨_, c⟩ := x
      obtain ⟨rfl, hbc⟩ := hmx
      rw [lookup_cons, lookup_cons]
      split_ifs with hk
      · exact .some hbc
      · exact ih (List.pairwise_cons.mp hm).2 (List.pairwise_cons.mp hx).2
  · intro h
    induction ms generalizing xs with
    | nil =>
      cases xs with
      | nil => exact .nil
      | cons x xs =>
        have hx := h x.1
        rw [lookup_cons, if_pos rfl] at hx
        cases hx
    | cons m ms ih =>
      cases xs with
      | nil =>
        have hm := h m.1
        rw [lookup_cons, if_pos rfl] at hm
        cases hm
      | cons x xs =>
        obtain ⟨k, b⟩ := m
        obtain ⟨k', c⟩ := x
        obtain rfl := first_keys_eq hm hx h
        obtain ⟨hbc, hrest⟩ := rel_of_cons hm hx h
        exact .cons ⟨rfl, hbc⟩ (ih (List.pairwise_cons.mp hm).2 (List.pairwise_cons.mp hx).2 hrest)

end Tables

namespace LogSections

theorem insert_last {name : String} {s : LogSection} {sections : LogSections} (h : ∀ n ∈ sections.map Prod.fst, n < name) :
    insert name s sections = sections ++ [(name, s)] := by
  induction sections with
  | nil => rfl
  | cons x sections ih =>
    obtain ⟨hx, h⟩ := List.forall_mem_cons.mp h
    have hlt : ¬ name < x.1 := fun hlt => String.lt_irrefl _ (String.lt_trans hx hlt)
    have hne : ¬ name = x.1 := fun heq => String.lt_irrefl _ (heq ▸ hx)
    rw [insert, if_neg hlt, if_neg hne, ih h, List.cons_append]

/-- Sections that are in the order of their names stay as they are. -/
theorem ofList_sorted {sections : LogSections} (h : (sections.map Prod.fst).Pairwise (· < ·)) :
    ofList sections = sections := by
  have hfold : ∀ front : LogSections, ((front ++ sections).map Prod.fst).Pairwise (· < ·) →
      sections.foldl (fun sorted (x : String × LogSection) => insert x.1 x.2 sorted) front = front ++ sections := by
    clear h
    induction sections with
    | nil => exact fun front _ => (List.append_nil front).symm
    | cons x sections ih =>
      intro front hfront
      rw [List.map_append] at hfront
      have hlast : ∀ n ∈ front.map Prod.fst, n < x.1 := fun n hn =>
        (List.pairwise_append.mp hfront).2.2 n hn x.1 List.mem_cons_self
      rw [List.foldl_cons, insert_last hlast, ih _ (by simpa using hfront)]
      simp
  exact hfold [] h

theorem eachMember_eq_ok {read : Node Layer → Decoded Layer α} {layer : Layer} {ms : List (String × Setting)}
    {xs : List (String × α)} : Node.eachMember read (Setting.toMembers layer ms) = .ok xs ↔
      List.Forall₂ (fun m x => m.1 = x.1 ∧ read m.2.toNode = .ok x.2) ms xs := by
  induction ms generalizing xs with
  | nil => simp [Setting.toMembers, Node.eachMember, eq_comm]
  | cons m ms ih =>
    rw [List.forall₂_cons_left_iff, ← toOption_eq_some]
    simp only [Setting.toMembers, Node.eachMember, toOption_bind, toOption_inPart, Option.bind_eq_some_iff,
      toOption_eq_some, toOption_ok, Option.some.injEq, ih]
    constructor
    · rintro ⟨a, ha, more, hmore, rfl⟩
      exact ⟨_, more, ⟨rfl, ha⟩, hmore, rfl⟩
    · rintro ⟨⟨_, a⟩, more, ⟨rfl, ha⟩, hmore, rfl⟩
      exact ⟨a, ha, more, hmore, rfl⟩

structure Drawn (layers : Layers) (sections : LogSections) : Prop where
  mapping : ∃ members layer lower, layers = .dict members layer :: lower
  sorted : (sections.map Prod.fst).Pairwise (· < ·)
  present : ∀ name s, sections.find? name = some s → LogSection.Drawn (layers.member name) s
  absent : ∀ name, sections.find? name = none → layers.member name = []

theorem read_dict_eq_ok {layer : Layer} {ms : List (String × Setting)} {sections : LogSections}
    (hs : Setting.Sorted ms) : read .layers (Setting.dict ms layer).toNode = .ok sections ↔
      (sections.map Prod.fst).Pairwise (· < ·) ∧
        List.Forall₂ (fun m x => m.1 = x.1 ∧ LogSection.read .layers m.2.toNode = .ok x.2) ms sections := by
  have hread : read .layers (Setting.dict ms layer).toNode = .ok sections ↔
      ∃ xs, Node.eachMember (LogSection.read .layers) (Setting.toMembers layer ms) = .ok xs ∧ ofList xs = sections := by
    simp only [read, Setting.toNode, Node.mapOf]
    cases Node.eachMember (LogSection.read .layers) (Setting.toMembers layer ms) <;> simp
  rw [hread]
  constructor
  · rintro ⟨xs, hxs, rfl⟩
    have hall := eachMember_eq_ok.mp hxs
    have hkeys : ms.map Prod.fst = xs.map Prod.fst := by
      rw [← List.forall₂_eq_eq_eq, List.forall₂_map_left_iff, List.forall₂_map_right_iff]
      exact hall.imp fun _ _ h => h.1
    have hsorted : (xs.map Prod.fst).Pairwise (· < ·) := hkeys ▸ hs
    rw [ofList_sorted hsorted]
    exact ⟨hsorted, hall⟩
  · rintro ⟨hsorted, hall⟩
    exact ⟨sections, eachMember_eq_ok.mpr hall, ofList_sorted hsorted⟩

theorem rel_merged {layers : Layers} (ho : layers.Ordered) (s? : Option LogSection) :
    Option.Rel (fun v s => LogSection.read .layers v.toNode = .ok s) layers.merged s? ↔
      (∀ s, s? = some s → LogSection.Drawn layers s) ∧ (s? = none → layers = []) := by
  cases hv : layers.merged with
  | none =>
    obtain rfl := Layers.merged_eq_none.mp hv
    cases s? with
    | none => simp
    | some s => exact iff_of_false (fun hrel => by cases hrel) fun h => (h.1 s rfl).admits
  | some v =>
    have hne : layers ≠ [] := fun heq => by simp [heq, Layers.merged] at hv
    cases s? with
    | none => exact iff_of_false (fun hrel => by cases hrel) fun h => hne (h.2 rfl)
    | some s => simp [Option.rel_some_some, LogSection.read_eq_ok ho hv]

theorem read_eq_ok {layers : Layers} {v : Setting} {sections : LogSections} (ho : layers.Ordered)
    (hv : layers.merged = some v) : read .layers v.toNode = .ok sections ↔ Drawn layers sections := by
  cases layers with
  | nil => cases hv
  | cons w lower =>
    cases w with
    | scalar value layer =>
      rw [Layers.merged_scalar] at hv
      cases hv
      exact iff_of_false (fun hread => by cases hread) fun h => by simpa using h.mapping
    | list items layer =>
      rw [Layers.merged_list] at hv
      cases hv
      exact iff_of_false (fun hread => by cases hread) fun h => by simpa using h.mapping
    | dict members layer =>
      obtain ⟨ms, hms⟩ := Layers.merged_dict members layer lower
      obtain rfl := Option.some.inj (hms.symm.trans hv)
      have hs : Setting.Sorted ms := by
        cases ho.merged hms with
        | dict _ hs _ => exact hs
      have hfind : ∀ name, lookup name ms = (Layers.member name (.dict members layer :: lower)).merged := by
        intro name
        rw [← Layers.find?_merged ho, hms]
        rfl
      rw [read_dict_eq_ok hs]
      constructor
      · rintro ⟨hsorted, hall⟩
        have hrel := (forall₂_lookup (R := fun v s => LogSection.read .layers v.toNode = .ok s) hs hsorted).mp hall
        simp only [hfind, rel_merged (ho.member _)] at hrel
        exact ⟨⟨members, layer, lower, rfl⟩, hsorted, fun name => (hrel name).1, fun name => (hrel name).2⟩
      · intro h
        refine ⟨h.sorted, (forall₂_lookup (R := fun v s => LogSection.read .layers v.toNode = .ok s) hs h.sorted).mpr ?_⟩
        simp only [hfind, rel_merged (ho.member _)]
        exact fun name => ⟨h.present name, h.absent name⟩

end LogSections

def Logging.Drawn (layers : Layers) : Option LogSections → Prop
  | some sections => LogSections.Drawn layers sections
  | none => ∀ v ∈ layers.head?, ∃ layer, v = .scalar .null layer

namespace Settings

def slots : List (Slot Layer Draft) := [
  ⟨(shape .layers).fields[0], ServerSettings.read .layers, Draft.server, fun v d => { d with server := some v }⟩,
  ⟨(shape .layers).fields[1], Node.option (LogSections.read .layers), Draft.logging,
    fun v d => { d with logging := some v }⟩,
  ⟨(shape .layers).fields[2], Node.listOf (ProviderOptions.read .layers), Draft.providers,
    fun v d => { d with providers := some v }⟩]

theorem slotted : (shape .layers).Slotted slots := by
  refine ⟨rfl, ?_, ?_⟩
  · simp only [slots, List.forall_mem_cons]
    refine ⟨?_, ?_, ?_, by simp⟩ <;> exact .of_read (fun _ _ => rfl) (fun _ => rfl) fun _ _ => rfl
  · simp only [slots, List.pairwise_cons, List.forall_mem_cons]
    refine ⟨⟨?_, ?_, by simp⟩, ⟨?_, by simp⟩, by simp, List.Pairwise.nil⟩ <;>
      exact ⟨by decide, fun _ _ _ => rfl, fun _ _ => rfl, fun _ _ => rfl⟩

theorem drafted : RecordShape.Drafted slots {} := by
  refine ⟨by simp [slots], fun d₁ d₂ h => ?_⟩
  simp only [slots, List.forall_mem_cons] at h
  obtain ⟨hserver, hlogging, hproviders, -⟩ := h
  cases d₁
  cases d₂
  cases hserver
  cases hlogging
  cases hproviders
  rfl

/-- What it means that settings come from layers. -/
structure Drawn (layers : Layers) (s : Settings) : Prop where
  admits : (shape (μ := Layer) .layers).Admits layers
  server : ServerSettings.Drawn (layers.field "server" 0) s.server
  logging : Logging.Drawn (layers.field "logging" 1) s.logging
  providers : (layers.field "providers" 2).SayOr [{}] (Node.listOf (ProviderOptions.read .layers)) s.providers

theorem build_eq_some {d : Draft} {s : Settings} :
    build d = some s ↔ d.server = some s.server ∧ d.logging.getD none = s.logging ∧ d.providers.getD [{}] = s.providers := by
  obtain ⟨_ | server, logging, providers⟩ := d <;> cases s <;> simp [build]

theorem draft_logging {layers : Layers} (ho : layers.Ordered) (logging : Option LogSections) :
    (∃ x : Option (Option LogSections), (layers.merged.map Setting.toNode).map (Node.option (LogSections.read .layers)) =
      x.map .ok ∧ x.getD none = logging) ↔ Logging.Drawn layers logging := by
  have hmapping : ∀ {layers : Layers}, (∀ members layer lower, layers ≠ .dict members layer :: lower) →
      ∀ sections, ¬ LogSections.Drawn layers sections := by
    rintro layers hne sections h
    obtain ⟨members, layer, lower, heq⟩ := h.mapping
    exact hne members layer lower heq
  cases layers with
  | nil =>
    cases logging with
    | none => simp [Logging.Drawn, merged]
    | some sections => simp [Logging.Drawn, merged, hmapping]
  | cons w lower =>
    cases w with
    | scalar value layer =>
      rw [merged_scalar, draft_some]
      cases logging with
      | none =>
        cases value <;>
          simp [Setting.toNode, Node.option, Node.scalar?, Logging.Drawn, LogSections.read, Node.mapOf, Node.refuse]
      | some sections =>
        cases value <;> simp [Setting.toNode, Node.option, Node.scalar?, Logging.Drawn, hmapping, LogSections.read,
          Node.mapOf, Node.refuse]
    | list items layer =>
      rw [merged_list, draft_some]
      refine iff_of_false (fun hread => by cases hread) ?_
      cases logging with
      | none => simp [Logging.Drawn]
      | some sections => exact hmapping (by simp) sections
    | dict members layer =>
      obtain ⟨ms, hms⟩ := merged_dict members layer lower
      have hoption : (Setting.dict ms layer).toNode.option (LogSections.read .layers) =
          some <$> LogSections.read .layers (Setting.dict ms layer).toNode := rfl
      rw [hms, draft_some, hoption]
      cases logging with
      | none =>
        refine iff_of_false ?_ (by simp [Logging.Drawn])
        cases LogSections.read .layers (Setting.dict ms layer).toNode <;> simp
      | some sections =>
        rw [Logging.Drawn, ← LogSections.read_eq_ok ho hms]
        cases LogSections.read .layers (Setting.dict ms layer).toNode <;> simp

theorem read_eq_ok {layers : Layers} {v : Setting} {s : Settings} (ho : layers.Ordered)
    (hv : layers.merged = some v) : read .layers v.toNode = .ok s ↔ Drawn layers s := by
  rw [read, RecordShape.read_eq_ok slotted drafted ho hv]
  simp only [slots, RecordShape.drawn, Slot.Holds, List.forall_mem_cons, build_eq_some]
  constructor
  · rintro ⟨ha, d', ⟨hserver, hlogging, hproviders, -⟩, -, hserver', hlogging', hproviders'⟩
    refine ⟨ha, (ServerSettings.map_read_merged (ho.field _ _)).mp ?_, (draft_logging (ho.field _ _) _).mp
      ⟨_, hlogging, hlogging'⟩, (draft_sayOr (plain_listOf _) _ _ _).mp ⟨_, hproviders, hproviders'⟩⟩
    rw [← Option.map_some, ← hserver']
    exact hserver
  · intro h
    obtain ⟨logging, hlogging, hlogging'⟩ := (draft_logging (ho.field _ _) _).mpr h.logging
    obtain ⟨providers, hproviders, hproviders'⟩ := (draft_sayOr (plain_listOf _) _ _ _).mpr h.providers
    exact ⟨h.admits, ⟨some s.server, logging, providers⟩, ⟨(ServerSettings.map_read_merged (ho.field _ _)).mpr h.server,
      hlogging, hproviders, List.forall_mem_nil _⟩, rfl, rfl, hlogging', hproviders'⟩

end Settings
end SequencerHub

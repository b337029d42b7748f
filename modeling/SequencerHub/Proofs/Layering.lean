import SequencerHub.Config.Load
import SequencerHub.Proofs.Records
import SequencerHub.Proofs.Tables

/-! Settings from several layers, one over the other. What they come to is told by what the layers say of every
member: of a member that some layers do not have, the others say all there is to say. -/
namespace SequencerHub

section Tables

variable {β : Type} {key : String} {b : β} {ms : List (String × β)}

def lookup (key : String) (ms : List (String × β)) : Option β := (ms.find? (·.1 = key)).map (·.2)

theorem lookup_cons (k : String) (b : β) (ms : List (String × β)) (key : String) :
    lookup key ((k, b) :: ms) = if k = key then some b else lookup key ms := by
  by_cases hk : k = key <;> simp [lookup, hk]

theorem mem_of_lookup (h : lookup key ms = some b) : (key, b) ∈ ms := by
  obtain ⟨m, hm, rfl⟩ := Option.map_eq_some_iff.mp h
  obtain rfl : m.1 = key := by simpa using List.find?_some hm
  exact List.mem_of_find?_eq_some hm

theorem lookup_eq_none (h : key ∉ ms.map Prod.fst) : lookup key ms = none := by
  cases hlookup : lookup key ms with
  | none => rfl
  | some b => exact absurd (List.mem_map_of_mem (mem_of_lookup hlookup)) h

theorem lookup_ne_none : lookup key ms ≠ none ↔ key ∈ ms.map Prod.fst := by
  refine ⟨fun h => by_contra fun hn => h (lookup_eq_none hn), fun h => ?_⟩
  obtain ⟨m, hm, rfl⟩ := List.mem_map.mp h
  simpa [lookup, List.find?_eq_none] using ⟨m.2, hm⟩

end Tables

namespace Setting

theorem find?_eq_lookup (key : String) (members : List (String × Setting)) : find? key members = lookup key members :=
  rfl

section Put

variable {key : String} {v : Setting} {members : List (String × Setting)}

theorem find?_put (key : String) (v : Setting) (members : List (String × Setting)) (k : String) :
    find? k (put key v members) = if key = k then some v else find? k members := by
  rw [find?, (put_putsInOrder key v).find? members k]
  split_ifs <;> rfl

def Sorted (members : List (String × Setting)) : Prop := (members.map Prod.fst).Pairwise (· < ·)

theorem Sorted.nil : Sorted [] := List.Pairwise.nil

theorem Sorted.nodup (h : Sorted members) : (members.map Prod.fst).Nodup := by
  refine List.Pairwise.imp ?_ h
  rintro k _ hlt rfl
  exact String.lt_irrefl k hlt

theorem Sorted.put (h : Sorted members) (key : String) (v : Setting) : Sorted (put key v members) :=
  List.pairwise_map.mpr ((put_putsInOrder key v).pairwise (List.pairwise_map.mp h))

end Put

inductive Ordered : Setting → Prop
  | scalar (value : Scalar) (layer : Layer) : Ordered (.scalar value layer)
  | list {items : List Setting} (layer : Layer) : (∀ v ∈ items, Ordered v) → Ordered (.list items layer)
  | dict {members : List (String × Setting)} (layer : Layer) : Sorted members → (∀ m ∈ members, Ordered m.2) →
    Ordered (.dict members layer)

theorem Ordered.put {key : String} {v : Setting} {members : List (String × Setting)} (hv : v.Ordered)
    (h : ∀ m ∈ members, m.2.Ordered) : ∀ m ∈ Setting.put key v members, m.2.Ordered := by
  intro m hm
  rcases (put_putsInOrder key v).mem hm with rfl | hm
  · exact hv
  · exact h m hm

/-- A setting over another one, if there is one. -/
def atop (v : Setting) (lower : Option Setting) : Setting := lower.elim v (merge · v)

def members : Setting → List (String × Setting)
  | .dict members _ => members
  | _ => []

section Merge

variable {earlier later : List (String × Setting)}

theorem mergeMembers_cons (k : String) (v : Setting) (earlier later : List (String × Setting)) :
    mergeMembers earlier ((k, v) :: later) = mergeMembers (put k (v.atop (find? k earlier)) earlier) later := by
  rw [mergeMembers]
  cases find? k earlier <;> rfl

/-- A merged member is what the layers say of it, the later over the earlier one. -/
theorem find?_mergeMembers (hn : (later.map Prod.fst).Nodup) (key : String) :
    find? key (mergeMembers earlier later) =
      (find? key later).elim (find? key earlier) fun v => some (v.atop (find? key earlier)) := by
  induction later generalizing earlier with
  | nil => simp [mergeMembers, find?]
  | cons m later ih =>
    obtain ⟨k, v⟩ := m
    obtain ⟨hk, hn⟩ := List.nodup_cons.mp hn
    rw [mergeMembers_cons, ih hn, find?_put, find?_eq_lookup key (_ :: _), lookup_cons]
    split_ifs with heq
    · obtain rfl := heq
      rw [find?_eq_lookup k later, lookup_eq_none hk]
      rfl
    · rfl

theorem find?_atop (hn : (later.map Prod.fst).Nodup) (layer : Layer) (lower : Option Setting) (key : String) :
    find? key ((Setting.dict later layer).atop lower).members =
      (find? key later).elim (find? key (lower.elim [] members)) fun v =>
        some (v.atop (find? key (lower.elim [] members))) := by
  have halone : find? key later = (find? key later).elim none some := by cases find? key later <;> rfl
  cases lower with
  | none => exact halone
  | some w =>
    cases w with
    | dict earlier _ => exact find?_mergeMembers hn key
    | _ => exact halone

mutual

theorem Ordered.merge {w v : Setting} (hw : w.Ordered) (hv : v.Ordered) : (Setting.merge w v).Ordered := by
  cases v with
  | scalar value layer => exact hv
  | list items layer => exact hv
  | dict later layer =>
    cases w with
    | dict members _ =>
      cases hw with
      | dict _ hsorted hmembers =>
        cases hv with
        | dict _ _ hlater =>
          obtain ⟨hs, hm⟩ := Ordered.mergeMembers hsorted hmembers hlater
          exact .dict layer hs hm
    | scalar _ _ => exact hv
    | list _ _ => exact hv

theorem Ordered.mergeMembers {earlier later : List (String × Setting)} (hs : Sorted earlier)
    (he : ∀ m ∈ earlier, m.2.Ordered) (hl : ∀ m ∈ later, m.2.Ordered) :
    Sorted (Setting.mergeMembers earlier later) ∧ ∀ m ∈ Setting.mergeMembers earlier later, m.2.Ordered := by
  cases later with
  | nil => exact ⟨hs, he⟩
  | cons m later =>
    obtain ⟨k, v⟩ := m
    obtain ⟨hv, hl⟩ := List.forall_mem_cons.mp hl
    rw [mergeMembers_cons]
    refine Ordered.mergeMembers (hs.put _ _) (.put ?_ he) hl
    cases hfind : find? k earlier with
    | none => exact hv
    | some w => exact Ordered.merge (he _ (mem_of_lookup hfind)) hv

end

end Merge

/-! Whatever a layer is made from, it is ordered. -/

mutual

theorem ordered_ofJson (layer : Layer) (j : Json) : (ofJson layer j).Ordered := by
  cases j with
  | array items => exact .list layer (ordered_ofItems layer items)
  | object members =>
    obtain ⟨hs, hm⟩ := ordered_ofMembers layer members .nil (List.forall_mem_nil _)
    exact .dict layer hs hm
  | _ => exact .scalar _ layer

theorem ordered_ofItems (layer : Layer) (items : List Json) : ∀ v ∈ ofItems layer items, v.Ordered := by
  cases items with
  | nil => exact List.forall_mem_nil _
  | cons j items => exact List.forall_mem_cons.mpr ⟨ordered_ofJson layer j, ordered_ofItems layer items⟩

theorem ordered_ofMembers {sorted : List (String × Setting)} (layer : Layer) (members : List (String × Json))
    (hs : Sorted sorted) (ho : ∀ m ∈ sorted, m.2.Ordered) :
    Sorted (ofMembers layer sorted members) ∧ ∀ m ∈ ofMembers layer sorted members, m.2.Ordered := by
  cases members with
  | nil => exact ⟨hs, ho⟩
  | cons m members => exact ordered_ofMembers layer members (hs.put _ _) (.put (ordered_ofJson layer m.2) ho)

end

mutual

theorem ordered_ofNode {n : Node Yaml.Mark} {v : Setting} (h : ofNode n = some v) : v.Ordered := by
  cases n with
  | scalar value start stop => cases h; exact .scalar value .file
  | plain text value start stop => cases h; exact .scalar value .file
  | list start items =>
    obtain ⟨vs, hvs, rfl⟩ := Option.map_eq_some_iff.mp h
    exact .list .file (ordered_ofNodeItems hvs)
  | object start members =>
    obtain ⟨ms, hms, rfl⟩ := Option.map_eq_some_iff.mp h
    obtain ⟨hs, ho⟩ := ordered_ofNodeMembers .nil (List.forall_mem_nil _) hms
    exact .dict .file hs ho
  | broken start fault place => cases h

theorem ordered_ofNodeItems {items : Items Yaml.Mark} {vs : List Setting} (h : ofNodeItems items = some vs) :
    ∀ v ∈ vs, v.Ordered := by
  cases items with
  | done stop => cases h; exact List.forall_mem_nil _
  | broken fault place => cases h
  | item n rest =>
    rw [ofNodeItems] at h
    split at h
    · rename_i v more hv hmore
      cases h
      exact List.forall_mem_cons.mpr ⟨ordered_ofNode hv, ordered_ofNodeItems hmore⟩
    · cases h

theorem ordered_ofNodeMembers {sorted ms : List (String × Setting)} {members : Members Yaml.Mark} (hs : Sorted sorted)
    (ho : ∀ m ∈ sorted, m.2.Ordered) (h : ofNodeMembers sorted members = some ms) :
    Sorted ms ∧ ∀ m ∈ ms, m.2.Ordered := by
  cases members with
  | done stop => cases h; exact ⟨hs, ho⟩
  | broken fault place => cases h
  | keyless found fault place => cases h
  | member key keyStop keyEnd n next rest =>
    rw [ofNodeMembers] at h
    split at h
    · rename_i v hv
      exact ordered_ofNodeMembers (hs.put key v) (.put (ordered_ofNode hv) ho) h
    · cases h

end

section ToNode

variable (layer : Layer) (members : List (String × Setting))

theorem isWhole_toMembers : (toMembers layer members).IsWhole := by
  induction members with
  | nil => trivial
  | cons m members ih => exact ih

theorem keys_toMembers : (toMembers layer members).keys = members.map Prod.fst := by
  induction members with
  | nil => rfl
  | cons m members ih => rw [toMembers, Members.keys, ih, List.map_cons]

theorem find?_toMembers (key : String) : (toMembers layer members).find? key = (find? key members).map toNode := by
  induction members with
  | nil => rfl
  | cons m members ih =>
    rw [toMembers, Members.find?, ih, find?_eq_lookup key (_ :: _), lookup_cons]
    split_ifs <;> rfl

end ToNode
end Setting

namespace Environment

mutual

theorem Text.ordered_value {fuel : Nat} {cs r : List Char} {v : Setting} (h : value fuel cs = some (v, r)) :
    v.Ordered := by
  cases fuel with
  | zero => cases h
  | succ fuel =>
    simp only [value] at h
    split at h
    · cases h; exact .scalar _ _
    · cases h; exact .scalar _ _
    · obtain ⟨⟨ms, r'⟩, hms, heq⟩ := Option.map_eq_some_iff.mp h
      cases heq
      obtain ⟨hs, ho⟩ := Text.ordered_members .nil (List.forall_mem_nil _) hms
      exact .dict _ hs ho
    · obtain ⟨⟨vs, r'⟩, hvs, heq⟩ := Option.map_eq_some_iff.mp h
      cases heq
      exact .list _ (Text.ordered_items (List.forall_mem_nil _) hvs)
    · split at h <;> cases h
      exact .scalar _ _
    · split at h <;> cases h
      exact .scalar _ _
    · cases h; exact .scalar _ _

theorem Text.ordered_items {fuel : Nat} {acc vs : List Setting} {cs r : List Char} (ha : ∀ v ∈ acc, v.Ordered)
    (h : items fuel acc cs = some (vs, r)) : ∀ v ∈ vs, v.Ordered := by
  cases fuel with
  | zero => cases h
  | succ fuel =>
    simp only [items] at h
    split at h
    · cases h
      exact fun v hv => ha v (List.mem_reverse.mp hv)
    · split at h
      · cases h
      · rename_i v r' hv
        exact Text.ordered_items (List.forall_mem_cons.mpr ⟨Text.ordered_value hv, ha⟩) h
      · rename_i v r' hv
        cases h
        exact fun w hw => List.forall_mem_cons.mpr ⟨Text.ordered_value hv, ha⟩ w (List.mem_reverse.mp hw)
      · cases h

theorem Text.ordered_members {fuel : Nat} {acc ms : List (String × Setting)} {cs r : List Char}
    (hs : Setting.Sorted acc) (ha : ∀ m ∈ acc, m.2.Ordered) (h : members fuel acc cs = some (ms, r)) :
    Setting.Sorted ms ∧ ∀ m ∈ ms, m.2.Ordered := by
  cases fuel with
  | zero => cases h
  | succ fuel =>
    simp only [members] at h
    split at h
    · cases h; exact ⟨hs, ha⟩
    · split at h
      · cases h
      · rename_i key r' hkey
        split at h
        · split at h
          · cases h
          · rename_i v r'' hv
            exact Text.ordered_members (hs.put key v) (.put (Text.ordered_value hv) ha) h
          · rename_i v r'' hv
            cases h
            exact ⟨hs.put key v, .put (Text.ordered_value hv) ha⟩
          · cases h
        · cases h

end

theorem Text.ordered_read (s : String) : (Text.read s).Ordered := by
  simp only [Text.read]
  split
  · rename_i v hv
    exact Text.ordered_value hv
  · exact .scalar _ _

theorem ordered_nest {v : Setting} (hv : v.Ordered) (way : List String) : (nest v way).Ordered := by
  induction way with
  | nil => exact hv
  | cons key way ih =>
    exact .dict _ (List.pairwise_singleton _ _) (List.forall_mem_cons.mpr ⟨ih, List.forall_mem_nil _⟩)

theorem ordered_layer (env : List (String × String)) : (layer env).Ordered := by
  refine List.foldlRecOn env _ (.dict _ .nil (List.forall_mem_nil _)) fun acc hacc x _ => ?_
  obtain ⟨name, text⟩ := x
  dsimp only
  cases way? name with
  | none => exact hacc
  | some way => exact hacc.merge (ordered_nest (Text.ordered_read text) way)

end Environment

/-- What the layers say of one thing, the highest first. -/
abbrev Layers := List Setting

namespace Layers

/-- What is said of a member. A layer that is no mapping hides those below it. -/
def member (key : String) : Layers → Layers
  | .dict members _ :: lower => (Setting.find? key members).toList ++ member key lower
  | _ => []

def field (name : String) (position : Nat) : Layers → Layers
  | .list items _ :: _ => items[position]?.toList
  | layers => member name layers

def merged : Layers → Option Setting
  | [] => none
  | v :: lower => some (v.atop (merged lower))

def Ordered (layers : Layers) : Prop := ∀ v ∈ layers, v.Ordered

section Merged

variable {layers lower : Layers}

theorem merged_scalar (value : Scalar) (layer : Layer) (lower : Layers) :
    merged (.scalar value layer :: lower) = some (.scalar value layer) := by
  rw [merged, Setting.atop]
  cases merged lower <;> rfl

theorem merged_list (items : List Setting) (layer : Layer) (lower : Layers) :
    merged (.list items layer :: lower) = some (.list items layer) := by
  rw [merged, Setting.atop]
  cases merged lower <;> rfl

theorem Ordered.member (h : Ordered layers) (key : String) : Ordered (member key layers) := by
  induction layers with
  | nil => exact h
  | cons v lower ih =>
    obtain ⟨hv, hlower⟩ := List.forall_mem_cons.mp h
    cases hv with
    | dict layer hs hm =>
      intro w hw
      rcases List.mem_append.mp hw with hw | hw
      · exact hm _ (mem_of_lookup (Option.mem_toList.mp hw))
      · exact ih hlower w hw
    | _ => exact List.forall_mem_nil _

theorem Ordered.field (h : Ordered layers) (name : String) (position : Nat) : Ordered (field name position layers) := by
  unfold Layers.field
  split
  · cases h _ List.mem_cons_self with
    | list layer hitems => exact fun w hw => hitems w (List.mem_of_getElem? (Option.mem_toList.mp hw))
  · exact h.member name

theorem Ordered.merged (h : Ordered layers) {v : Setting} (hv : merged layers = some v) : v.Ordered := by
  induction layers generalizing v with
  | nil => cases hv
  | cons w lower ih =>
    obtain ⟨hw, hlower⟩ := List.forall_mem_cons.mp h
    obtain rfl := Option.some.inj hv
    cases hm : Layers.merged lower with
    | none => exact hw
    | some u => exact .merge (ih hlower hm) hw

/-- Where all but mappings are taken for empty ones, a member is what the layers say of it. -/
theorem find?_merged (h : Ordered layers) (key : String) :
    Setting.find? key ((merged layers).elim [] Setting.members) = merged (member key layers) := by
  induction layers with
  | nil => rfl
  | cons v lower ih =>
    obtain ⟨hv, hlower⟩ := List.forall_mem_cons.mp h
    cases hv with
    | scalar value layer => rw [merged_scalar]; rfl
    | list layer _ => rw [merged_list]; rfl
    | @dict later layer hs _ =>
      rw [merged, Option.elim_some, Setting.find?_atop hs.nodup, ih hlower, member]
      cases Setting.find? key later <;> rfl

theorem merged_dict (members : List (String × Setting)) (layer : Layer) (lower : Layers) :
    ∃ ms, merged (.dict members layer :: lower) = some (.dict ms layer) := by
  rw [merged, Setting.atop]
  cases merged lower with
  | none => exact ⟨members, rfl⟩
  | some w => cases w <;> exact ⟨_, rfl⟩

end Merged
end Layers
end SequencerHub

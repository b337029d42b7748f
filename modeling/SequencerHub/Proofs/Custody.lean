import Mathlib.Data.List.Nodup
import SequencerHub.Proofs.Traffic

/-! Where the instances of a provider are: in the registry, with a teardown that is to destroy them, or under
destruction. No move puts one in two of these places, nor back into an earlier one. -/
namespace SequencerHub

def Registry.serials (r : Registry) : List Nat := r.map (·.2.serial)

/-- The instances whose destruction has begun. -/
def Ledger.destroyed (l : Ledger) : List Nat := (l.calls.filter (·.2 = .destroy)).map (·.1)

/-- No identifier has been given out twice. -/
def Ledger.Distinct (l : Ledger) : Prop :=
  ∀ a b, a < l.minted → b < l.minted → l.supply a = l.supply b → a = b

namespace Ledger

/-- Numbers that are counted up do not repeat for as long as they fit. -/
theorem distinct_of_counting {l : Ledger} (hs : l.supply = SequencerId.ofNat)
    (hm : l.minted ≤ 0x100000000000000000000000000000000) : l.Distinct := by
  intro a b ha hb hab
  have hv : a % 0x100000000000000000000000000000000 = b % 0x100000000000000000000000000000000 := by
    simpa [hs, SequencerId.ofNat] using hab
  omega

theorem destroyed_of_calls {l l' : Ledger} {more : List (Nat × Call)} (h : l'.calls = l.calls ++ more) :
    l'.destroyed = l.destroyed ++ (more.filter (·.2 = .destroy)).map (·.1) := by
  simp [destroyed, h]

theorem SameBooks.destroyed {l l' : Ledger} (h : l.SameBooks l') : l'.destroyed = l.destroyed := by
  simp only [Ledger.destroyed, h.calls]

theorem Destroys.destroyed {l l' : Ledger} {done : List Instance} (h : l.Destroys done l') :
    l'.destroyed = l.destroyed ++ done.map Instance.serial := by
  rw [destroyed_of_calls h.calls]
  simp [List.filter_map, Function.comp_def]

end Ledger

namespace Traffic

variable (s : Traffic) (m : Move)

def awaited : List Nat := s.teardowns.flatMap fun t => t.pending.map Instance.serial

/-- The instances that are no longer live because they are to be destroyed. -/
def condemned : List Nat := s.awaited ++ s.ledger.destroyed

/-- Every instance that is live or condemned. -/
def tally : List Nat := s.provider.live.serials ++ s.condemned

def taken : Registry := (s.access? m).elim [] (·.takes s.provider.live)

/-- Whether a move takes instances out of the registry in order to destroy them. -/
def Condemns : Move → Prop
  | .request (.destroy _ _) => True
  | .tearDown _ => s.provider.options.teardown = .destroy
  | _ => False

instance : Decidable (s.Condemns m) := by
  unfold Condemns
  split <;> infer_instance

def condemns : Registry := if s.Condemns m then s.taken m else []

def put : Registry := (s.constructs m).toList.map (s.ledger.nextId, ·)

section Registry

variable {s m}

theorem constructs_serial {i : Instance} (h : s.constructs m = some i) : i.serial = s.ledger.built.length := by
  cases m with
  | request r => exact Provider.constructed?_serial h
  | _ => cases h

theorem access?_of_constructs {i : Instance} (h : s.constructs m = some i) :
    s.access? m = some (.insert s.ledger.nextId i) := by
  cases m with
  | request r =>
    cases r with
    | construct how token sequencerType config => exact Option.map_eq_some_iff.mpr ⟨i, h, rfl⟩
    | _ => cases h
  | _ => cases h

theorem constructs_of_access? {id : SequencerId} {i : Instance} (h : s.access? m = some (.insert id i)) :
    s.constructs m = some i ∧ id = s.ledger.nextId := by
  cases m with
  | request r =>
    obtain hr | ⟨i', hi, he⟩ := Provider.access?_cases h
    · cases r <;> cases hr
    · cases he
      exact ⟨hi, rfl⟩
  | _ => cases h

theorem mem_live_of_constructs {i : Instance} (h : s.constructs m = some i) :
    (s.ledger.nextId, i) ∈ (s.step m).provider.live := by
  rw [step_live, access?_of_constructs h]
  simp [Access.on]

theorem mem_live_step {x : SequencerId × Instance} (h : x ∈ (s.step m).provider.live) :
    x ∈ s.provider.live ∨ ∃ i, s.constructs m = some i ∧ x = (s.ledger.nextId, i) := by
  rw [step_live] at h
  cases ha : s.access? m with
  | none => exact .inl (by simpa [ha] using h)
  | some a =>
    rw [ha] at h
    cases a with
    | insert id i =>
      obtain ⟨hc, rfl⟩ := constructs_of_access? ha
      rcases Registry.mem_insert.mp h with h | rfl
      · exact .inl h.1
      · exact .inr ⟨i, hc, rfl⟩
    | lookup id => exact .inl h
    | remove id => exact .inl (Registry.mem_erase.mp h).1
    | drain => exact absurd h List.not_mem_nil

theorem mem_ids_step {id : SequencerId} (h : id ∈ (s.step m).provider.live.ids) :
    id ∈ s.provider.live.ids ∨ ∃ i, s.constructs m = some i ∧ id = s.ledger.nextId := by
  obtain ⟨i, hi⟩ := Registry.mem_ids.mp h
  obtain h | ⟨i', hc, he⟩ := mem_live_step hi
  · exact .inl (Registry.mem_ids.mpr ⟨i, h⟩)
  · exact .inr ⟨i', hc, congrArg Prod.fst he⟩

theorem taken_leaves {x : SequencerId × Instance} (h : x ∈ s.taken m) :
    x ∈ s.provider.live ∧ x.1 ∉ (s.step m).provider.live.ids := by
  rw [step_live]
  unfold taken at h
  cases ha : s.access? m with
  | none => simp [ha] at h
  | some a =>
    rw [ha] at h
    exact Access.takes_leaves h

theorem condemns_leaves {x : SequencerId × Instance} (h : x ∈ s.condemns m) :
    x ∈ s.provider.live ∧ x.1 ∉ (s.step m).provider.live.ids ∧
      ((∃ token, m = .request (.destroy token x.1)) ∨
        s.provider.options.teardown = .destroy ∧ ∃ opened, m = .tearDown opened) := by
  unfold condemns at h
  split_ifs at h with hc
  · refine ⟨(taken_leaves h).1, (taken_leaves h).2, ?_⟩
    cases m with
    | request r =>
      cases r with
      | destroy token id =>
        by_cases ht : s.provider.admits token
        · obtain ⟨i, -, rfl⟩ : ∃ i, s.provider.live.find? id = some i ∧ (id, i) = x := by
            simpa [taken, access?, Provider.access?, ht, Access.takes] using h
          exact .inl ⟨token, rfl⟩
        · simp [taken, access?, Provider.access?, ht] at h
      | _ => exact hc.elim
    | tearDown opened => exact .inr ⟨hc, opened, rfl⟩
    | _ => exact hc.elim
  · exact absurd h List.not_mem_nil

theorem put_of_access? : (s.access? m).elim [] Access.puts = s.put m := by
  cases hc : s.constructs m with
  | some i => simp [put, hc, access?_of_constructs hc, Access.puts]
  | none =>
    cases ha : s.access? m with
    | none => simp [put, hc]
    | some a =>
      cases a with
      | insert id i => simp [(constructs_of_access? ha).1] at hc
      | _ => simp [put, hc, Access.puts]

/-- No instance is lost on the way from the registry, and none is doubled. -/
theorem taken_perm (hr : s.provider.live.ids.Nodup)
    (hf : ∀ x ∈ s.put m, s.provider.live.find? x.1 = none) :
    (s.taken m ++ (s.step m).provider.live).Perm (s.provider.live ++ s.put m) := by
  rw [step_live, taken]
  rw [← put_of_access?] at hf ⊢
  cases ha : s.access? m with
  | none => simp
  | some a =>
    rw [ha] at hf
    exact Access.takes_on_perm hr hf

theorem count_live_step (hr : s.provider.live.ids.Nodup)
    (hf : ∀ x ∈ s.put m, s.provider.live.find? x.1 = none) (k : Nat) :
    (s.step m).provider.live.serials.count k + (s.condemns m).serials.count k ≤
      s.provider.live.serials.count k + (s.put m).serials.count k := by
  have hp := ((taken_perm hr hf).map fun x => x.2.serial).count_eq k
  simp only [List.map_append, List.count_append] at hp
  have hc : (s.condemns m).serials.count k ≤ (s.taken m).serials.count k := by
    unfold condemns
    split_ifs
    · exact Nat.le_refl _
    · exact Nat.zero_le _
  simp only [Registry.serials] at hc ⊢
  omega

end Registry

section Condemned

variable {s m}

theorem exists_set {α : Type} {xs : List α} {n : Nat} {x : α} (h : xs[n]? = some x) :
    ∃ before after, xs = before ++ x :: after ∧ ∀ y, xs.set n y = before ++ y :: after := by
  obtain ⟨hn, rfl⟩ := List.getElem?_eq_some_iff.mp h
  refine ⟨xs.take n, xs.drop (n + 1), ?_, fun y => ?_⟩
  · rw [List.getElem_cons_drop, List.take_append_drop]
  · rw [List.set_eq_take_append_cons_drop, if_pos hn]

/-- A request starts a call of the instance it finds, and condemns that instance if the call is to destroy it. -/
theorem destroyed_request (r : Request) : (s.step (.request r)).ledger.destroyed =
    s.ledger.destroyed ++ (s.condemns (.request r)).serials := by
  have hc : (s.step (.request r)).ledger.calls = s.ledger.calls ++ s.provider.begins r s.ledger :=
    (s.provider.handle_served r s.ledger).calls
  rw [Ledger.destroyed_of_calls hc]
  congr 1
  cases r with
  | destroy token id =>
    by_cases ht : s.provider.admits token
    · cases hf : s.provider.live.find? id <;>
        simp [Provider.begins, Provider.access?, ht, Access.finds, Access.target?, hf, Request.call?, condemns,
          Condemns, taken, access?, Access.takes, Registry.serials]
    · simp [Provider.begins, Provider.access?, ht, condemns, Condemns, taken, access?, Registry.serials]
  | sayHello id =>
    cases hf : s.provider.live.find? id <;>
      simp [Provider.begins, Provider.access?, Access.finds, Access.target?, hf, Request.call?, condemns, Condemns,
        Registry.serials]
  | computeSum id x y =>
    cases hf : s.provider.live.find? id <;>
      simp [Provider.begins, Provider.access?, Access.finds, Access.target?, hf, Request.call?, condemns, Condemns,
        Registry.serials]
  | _ => simp [Provider.begins, Request.call?, condemns, Condemns, Registry.serials]

/-- What a move takes out of the registry to destroy it is condemned, and nothing else is; only a panic of a teardown
lets go of what is condemned. -/
theorem condemned_step : ∃ lost : List Nat,
    (∀ k, (s.step m).condemned.count k + lost.count k = s.condemned.count k + (s.condemns m).serials.count k) ∧
      (lost = [] ∨ ∃ t ∈ (s.step m).teardowns, t.IsPanicked) := by
  cases m with
  | request r =>
    refine ⟨[], fun k => ?_, .inl rfl⟩
    rw [condemned, destroyed_request]
    simp [condemned, awaited, step, Nat.add_assoc]
  | resume n opened =>
    have hc : (s.step (.resume n opened)).condemned = s.condemned := by
      simp only [step]
      split
      · rfl
      · rename_i r w _
        have hl := (w.sameBooks_resume opened s.provider.id s.ledger).calls
        simp [condemned, awaited, Ledger.destroyed, hl]
    exact ⟨[], fun k => by rw [hc]; rfl, .inl rfl⟩
  | tearDown opened =>
    obtain ⟨done, lost, hd, he, hl⟩ := Teardown.tearDown_discharges opened s.provider s.ledger
    have hs : s.provider.doomed.map Instance.serial = (s.condemns (.tearDown opened)).serials := by
      cases hp : s.provider.options.teardown <;>
        simp [Provider.doomed, condemns, Condemns, taken, access?, Access.takes, hp, Registry.serials]
    refine ⟨lost.map Instance.serial, fun k => ?_, ?_⟩
    · rw [← hs, he]
      simp only [condemned, awaited, step, hd.destroyed, List.flatMap_append, List.map_append, List.count_append,
        List.flatMap_cons, List.flatMap_nil, List.append_nil]
      omega
    · exact hl.imp (fun h => by rw [h]; rfl) fun h => ⟨_, by simp [step], h⟩
  | resumeTeardown n opened =>
    cases ht : s.teardowns[n]? with
    | none =>
      have hc : s.step (.resumeTeardown n opened) = s := by simp only [step, ht]
      exact ⟨[], fun k => by rw [hc]; rfl, .inl rfl⟩
    | some t =>
      obtain ⟨done, lost, hd, he, hl⟩ := Teardown.resume_discharges opened t s.ledger
      obtain ⟨before, after, hb, hset⟩ := exists_set ht
      have hs : s.condemned = (before ++ t :: after).flatMap (fun t => t.pending.map Instance.serial) ++
          s.ledger.destroyed := by rw [condemned, awaited, hb]
      refine ⟨lost.map Instance.serial, fun k => ?_, ?_⟩
      · have hc : s.condemns (.resumeTeardown n opened) = [] := rfl
        rw [hs, hc]
        simp only [step, ht, condemned, awaited, hset, hd.destroyed, he, List.flatMap_append, List.flatMap_cons,
          List.map_append, List.count_append, Registry.serials, List.map_nil, List.count_nil]
        omega
      · exact hl.imp (fun h => by rw [h]; rfl) fun h => ⟨_, by simp [step, ht, hset], h⟩

theorem count_condemned_step (k : Nat) :
    (s.step m).condemned.count k ≤ s.condemned.count k + (s.condemns m).serials.count k := by
  obtain ⟨lost, hc, -⟩ := condemned_step (s := s) (m := m)
  have hk := hc k
  omega

theorem mem_condemned_step {k : Nat} (h : k ∈ (s.step m).condemned) :
    k ∈ s.condemned ∨ ∃ x ∈ s.condemns m, x.2.serial = k := by
  have hpos := Nat.lt_of_lt_of_le (List.count_pos_iff.mpr h) (count_condemned_step k)
  rcases Nat.add_pos_iff_pos_or_pos.mp hpos with hk | hk
  · exact .inl (List.count_pos_iff.mp hk)
  · exact .inr (List.mem_map.mp (List.count_pos_iff.mp hk))

theorem calls_step : ∃ more, (s.step m).ledger.calls = s.ledger.calls ++ more ∧
    ∀ c ∈ more, c.2 = .destroy ∨
      ∃ x, x.2.serial = c.1 ∧ x ∈ s.provider.live ∧ x ∈ (s.step m).provider.live := by
  obtain ⟨r, rfl, hs⟩ | ⟨-, done, hd⟩ := step_ledger s m
  · refine ⟨_, hs.calls, fun c hc => ?_⟩
    unfold Provider.begins at hc
    split at hc
    · rename_i i call hi hcall
      obtain rfl := List.mem_singleton.mp hc
      obtain ⟨a, ha, hf⟩ := Option.bind_eq_some_iff.mp hi
      have hlook : ∀ id, a = .lookup id →
          (id, i) ∈ s.provider.live ∧ (id, i) ∈ (s.step (.request r)).provider.live := by
        rintro id rfl
        have hacc : s.access? (.request r) = some (.lookup id) := ha
        have hl := Registry.mem_of_find? hf
        exact ⟨hl, by rw [step_live, hacc]; exact hl⟩
      cases r with
      | destroy token id => exact .inl (Option.some.inj hcall).symm
      | sayHello id =>
        obtain ⟨h, h'⟩ := hlook id (Option.some.inj ha).symm
        exact .inr ⟨_, rfl, h, h'⟩
      | computeSum id x y =>
        obtain ⟨h, h'⟩ := hlook id (Option.some.inj ha).symm
        exact .inr ⟨_, rfl, h, h'⟩
      | _ => cases hcall
    · exact absurd hc List.not_mem_nil
  · refine ⟨_, hd.calls, fun c hc => ?_⟩
    obtain ⟨i, -, rfl⟩ := List.mem_map.mp hc
    exact .inl rfl

end Condemned

/-- What is true of a provider at all times, as long as no identifier is given out twice. -/
structure Sound : Prop where
  nodup : s.provider.live.ids.Nodup
  minted : ∀ id ∈ s.provider.live.ids, ∃ a < s.ledger.minted, s.ledger.supply a = id
  once : s.tally.Nodup
  built : ∀ k ∈ s.tally, k < s.ledger.built.length

section Sound

variable {s m}

theorem distinct_step (h : (s.step m).ledger.Distinct) : s.ledger.Distinct := by
  intro a b ha hb hab
  have hm := step_minted s m
  have hs := step_supply s m
  exact h a b (by omega) (by omega) (by rw [hs, hab])

theorem Sound.nextId_not_live (h : s.Sound) (hd : (s.step m).ledger.Distinct) {i : Instance}
    (hc : s.constructs m = some i) : s.ledger.nextId ∉ s.provider.live.ids := by
  intro hid
  obtain ⟨a, ha, hsup⟩ := h.minted _ hid
  have hm : (s.step m).ledger.minted = s.ledger.minted + 1 := by simp [step_minted, hc]
  have he : a = s.ledger.minted := by
    refine hd a s.ledger.minted (by omega) (by omega) ?_
    rw [step_supply, hsup, Ledger.nextId]
  omega

theorem Sound.find?_put (h : s.Sound) (hd : (s.step m).ledger.Distinct) :
    ∀ x ∈ s.put m, s.provider.live.find? x.1 = none := by
  intro x hx
  obtain ⟨i, hi, rfl⟩ := List.mem_map.mp hx
  exact Registry.find?_eq_none.mpr (h.nextId_not_live hd (Option.mem_toList.mp hi))

theorem count_serials_put (k : Nat) : (s.put m).serials.count k =
    if k = s.ledger.built.length ∧ (s.constructs m).isSome then 1 else 0 := by
  cases hc : s.constructs m with
  | none => simp [put, hc, Registry.serials]
  | some i =>
    have he : (s.put m).serials = [s.ledger.built.length] := by
      simp [put, hc, Registry.serials, constructs_serial hc]
    rw [he, List.count_singleton]
    by_cases hk : k = s.ledger.built.length
    · simp [hk]
    · simp [hk, Ne.symm hk]

/-- Only what is being constructed comes in, and its number is new. -/
theorem count_tally_step (h : s.Sound) (hd : (s.step m).ledger.Distinct) (k : Nat) :
    (s.step m).tally.count k ≤
      s.tally.count k + if k = s.ledger.built.length ∧ (s.constructs m).isSome then 1 else 0 := by
  have hl := count_live_step h.nodup (h.find?_put hd) k
  have hc := count_condemned_step (s := s) (m := m) k
  rw [← count_serials_put]
  simp only [tally, List.count_append]
  omega

theorem Sound.count_built (h : s.Sound) : s.tally.count s.ledger.built.length = 0 :=
  List.count_eq_zero.mpr fun hk => Nat.lt_irrefl _ (h.built _ hk)

theorem Sound.step (h : s.Sound) (hd : (s.step m).ledger.Distinct) : (s.step m).Sound := by
  have hcount := count_tally_step h hd
  refine ⟨?_, ?_, ?_, ?_⟩
  · have hp := ((taken_perm h.nodup (h.find?_put hd)).map Prod.fst).nodup_iff
    rw [List.map_append, List.map_append] at hp
    refine (List.nodup_append.mp (hp.mpr ?_)).2.1
    refine List.Nodup.append h.nodup (by cases hc : s.constructs m <;> simp [put, hc]) ?_
    intro id hid hid'
    obtain ⟨x, hx, rfl⟩ := List.mem_map.mp hid'
    exact Registry.find?_eq_none.mp (h.find?_put hd x hx) hid
  · intro id hid
    rw [step_supply, step_minted]
    obtain hid | ⟨i, hc, rfl⟩ := mem_ids_step hid
    · obtain ⟨a, ha, hs⟩ := h.minted id hid
      exact ⟨a, by omega, hs⟩
    · exact ⟨s.ledger.minted, by simp [hc], rfl⟩
  · refine List.nodup_iff_count_le_one.mpr fun k => Nat.le_trans (hcount k) ?_
    have hone := List.nodup_iff_count_le_one.mp h.once k
    split_ifs with hk
    · exact Nat.le_of_eq (by rw [hk.1, h.count_built])
    · exact hone
  · intro k hk
    have hb := step_built s m
    have hpos := Nat.lt_of_lt_of_le (List.count_pos_iff.mpr hk) (hcount k)
    split_ifs at hpos with hnew
    · obtain ⟨i, hc⟩ := Option.isSome_iff_exists.mp hnew.2
      simp only [hc, Option.toList_some, List.length_singleton] at hb
      omega
    · have hlt := h.built k (List.count_pos_iff.mp hpos)
      omega

end Sound

end Traffic
end SequencerHub

import SequencerHub.Proofs.Custody

/-! The life of the instances at a provider over whole runs: each is registered once, leaves once, and is destroyed at
most once, after it has left. -/
namespace SequencerHub
namespace Traffic

variable (s : Traffic) (ms : List Move)

/-- Whether a move of a run registers an instance under an identifier. -/
def Registers (k : Nat) (x : SequencerId × Instance) : Prop :=
  ∃ m, ms[k]? = some m ∧ (s.after ms k).constructs m = some x.2 ∧ x.1 = (s.after ms k).ledger.nextId

/-- Whether a move of a run takes a sequencer out of the registry. -/
def Leaves (k : Nat) (x : SequencerId × Instance) : Prop :=
  x ∈ (s.after ms k).provider.live ∧ x.1 ∉ (s.after ms (k + 1)).provider.live.ids

def inserts (s : Traffic) : Move → Nat
  | .request r => (s.provider.handle r s.ledger).2.1.minted?.toList.length
  | _ => 0

def removes (s : Traffic) : Move → Nat
  | .request r => if r.HasRemoved (s.provider.handle r s.ledger).2.1 then 1 else 0
  | .tearDown _ => s.provider.live.length
  | _ => 0

def total (f : Traffic → Move → Nat) (s : Traffic) : List Move → Nat
  | [] => 0
  | m :: ms => f s m + total f (s.step m) ms

section Run

variable {s ms}

theorem fresh_sound (options : ProviderOptions) (factory : Factory) (supply : Nat → SequencerId) :
    (fresh options factory supply).Sound :=
  ⟨List.nodup_nil, nofun, List.nodup_nil, nofun⟩

theorem distinct_run (h : (s.run ms).ledger.Distinct) : s.ledger.Distinct := by
  induction ms generalizing s with
  | nil => exact h
  | cons m ms ih => exact distinct_step (ih h)

theorem distinct_after (h : (s.run ms).ledger.Distinct) (k : Nat) : (s.after ms k).ledger.Distinct := by
  have hr : (s.after ms k).run (ms.drop k) = s.run ms := by
    rw [after, run, run, ← List.foldl_append, List.take_append_drop, run]
  exact distinct_run (hr ▸ h)

theorem sound_after (hs : s.Sound) (h : (s.run ms).ledger.Distinct) (k : Nat) : (s.after ms k).Sound := by
  induction k with
  | zero => exact hs
  | succ k ih =>
    cases hm : ms[k]? with
    | none => rwa [after_succ_of_none s ms hm]
    | some m =>
      have hd := distinct_after h (k + 1)
      rw [after_succ s ms hm] at hd ⊢
      exact ih.step hd

theorem minted_mono {j k : Nat} (h : j ≤ k) : (s.after ms j).ledger.minted ≤ (s.after ms k).ledger.minted :=
  after_mono s ms (f := fun s => s.ledger.minted) (fun s m => step_minted s m ▸ Nat.le_add_right _ _) h

theorem built_mono {j k : Nat} (h : j ≤ k) :
    (s.after ms j).ledger.built.length ≤ (s.after ms k).ledger.built.length :=
  after_mono s ms (f := fun s => s.ledger.built.length)
    (fun s m => Nat.le_trans (Nat.le_add_right _ _) (step_built s m)) h

theorem supply_after (k : Nat) : (s.after ms k).ledger.supply = s.ledger.supply :=
  after_induction s ms (P := fun s' => s'.ledger.supply = s.ledger.supply)
    (fun s' m h => (step_supply s' m).trans h) (Nat.zero_le k) rfl

theorem options_after (k : Nat) : (s.after ms k).provider.options = s.provider.options :=
  run_options s (ms.take k)

theorem Registers.live {k : Nat} {x : SequencerId × Instance} (h : s.Registers ms k x) :
    x ∈ (s.after ms (k + 1)).provider.live := by
  obtain ⟨m, hm, hc, hx⟩ := h
  rw [after_succ s ms hm, ← Prod.eta x, hx]
  exact mem_live_of_constructs hc

/-- The identifier of a new sequencer has never been live. -/
theorem Registers.not_live (hs : s.Sound) (hd : (s.run ms).ledger.Distinct) {k : Nat}
    {x : SequencerId × Instance} (h : s.Registers ms k x) {j : Nat} (hj : j ≤ k) :
    x.1 ∉ (s.after ms j).provider.live.ids := by
  intro hid
  obtain ⟨m, hm, hc, hx⟩ := h
  obtain ⟨a, ha, hsup⟩ := (sound_after hs hd j).minted _ hid
  have hle : (s.after ms j).ledger.minted ≤ (s.after ms k).ledger.minted := minted_mono hj
  have hmint : (s.after ms (k + 1)).ledger.minted = (s.after ms k).ledger.minted + 1 := by
    simp [after_succ s ms hm, step_minted, hc]
  have he : a = (s.after ms k).ledger.minted := by
    refine distinct_after hd (k + 1) _ _ (by omega) (by omega) ?_
    rw [supply_after] at hsup ⊢
    rw [hsup, hx, Ledger.nextId, supply_after]
  omega

theorem registers_of_live (h0 : s.provider.live = []) {k : Nat} {x : SequencerId × Instance}
    (h : x ∈ (s.after ms k).provider.live) : ∃ j < k, s.Registers ms j x := by
  obtain ⟨j, m, -, hj, hm, hold, hnew⟩ :=
    exists_step s ms (P := fun s' => x ∈ s'.provider.live) (Nat.zero_le k) (by simp [h0]) h
  obtain ⟨i, hc, rfl⟩ := (mem_live_step hnew).resolve_left hold
  exact ⟨j, hj, m, hm, hc, rfl⟩

theorem Registers.serial {k : Nat} {x : SequencerId × Instance} (h : s.Registers ms k x) :
    x.2.serial = (s.after ms k).ledger.built.length := by
  obtain ⟨m, -, hc, -⟩ := h
  exact constructs_serial hc

theorem Registers.built_lt {j k : Nat} {x : SequencerId × Instance} (h : s.Registers ms j x) (hjk : j < k) :
    (s.after ms j).ledger.built.length < (s.after ms k).ledger.built.length := by
  obtain ⟨m, hm, hc, -⟩ := h
  have hs := step_built (s.after ms j) m
  have hle : (s.after ms (j + 1)).ledger.built.length ≤ (s.after ms k).ledger.built.length := built_mono hjk
  rw [after_succ s ms hm] at hle
  simp only [hc, Option.toList_some, List.length_singleton] at hs
  omega

/-- Numbers of instances are never used again. -/
theorem Registers.unique {j k : Nat} {x y : SequencerId × Instance} (hx : s.Registers ms j x)
    (hy : s.Registers ms k y) (h : x.2.serial = y.2.serial) : j = k ∧ x = y := by
  rw [hx.serial, hy.serial] at h
  obtain hjk | rfl | hkj := Nat.lt_trichotomy j k
  · exact absurd h (Nat.ne_of_lt (hx.built_lt hjk))
  · obtain ⟨m, hm, hc, hi⟩ := hx
    obtain ⟨m', hm', hc', hi'⟩ := hy
    obtain rfl : m = m' := Option.some.inj (hm.symm.trans hm')
    exact ⟨rfl, Prod.ext (hi.trans hi'.symm) (Option.some.inj (hc.symm.trans hc'))⟩
  · exact absurd h.symm (Nat.ne_of_lt (hy.built_lt hkj))

/-- An identifier that was live and is no longer stays away. -/
theorem not_live_again (hs : s.Sound) (hd : (s.run ms).ledger.Distinct) {id : SequencerId} {i j k : Nat}
    (hi : id ∈ (s.after ms i).provider.live.ids) (hj : id ∉ (s.after ms j).provider.live.ids) (hij : i ≤ j)
    (hjk : j ≤ k) : id ∉ (s.after ms k).provider.live.ids := by
  intro hk
  obtain ⟨n, m, hjn, -, hm, hold, hnew⟩ :=
    exists_step s ms (P := fun s' => id ∈ s'.provider.live.ids) hjk hj hk
  obtain ⟨x, hc, rfl⟩ := (mem_ids_step hnew).resolve_left hold
  have hr : s.Registers ms n ((s.after ms n).ledger.nextId, x) := ⟨m, hm, hc, rfl⟩
  exact hr.not_live hs hd (Nat.le_trans hij hjn) hi

theorem condemned_origin (h0 : s.condemned = []) {n k : Nat} (h : n ∈ (s.after ms k).condemned) :
    ∃ j < k, ∃ m x, ms[j]? = some m ∧ x ∈ (s.after ms j).condemns m ∧ x.2.serial = n := by
  obtain ⟨j, m, -, hj, hm, hold, hnew⟩ :=
    exists_step s ms (P := fun s' => n ∈ s'.condemned) (Nat.zero_le k) (by simp [h0]) h
  obtain ⟨x, hx, hn⟩ := (mem_condemned_step hnew).resolve_left hold
  exact ⟨j, hj, m, x, hm, hx, hn⟩

theorem inserts_eq (m : Move) : s.inserts m = (s.put m).length := by
  cases m with
  | request r =>
    rw [inserts, (s.provider.handle_served r s.ledger).named, put, constructs]
    cases s.provider.constructed? r s.ledger <;> rfl
  | _ => rfl

theorem removes_eq (m : Move) : s.removes m = (s.taken m).length := by
  cases m with
  | request r =>
    have hr := (s.provider.handle_served r s.ledger).removed
    rw [removes, taken, access?]
    cases ha : s.provider.access? r s.ledger with
    | none =>
      rw [ha] at hr
      rw [if_neg (by simp [hr])]
      rfl
    | some a =>
      rw [ha] at hr
      cases a with
      | remove id =>
        cases hf : s.provider.live.find? id with
        | none => rw [if_neg (by simp [hr, hf])]; simp [Access.takes, hf]
        | some i => rw [if_pos (by simp [hr, hf])]; simp [Access.takes, hf]
      | drain =>
        obtain ht | ⟨i, -, hi⟩ := Provider.access?_cases ha
        · cases r <;> cases ht
        · cases hi
      | _ => rw [if_neg (by simp [hr])]; rfl
  | _ => rfl

/-- What has come in is still there or has been taken out. -/
theorem total_balance (hs : s.Sound) (hd : (s.run ms).ledger.Distinct) :
    s.provider.live.length + total inserts s ms = (s.run ms).provider.live.length + total removes s ms := by
  induction ms generalizing s with
  | nil => rfl
  | cons m ms ih =>
    have hd' : (s.step m).ledger.Distinct := distinct_run hd
    have hp := (taken_perm hs.nodup (hs.find?_put hd')).length_eq
    have ht := ih (hs.step hd') hd
    rw [List.length_append, List.length_append, ← inserts_eq, ← removes_eq] at hp
    simp only [total, run, List.foldl_cons] at ht ⊢
    omega

end Run

/-- The life of every instance at a provider over a run. -/
structure Lifecycle (s : Traffic) (ms : List Move) : Prop where
  /-- What is constructed is registered at once, under an identifier that has never been live. -/
  registered : ∀ k x, s.Registers ms k x → x ∈ (s.after ms (k + 1)).provider.live ∧
    ∀ j ≤ k, x.1 ∉ (s.after ms j).provider.live.ids
  once : ∀ k x, s.Registers ms k x → ∀ j, ∀ y ∈ (s.after ms j).provider.live, y.2.serial = x.2.serial →
    y = x ∧ k < j
  /-- Nothing else is ever live. -/
  origin : ∀ k, ∀ x ∈ (s.after ms k).provider.live, ∃ j < k, s.Registers ms j x
  /-- What has left never comes back, so it does not leave again. -/
  gone : ∀ k x, s.Leaves ms k x → ∀ j, k < j → x.1 ∉ (s.after ms j).provider.live.ids
  destroyedOnce : ∀ k n, (s.after ms k).ledger.destroyed.count n ≤ 1
  /-- An instance under destruction has left by a destroying request or a destroying teardown. -/
  destroyedAfter : ∀ k, ∀ n ∈ (s.after ms k).ledger.destroyed, ∃ j < k, ∃ x, x.2.serial = n ∧ s.Leaves ms j x ∧
    ((∃ token, ms[j]? = some (.request (.destroy token x.1))) ∨
      s.provider.options.teardown = .destroy ∧ ∃ opened, ms[j]? = some (.tearDown opened))
  spared : ∀ k x, s.Leaves ms k x → ((∃ token id, ms[k]? = some (.request (.close token id))) ∨
      s.provider.options.teardown = .detach ∧ ∃ opened, ms[k]? = some (.tearDown opened)) →
    ∀ j, x.2.serial ∉ (s.after ms j).ledger.destroyed
  /-- No call but that to destroy it reaches an instance that is not live. -/
  called : ∀ k, ∃ more, (s.after ms (k + 1)).ledger.calls = (s.after ms k).ledger.calls ++ more ∧
    ∀ c ∈ more, c.2 = .destroy ∨ ∃ x, x.2.serial = c.1 ∧ x ∈ (s.after ms k).provider.live ∧
      x ∈ (s.after ms (k + 1)).provider.live
  balance : ∀ k, total inserts s (ms.take k) = (s.after ms k).provider.live.length + total removes s (ms.take k)

section Run

variable {s ms}

theorem once_of_registers (h0 : s.provider.live = []) {j k : Nat} {x y : SequencerId × Instance}
    (hx : s.Registers ms k x) (hy : y ∈ (s.after ms j).provider.live) (he : y.2.serial = x.2.serial) :
    y = x ∧ k < j := by
  obtain ⟨i, hi, hr⟩ := registers_of_live h0 hy
  obtain ⟨rfl, rfl⟩ := hr.unique hx he
  exact ⟨rfl, hi⟩

theorem leaves_of_destroyed (h0 : s.condemned = []) {n k : Nat} (h : n ∈ (s.after ms k).ledger.destroyed) :
    ∃ j < k, ∃ x, x.2.serial = n ∧ s.Leaves ms j x ∧
      ((∃ token, ms[j]? = some (.request (.destroy token x.1))) ∨
        s.provider.options.teardown = .destroy ∧ ∃ opened, ms[j]? = some (.tearDown opened)) := by
  obtain ⟨j, hj, m, x, hm, hx, hn⟩ := condemned_origin h0 (List.mem_append_right _ h)
  obtain ⟨hl, hl', hk⟩ := condemns_leaves hx
  refine ⟨j, hj, x, hn, ⟨hl, after_succ s ms hm ▸ hl'⟩, ?_⟩
  rw [options_after] at hk
  obtain ⟨token, rfl⟩ | ⟨hp, opened, rfl⟩ := hk
  · exact .inl ⟨token, hm⟩
  · exact .inr ⟨hp, opened, hm⟩

theorem Leaves.unique (hs : s.Sound) (hd : (s.run ms).ledger.Distinct) {j k : Nat} {x : SequencerId × Instance}
    (hj : s.Leaves ms j x) (hk : s.Leaves ms k x) : j = k := by
  have hle : ∀ {j k}, s.Leaves ms j x → s.Leaves ms k x → k ≤ j := by
    intro j k hj hk
    refine Nat.le_of_not_lt fun hlt => ?_
    exact not_live_again hs hd (Registry.mem_ids.mpr ⟨x.2, hj.1⟩) hj.2 (Nat.le_succ j) hlt
      (Registry.mem_ids.mpr ⟨x.2, hk.1⟩)
  exact Nat.le_antisymm (hle hk hj) (hle hj hk)

theorem called_after (s : Traffic) (ms : List Move) (k : Nat) :
    ∃ more, (s.after ms (k + 1)).ledger.calls = (s.after ms k).ledger.calls ++ more ∧
      ∀ c ∈ more, c.2 = .destroy ∨ ∃ x, x.2.serial = c.1 ∧ x ∈ (s.after ms k).provider.live ∧
        x ∈ (s.after ms (k + 1)).provider.live := by
  cases hm : ms[k]? with
  | none =>
    rw [after_succ_of_none s ms hm]
    exact ⟨[], by simp⟩
  | some m =>
    rw [after_succ s ms hm]
    exact calls_step

theorem not_destroyed (h0 : s.provider.live = []) (hc : s.condemned = []) (hs : s.Sound)
    (hd : (s.run ms).ledger.Distinct) {k : Nat} {x : SequencerId × Instance} (hx : s.Leaves ms k x)
    (hk : (∃ token id, ms[k]? = some (.request (.close token id))) ∨
      s.provider.options.teardown = .detach ∧ ∃ opened, ms[k]? = some (.tearDown opened)) (j : Nat) :
    x.2.serial ∉ (s.after ms j).ledger.destroyed := by
  intro hn
  obtain ⟨i, -, y, hy, hl, hi⟩ := leaves_of_destroyed hc hn
  obtain ⟨i', -, hr⟩ := registers_of_live h0 hx.1
  obtain ⟨rfl, -⟩ := once_of_registers h0 hr hl.1 hy
  obtain rfl := hx.unique hs hd hl
  obtain ⟨token, id, hk⟩ | ⟨hp, opened, hk⟩ := hk
  · obtain ⟨token', hi⟩ | ⟨-, opened, hi⟩ := hi <;> simp [hk] at hi
  · obtain ⟨token', hi⟩ | ⟨hp', -⟩ := hi
    · simp [hk] at hi
    · simp [hp] at hp'

end Run

theorem lifecycle (options : ProviderOptions) (factory : Factory) (supply : Nat → SequencerId) (ms : List Move)
    (hd : ((fresh options factory supply).run ms).ledger.Distinct) :
    Lifecycle (fresh options factory supply) ms := by
  have hs := fresh_sound options factory supply
  exact {
    registered := fun k x hx => ⟨hx.live, fun j hj => hx.not_live hs hd hj⟩
    once := fun k x hx j y hy he => once_of_registers rfl hx hy he
    origin := fun k x hx => registers_of_live rfl hx
    gone := fun k x hx j hj =>
      not_live_again hs hd (Registry.mem_ids.mpr ⟨x.2, hx.1⟩) hx.2 (Nat.le_succ k) hj
    destroyedOnce := fun k n => by
      have hn := List.nodup_iff_count_le_one.mp (sound_after hs hd k).once n
      simp only [tally, condemned, List.count_append] at hn
      omega
    destroyedAfter := fun k n hn => leaves_of_destroyed rfl hn
    spared := fun k x hx hk => not_destroyed rfl rfl hs hd hx hk
    called := fun k => called_after _ ms k
    balance := fun k => by
      simpa [fresh, after] using total_balance hs (distinct_after hd k) }

def twoLives : List Move :=
  [.request (.construct .create "" "scripted" "\x7b\x7d"), .request (.construct .attach "" "scripted" "\x7b\x7d"),
    .request (.destroy "" (SequencerId.ofNat 1)), .request (.sayHello (SequencerId.ofNat 0)), .resume 2 [],
    .tearDown []]

theorem lifecycle_twoLives : (trials.run twoLives).ledger.Distinct ∧
    (trials.run twoLives).ledger.destroyed = [1, 0] ∧ Lifecycle trials twoLives := by
  have hm : (trials.run twoLives).ledger.minted = 2 := by decide +kernel
  have hs : (trials.run twoLives).ledger.supply = SequencerId.ofNat := by
    rw [← after_length]
    exact supply_after _
  have hd := Ledger.distinct_of_counting hs (by rw [hm]; decide)
  exact ⟨hd, by decide +kernel, lifecycle _ _ _ twoLives hd⟩

end Traffic
end SequencerHub

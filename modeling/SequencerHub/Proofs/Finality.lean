import SequencerHub.Proofs.Lifecycle

/-! What becomes of the sequencers of a provider that is torn down while requests are under way. The registry is
emptied once, at the beginning of a teardown, and is not closed: what is registered after that is live. -/
namespace SequencerHub

def Work.IsEnded : Work → Prop
  | ended _ => True
  | _ => False

instance (w : Work) : Decidable w.IsEnded := by
  unfold Work.IsEnded
  split <;> infer_instance

namespace Traffic

def HasPanicked (s : Traffic) : Prop := ∃ t ∈ s.teardowns, t.IsPanicked

section Step

variable {s : Traffic} (m : Move)

theorem hasPanicked_step (h : s.HasPanicked) : (s.step m).HasPanicked := by
  obtain ⟨t, ht, hp⟩ := h
  cases m with
  | request r => exact ⟨t, ht, hp⟩
  | resume n opened =>
    refine ⟨t, ?_, hp⟩
    simp only [step]
    split <;> exact ht
  | tearDown opened => exact ⟨t, List.mem_append_left _ ht, hp⟩
  | resumeTeardown n opened =>
    simp only [step]
    split
    · exact ⟨t, ht, hp⟩
    · rename_i t' ht'
      obtain ⟨before, after, hb, hset⟩ := exists_set ht'
      rw [hb, List.mem_append, List.mem_cons] at ht
      simp only [HasPanicked, hset]
      rcases ht with ht | rfl | ht
      · exact ⟨t, by simp [ht], hp⟩
      · exact ⟨_, by simp, Teardown.resume_isPanicked hp opened s.ledger⟩
      · exact ⟨t, by simp [ht], hp⟩

theorem condemned_kept {n : Nat} (h : n ∈ s.condemned ∨ n ∈ (s.condemns m).serials) :
    (s.step m).HasPanicked ∨ n ∈ (s.step m).condemned := by
  obtain ⟨lost, hc, rfl | hp⟩ := condemned_step (s := s) (m := m)
  · refine .inr (List.count_pos_iff.mp ?_)
    have hn := hc n
    have hpos := h.imp List.count_pos_iff.mpr List.count_pos_iff.mpr
    rw [List.count_nil] at hn
    omega
  · exact .inl hp

theorem taken_or_live (hs : s.Sound) (hd : (s.step m).ledger.Distinct) {x : SequencerId × Instance}
    (hx : x ∈ s.provider.live) : x ∈ s.taken m ∨ x ∈ (s.step m).provider.live := by
  have hp := taken_perm hs.nodup (hs.find?_put hd)
  exact List.mem_append.mp (hp.mem_iff.mpr (List.mem_append_left _ hx))

/-- Under a destroying policy, what leaves without being condemned has been closed. -/
theorem condemned_or_closed (hp : s.provider.options.teardown = .destroy) {x : SequencerId × Instance}
    (hx : x ∈ s.taken m) : x ∈ s.condemns m ∨ ∃ token, m = .request (.close token x.1) := by
  cases m with
  | request r =>
    cases r with
    | close token id =>
      by_cases ht : s.provider.admits token
      · obtain ⟨i, -, rfl⟩ : ∃ i, s.provider.live.find? id = some i ∧ (id, i) = x := by
          simpa [taken, access?, Provider.access?, ht, Access.takes] using hx
        exact .inr ⟨token, rfl⟩
      · simp [taken, access?, Provider.access?, ht] at hx
    | destroy token id =>
      have hc : s.Condemns (.request (.destroy token id)) := trivial
      exact .inl (by rwa [condemns, if_pos hc])
    | construct how token sequencerType config =>
      cases hc : s.provider.constructed? (.construct how token sequencerType config) s.ledger <;>
        simp [taken, access?, Provider.access?, hc, Access.takes] at hx
    | _ => exact absurd hx List.not_mem_nil
  | tearDown opened =>
    have hc : s.Condemns (.tearDown opened) := hp
    exact .inl (by rwa [condemns, if_pos hc])
  | _ => exact absurd hx List.not_mem_nil

end Step

def Closes (s : Traffic) (ms : List Move) (x : SequencerId × Instance) : Prop :=
  ∃ k token, ms[k]? = some (.request (.close token x.1)) ∧ s.Leaves ms k x

/-- What has become of the sequencers of a provider when its teardowns have come to their ends. -/
structure Settled (s : Traffic) (ms : List Move) : Prop where
  accounted : ∀ k x, s.Registers ms k x → x ∈ (s.run ms).provider.live ∨ s.Closes ms x ∨
    x.2.serial ∈ (s.run ms).ledger.destroyed
  /-- A teardown lets nothing live that was registered before it began. -/
  cleared : ∀ j opened, ms[j]? = some (.tearDown opened) → ∀ k < j, ∀ x, s.Registers ms k x →
    x.1 ∉ (s.run ms).provider.live.ids ∧ (s.Closes ms x ∨ x.2.serial ∈ (s.run ms).ledger.destroyed)
  empty : ∀ j opened, ms[j]? = some (.tearDown opened) → (∀ k, j < k → ∀ x, ¬ s.Registers ms k x) →
    (s.run ms).provider.live = []

section Run

variable {s : Traffic} {ms : List Move}

theorem condemned_run {n k : Nat} (h : n ∈ (s.after ms k).condemned) :
    (s.run ms).HasPanicked ∨ n ∈ (s.run ms).condemned := by
  by_cases hk : k ≤ ms.length
  · rw [← after_length]
    refine after_induction s ms (P := fun s' => s'.HasPanicked ∨ n ∈ s'.condemned) ?_ hk (.inr h)
    rintro s' m (hp | hn)
    · exact .inl (hasPanicked_step m hp)
    · exact condemned_kept m (.inl hn)
  · rw [after_of_length_le s ms (Nat.le_of_not_le hk)] at h
    exact .inr h

/-- Where no teardown waits, the condemned are those whose destruction has begun. -/
theorem destroyed_of_finished (h : ∀ t ∈ s.teardowns, t.IsFinished) {n : Nat} (hn : n ∈ s.condemned) :
    n ∈ s.ledger.destroyed := by
  rcases List.mem_append.mp hn with hn | hn
  · obtain ⟨t, ht, hnt⟩ := List.mem_flatMap.mp hn
    cases t with
    | finished => simp [Teardown.pending] at hnt
    | panicked q => exact (h _ ht).elim
    | waiting => exact (h _ ht).elim
  · exact hn

/-- What is live and later is not has been taken out by a move in between. -/
theorem exists_taken (hs : s.Sound) (hd : (s.run ms).ledger.Distinct) {j k : Nat} (hjk : j ≤ k)
    {x : SequencerId × Instance} (hj : x ∈ (s.after ms j).provider.live)
    (hk : x ∉ (s.after ms k).provider.live) :
    ∃ i m, ms[i]? = some m ∧ x ∈ (s.after ms i).taken m := by
  obtain ⟨i, m, -, -, hm, hold, hnew⟩ :=
    exists_step s ms (P := fun s' => x ∉ s'.provider.live) hjk (not_not_intro hj) hk
  have hd' := distinct_after hd (i + 1)
  rw [after_succ s ms hm] at hd'
  exact ⟨i, m, hm, (taken_or_live m (sound_after hs hd i) hd' (not_not.mp hold)).resolve_right hnew⟩

theorem accounted_for (hs : s.Sound) (hd : (s.run ms).ledger.Distinct)
    (hp : s.provider.options.teardown = .destroy) (hf : ∀ t ∈ (s.run ms).teardowns, t.IsFinished) {k : Nat}
    {x : SequencerId × Instance} (hx : s.Registers ms k x) :
    x ∈ (s.run ms).provider.live ∨ s.Closes ms x ∨ x.2.serial ∈ (s.run ms).ledger.destroyed := by
  have hno : ¬ (s.run ms).HasPanicked := by
    rintro ⟨t, ht, htp⟩
    cases t with
    | panicked q => exact hf _ ht
    | finished => exact htp
    | waiting => exact htp
  refine or_iff_not_imp_left.mpr fun hlive => ?_
  have hk : k + 1 ≤ ms.length := by
    obtain ⟨m, hm, -⟩ := hx
    exact (List.getElem?_eq_some_iff.mp hm).1
  rw [← after_length] at hlive
  obtain ⟨i, m, hm, ht⟩ := exists_taken hs hd hk hx.live hlive
  have hleaves : s.Leaves ms i x := by
    obtain ⟨h, h'⟩ := taken_leaves ht
    exact ⟨h, after_succ s ms hm ▸ h'⟩
  have hpi : (s.after ms i).provider.options.teardown = .destroy := by rw [options_after, hp]
  obtain hc | ⟨token, rfl⟩ := condemned_or_closed m hpi ht
  · have hn : x.2.serial ∈ (s.after ms (i + 1)).condemned := by
      have hno' : ¬ (s.after ms (i + 1)).HasPanicked := fun hpan => hno <| by
        rw [← after_length]
        exact after_induction s ms (fun s' m => hasPanicked_step m)
          (List.getElem?_eq_some_iff.mp hm).1 hpan
      rw [after_succ s ms hm] at hno' ⊢
      exact (condemned_kept m (.inr (List.mem_map.mpr ⟨x, hc, rfl⟩))).resolve_left hno'
    exact .inr (destroyed_of_finished hf ((condemned_run hn).resolve_left hno))
  · exact .inl ⟨i, token, hm, hleaves⟩

theorem not_live_of_tearDown (hs : s.Sound) (hd : (s.run ms).ledger.Distinct) {j k : Nat} {opened : Gates}
    (hj : ms[j]? = some (.tearDown opened)) (hkj : k < j) {x : SequencerId × Instance}
    (hx : s.Registers ms k x) : x.1 ∉ (s.run ms).provider.live.ids := by
  have hgone : x.1 ∉ (s.after ms (j + 1)).provider.live.ids := by
    rw [after_succ s ms hj]
    exact List.not_mem_nil
  have hlive : x.1 ∈ (s.after ms (k + 1)).provider.live.ids := Registry.mem_ids.mpr ⟨x.2, hx.live⟩
  rw [← after_length]
  exact not_live_again hs hd hlive hgone (by omega) (List.getElem?_eq_some_iff.mp hj).1

end Run

theorem settled (options : ProviderOptions) (factory : Factory) (supply : Nat → SequencerId) (ms : List Move)
    (hp : options.teardown = .destroy) (hd : ((fresh options factory supply).run ms).ledger.Distinct)
    (hf : ∀ t ∈ ((fresh options factory supply).run ms).teardowns, t.IsFinished) :
    Settled (fresh options factory supply) ms := by
  have hs := fresh_sound options factory supply
  refine ⟨fun k x hx => accounted_for hs hd hp hf hx, fun j opened hj k hkj x hx => ?_, fun j opened hj hnone => ?_⟩
  · have hgone := not_live_of_tearDown hs hd hj hkj hx
    refine ⟨hgone, (accounted_for hs hd hp hf hx).resolve_left fun hl => ?_⟩
    exact hgone (Registry.mem_ids.mpr ⟨x.2, hl⟩)
  · refine List.eq_nil_iff_forall_not_mem.mpr fun x hx => ?_
    rw [← after_length] at hx
    obtain ⟨k, -, hr⟩ := registers_of_live rfl hx
    obtain hkj | rfl | hjk := Nat.lt_trichotomy k j
    · rw [after_length] at hx
      exact not_live_of_tearDown hs hd hj hkj hr (Registry.mem_ids.mpr ⟨x.2, hx⟩)
    · obtain ⟨m, hm, hc, -⟩ := hr
      obtain rfl : m = .tearDown opened := Option.some.inj (hm.symm.trans hj)
      cases hc
    · exact hnone k hjk x hr

/-- A sequencer is created while the destruction of another one waits. -/
def lateCreation : List Move :=
  [.request (.construct .create "" "scripted" "\x7b\"destroy\":\x7b\"gate\":\"g\"\x7d\x7d"), .tearDown [],
    .request (.construct .create "" "scripted" "\x7b\x7d"), .resumeTeardown 0 ["g"]]

theorem settled_lateCreation : (trials.run lateCreation).ledger.Distinct ∧
    (∀ t ∈ (trials.run lateCreation).teardowns, t.IsFinished) ∧ Settled trials lateCreation := by
  have hm : (trials.run lateCreation).ledger.minted = 2 := by decide +kernel
  have hs : (trials.run lateCreation).ledger.supply = SequencerId.ofNat := by
    rw [← after_length]
    exact supply_after _
  have hd := Ledger.distinct_of_counting hs (by rw [hm]; decide)
  have hf : ∀ t ∈ (trials.run lateCreation).teardowns, t.IsFinished := by decide +kernel
  exact ⟨hd, hf, settled _ _ _ lateCreation rfl hd hf⟩

/-- What a teardown would achieve if it were final. -/
def Emptied (s : Traffic) (ms : List Move) : Prop :=
  (s.run ms).provider.live = [] ∧
    ∀ k x, s.Registers ms k x → s.Closes ms x ∨ x.2.serial ∈ (s.run ms).ledger.destroyed

/-- A teardown panics at the first of two sequencers, and another one returns. -/
def secondTeardown : List Move :=
  [.request (.construct .create "" "scripted" "\x7b\"destroy\":\x7b\"panic\":\"boom\"\x7d\x7d"),
    .request (.construct .create "" "scripted" "\x7b\"destroy\":\x7b\"panic\":\"boom\"\x7d\x7d"), .tearDown [],
    .tearDown []]

/-- A teardown that has returned is not final: a sequencer that came late is live, and one that an earlier panic let
go of is lost. -/
theorem not_emptied :
    ((∀ t ∈ (trials.run lateCreation).teardowns, t.IsFinished) ∧
      (∀ x ∈ (trials.run lateCreation).requests, x.2.IsEnded) ∧ ¬ Emptied trials lateCreation) ∧
    ((∃ t ∈ (trials.run secondTeardown).teardowns, t.IsFinished) ∧
      (∀ x ∈ (trials.run secondTeardown).requests, x.2.IsEnded) ∧ ¬ Emptied trials secondTeardown) := by
  refine ⟨⟨by decide +kernel, by decide +kernel, fun h => ?_⟩, by decide +kernel, by decide +kernel, fun h => ?_⟩
  · have hids : (trials.run lateCreation).provider.live.ids = [SequencerId.ofNat 1] := by decide +kernel
    simp [h.1, Registry.ids] at hids
  · have hsome : ((trials.after secondTeardown 1).constructs
        (.request (.construct .create "" "scripted" "\x7b\"destroy\":\x7b\"panic\":\"boom\"\x7d\x7d"))).isSome := by
      decide +kernel
    obtain ⟨i, hi⟩ := Option.isSome_iff_exists.mp hsome
    have hserial : i.serial = 1 := by
      rw [constructs_serial hi]
      decide +kernel
    have hdestroyed : (trials.run secondTeardown).ledger.destroyed = [0] := by decide +kernel
    obtain ⟨k, token, hk, -⟩ | hd := h.2 1 (_, i) ⟨_, rfl, hi, rfl⟩
    · have hm := List.mem_of_getElem? hk
      simp [secondTeardown] at hm
    · simp [hdestroyed, hserial] at hd

end Traffic
end SequencerHub

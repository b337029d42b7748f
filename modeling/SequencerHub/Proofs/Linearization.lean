import Mathlib.Data.List.Induction
import SequencerHub.Proofs.Traffic

/-! Whatever interleaves at a provider, its registry behaves as a map that is accessed by one caller at a time.
The order is that in which the accesses are made, one for each call. -/
namespace SequencerHub

/-- Who accesses a registry; requests and teardowns are counted as they begin. -/
inductive Caller
  | request (n : Nat)
  | teardown (n : Nat)
  deriving DecidableEq

abbrev History := List (Caller × Access)

namespace History

/-- An atomic map after all the accesses. -/
def replay (h : History) (m : AtomicMap) : AtomicMap := h.foldl (fun m e => e.2.apply m) m

/-- Those who take an instance out of the map under the identifier. -/
def winners (id : SequencerId) : History → AtomicMap → List Caller
  | [], _ => []
  | e :: h, m =>
    if e.2.Removes id ∧ (m id).isSome then e.1 :: winners id h (e.2.apply m)
    else winners id h (e.2.apply m)

theorem replay_append (h h' : History) (m : AtomicMap) :
    History.replay (h ++ h') m = History.replay h' (History.replay h m) := by
  simp [replay]

theorem winners_append (id : SequencerId) (h h' : History) (m : AtomicMap) :
    History.winners id (h ++ h') m = History.winners id h m ++ History.winners id h' (History.replay h m) := by
  induction h generalizing m with
  | nil => rfl
  | cons e h ih =>
    rw [List.cons_append]
    simp only [winners]
    split_ifs
    · rw [ih]; rfl
    · exact ih _

/-- The map keeps what nobody touches. -/
theorem replay_untouched {h : History} {id : SequencerId} (hi : ∀ e ∈ h, ¬ e.2.Inserts id)
    (hr : ∀ e ∈ h, ¬ e.2.Removes id) (m : AtomicMap) : History.replay h m id = m id := by
  induction h generalizing m with
  | nil => rfl
  | cons e h ih =>
    have he : e.2.apply m id = m id := Access.apply_ne (hr e (by simp)) (hi e (by simp)) m
    rw [← he]
    exact ih (fun x hx => hi x (by simp [hx])) (fun x hx => hr x (by simp [hx])) _

theorem replay_missing {h : History} {id : SequencerId} (hi : ∀ e ∈ h, ¬ e.2.Inserts id) {m : AtomicMap}
    (hm : m id = none) : History.replay h m id = none := by
  induction h generalizing m with
  | nil => exact hm
  | cons e h ih =>
    refine ih (fun x hx => hi x (by simp [hx])) ?_
    by_cases hr : e.2.Removes id
    · exact Access.apply_removes hr m
    · exact (Access.apply_ne hr (hi e (by simp)) m).trans hm

theorem winners_untouched {h : History} {id : SequencerId} (hr : ∀ e ∈ h, ¬ e.2.Removes id) (m : AtomicMap) :
    History.winners id h m = [] := by
  induction h generalizing m with
  | nil => rfl
  | cons e h ih =>
    have he : ¬ (e.2.Removes id ∧ (m id).isSome) := fun hc => hr e (by simp) hc.1
    rw [winners, if_neg he]
    exact ih (fun x hx => hr x (by simp [hx])) _

theorem winners_missing {h : History} {id : SequencerId} (hi : ∀ e ∈ h, ¬ e.2.Inserts id) {m : AtomicMap}
    (hm : m id = none) : History.winners id h m = [] := by
  induction h generalizing m with
  | nil => rfl
  | cons e h ih =>
    have he : ¬ (e.2.Removes id ∧ (m id).isSome) := by simp [hm]
    rw [winners, if_neg he]
    exact ih (fun x hx => hi x (by simp [hx])) (replay_missing (h := [e]) (fun x hx => hi x (by simp_all)) hm)

/-- The first access that removes a live identifier wins, and no other does until the identifier is inserted again. -/
theorem winners_eq {before after : History} {e : Caller × Access} {id : SequencerId}
    (hi : ∀ x ∈ before ++ e :: after, ¬ x.2.Inserts id) (hb : ∀ x ∈ before, ¬ x.2.Removes id)
    (he : e.2.Removes id) {m : AtomicMap} (hm : (m id).isSome) :
    History.winners id (before ++ e :: after) m = [e.1] := by
  have hr : History.replay before m id = m id := replay_untouched (fun x hx => hi x (by simp [hx])) hb m
  have hc : e.2.Removes id ∧ (History.replay before m id).isSome := ⟨he, hr ▸ hm⟩
  rw [winners_append, winners_untouched hb, List.nil_append, winners, if_pos hc]
  rw [winners_missing (fun x hx => hi x (by simp [hx])) (Access.apply_removes he _)]

theorem exists_first {h : History} {id : SequencerId} (hr : ∃ e ∈ h, e.2.Removes id) :
    ∃ before e after, h = before ++ e :: after ∧ (∀ x ∈ before, ¬ x.2.Removes id) ∧ e.2.Removes id := by
  induction h with
  | nil => simp at hr
  | cons x h ih =>
    by_cases hx : x.2.Removes id
    · exact ⟨[], x, h, rfl, by simp, hx⟩
    · obtain ⟨before, e, after, rfl, hb, he⟩ := ih (by simpa [hx] using hr)
      exact ⟨x :: before, e, after, rfl, by simpa [hx] using hb, he⟩

theorem replay_removed {h : History} {id : SequencerId} (hi : ∀ e ∈ h, ¬ e.2.Inserts id)
    (hr : ∃ e ∈ h, e.2.Removes id) (m : AtomicMap) : History.replay h m id = none := by
  obtain ⟨before, e, after, rfl, -, he⟩ := exists_first hr
  have hm : e.2.apply (History.replay before m) id = none := Access.apply_removes he _
  rw [replay_append]
  exact replay_missing (h := after) (fun x hx => hi x (by simp [hx])) hm

/-- Of those who would remove a live identifier, the winner is the one who finds it live. -/
theorem winners_iff {before after : History} {e : Caller × Access} {id : SequencerId}
    (hi : ∀ x ∈ before ++ e :: after, ¬ x.2.Inserts id) (he : e.2.Removes id)
    (hn : ((before ++ e :: after).map (·.1)).Nodup) {m : AtomicMap} (hm : (m id).isSome) {c : Caller}
    (hc : History.winners id (before ++ e :: after) m = [c]) :
    c = e.1 ↔ (History.replay before m id).isSome := by
  have hib : ∀ x ∈ before, ¬ x.2.Inserts id := fun x hx => hi x (by simp [hx])
  by_cases hb : ∃ x ∈ before, x.2.Removes id
  · have hnone : History.replay before m id = none := replay_removed hib hb m
    obtain ⟨b, x, b', rfl, hbb, hx⟩ := exists_first hb
    have hw : History.winners id (b ++ x :: (b' ++ e :: after)) m = [x.1] :=
      winners_eq (fun y hy => hi y (by simpa using hy)) hbb hx hm
    have hcx : c = x.1 := by
      rw [List.append_assoc, List.cons_append, hw] at hc
      exact (List.singleton_inj.mp hc).symm
    have hne : x.1 ≠ e.1 := by
      simp only [List.map_append, List.map_cons, List.nodup_append, List.mem_append, List.mem_cons] at hn
      exact hn.2.2 x.1 (.inr (.inl rfl)) e.1 (.inl rfl)
    simp [hcx, hne, hnone]
  · have hbb : ∀ x ∈ before, ¬ x.2.Removes id := fun x hx hxr => hb ⟨x, hx, hxr⟩
    rw [winners_eq hi hbb he hm] at hc
    rw [replay_untouched hib hbb]
    exact iff_of_true (List.singleton_inj.mp hc).symm hm

theorem place_unique {before before' after after' : History} {e : Caller × Access}
    (hn : ((before ++ e :: after).map (·.1)).Nodup) (h : before ++ e :: after = before' ++ e :: after') :
    before' = before := by
  have hm : (before ++ e :: after).Nodup := List.Nodup.of_map _ hn
  have he : e ∉ before ++ after := (List.nodup_cons.mp (List.nodup_middle.mp hm)).1
  simp only [List.mem_append, not_or] at he
  exact ((List.append_cons_inj_of_notMem he.1 he.2).mp h).1.symm

end History

namespace Traffic

def start (p : Provider) (l : Ledger) : Traffic := { provider := p, ledger := l }

/-- The access that a move makes, with the caller for whom it does. -/
def accessBy? (s : Traffic) (m : Move) : Option (Caller × Access) :=
  match m with
  | .request _ => (s.access? m).map (.request s.requests.length, ·)
  | .tearDown _ => (s.access? m).map (.teardown s.teardowns.length, ·)
  | _ => none

def history (s : Traffic) : List Move → History
  | [] => []
  | m :: ms => (s.accessBy? m).toList ++ (s.step m).history ms

theorem access?_eq_accessBy? (s : Traffic) (m : Move) : s.access? m = (s.accessBy? m).map (·.2) := by
  cases m <;> simp [accessBy?, access?, Function.comp_def]

theorem history_append (s : Traffic) (ms ms' : List Move) :
    s.history (ms ++ ms') = s.history ms ++ (s.run ms).history ms' := by
  induction ms generalizing s with
  | nil => rfl
  | cons m ms ih => simp [history, ih, run]

theorem history_concat (s : Traffic) (ms : List Move) (m : Move) :
    s.history (ms ++ [m]) = s.history ms ++ ((s.run ms).accessBy? m).toList := by
  simp [history_append, history]

theorem history_take_isPrefix (s : Traffic) (ms : List Move) (k : Nat) :
    s.history (ms.take k) <+: s.history ms := by
  conv_rhs => rw [← List.take_append_drop k ms, history_append]
  exact List.prefix_append _ _

/-- The registry holds what the atomic map holds. -/
theorem find?_run (s : Traffic) (ms : List Move) :
    (s.run ms).provider.live.find? = (s.history ms).replay s.provider.live.find? := by
  induction ms generalizing s with
  | nil => rfl
  | cons m ms ih =>
    have hm : (s.step m).provider.live.find? = History.replay (s.accessBy? m).toList s.provider.live.find? := by
      rw [step_live, access?_eq_accessBy?]
      cases s.accessBy? m with
      | none => rfl
      | some e => exact e.2.find?_on _
    rw [history, History.replay_append, ← hm]
    exact ih (s.step m)

/-- Whether an entry in the order of accesses is the one of a call that has begun. -/
def Owns (s : Traffic) : Caller × Access → Prop
  | (.request n, a) => ∃ r w, s.requests[n]? = some (r, w) ∧ s.provider.Accepts r ∧
      (r.asks = some a ∨ ∃ id i, a = .insert id i ∧ w.minted? = some id)
  | (.teardown n, a) => n < s.teardowns.length ∧ a = .drain

/-- What the order of accesses tells of a request and of how it stands. -/
structure Explains (h : History) (m : AtomicMap) (p : Provider) (n : Nat) (r : Request) (w : Work) : Prop where
  decided : p.Accepts r → ∀ a, r.asks = some a → ∃ before after, h = before ++ (.request n, a) :: after ∧
    (w.IsMissing ↔ a.finds (History.replay before m) = none)
  missing : w.IsMissing → p.Accepts r ∧ r.asks.isSome
  named : ∀ id, w.minted? = some id → ∃ i, (.request n, .insert id i) ∈ h

section Step

variable {s : Traffic} (m : Move)

theorem requests_length_step : s.requests.length ≤ (s.step m).requests.length := by
  cases m with
  | request r => simp [step]
  | tearDown opened => exact Nat.le_refl _
  | _ =>
    simp only [step]
    split <;> simp

theorem teardowns_length_step : s.teardowns.length ≤ (s.step m).teardowns.length := by
  cases m with
  | tearDown opened => simp [step]
  | request r => exact Nat.le_refl _
  | _ =>
    simp only [step]
    split <;> simp

theorem requests_step {n : Nat} {r : Request} {w : Work} (h : s.requests[n]? = some (r, w)) :
    ∃ w', (s.step m).requests[n]? = some (r, w') ∧ w'.minted? = w.minted? := by
  have hn : n < s.requests.length := (List.getElem?_eq_some_iff.mp h).1
  have hn' : n < (s.step m).requests.length := Nat.lt_of_lt_of_le hn (requests_length_step m)
  obtain ⟨w', hw'⟩ : ∃ x, (s.step m).requests[n]? = some x := ⟨_, List.getElem?_eq_getElem hn'⟩
  obtain ⟨w₀, hw, -, hm⟩ | ⟨hl, -⟩ := step_requests s m hw'
  · rw [h, Option.some.injEq, Prod.mk.injEq] at hw
    obtain ⟨hr, rfl⟩ := hw
    exact ⟨w'.2, hr ▸ hw', hm⟩
  · exact absurd hl (Nat.ne_of_lt hn)

theorem owns_step {e : Caller × Access} (h : s.Owns e) : (s.step m).Owns e := by
  obtain ⟨c, a⟩ := e
  cases c with
  | request n =>
    obtain ⟨r, w, hr, ha, hw⟩ := h
    obtain ⟨w', hr', hm⟩ := requests_step m hr
    exact ⟨r, w', hr', (accepts_congr (step_options s m) r).mpr ha, hm ▸ hw⟩
  | teardown n => exact ⟨Nat.lt_of_lt_of_le h.1 (teardowns_length_step m), h.2⟩

theorem owns_entry {e : Caller × Access} (h : s.accessBy? m = some e) : (s.step m).Owns e := by
  cases m with
  | request r =>
    obtain ⟨a, ha, rfl⟩ := Option.map_eq_some_iff.mp h
    have hr : (s.step (.request r)).requests[s.requests.length]? =
        some (r, (s.provider.handle r s.ledger).2.1) := by simp [step]
    refine ⟨r, _, hr, (accepts_congr (step_options s _) r).mpr (Provider.accepts_of_access? ha), ?_⟩
    obtain ht | ⟨i, hi, rfl⟩ := Provider.access?_cases ha
    · exact .inl ht
    · refine .inr ⟨s.ledger.nextId, i, rfl, ?_⟩
      rw [(s.provider.handle_served r s.ledger).named, hi, Option.map_some]
  | tearDown opened =>
    obtain rfl : (.teardown s.teardowns.length, .drain) = e := by simpa [accessBy?, access?] using h
    exact ⟨by simp [step], rfl⟩
  | resume n opened => cases h
  | resumeTeardown n opened => cases h

theorem not_owns_of_accessBy? {e : Caller × Access} (h : s.accessBy? m = some e) (a : Access) : ¬ s.Owns (e.1, a) := by
  cases m with
  | request r =>
    obtain ⟨b, -, rfl⟩ := Option.map_eq_some_iff.mp h
    rintro ⟨r, w, hr, -⟩
    exact absurd (List.getElem?_eq_some_iff.mp hr).1 (Nat.lt_irrefl _)
  | tearDown opened =>
    obtain rfl : (.teardown s.teardowns.length, .drain) = e := by simpa [accessBy?, access?] using h
    exact fun ho => Nat.lt_irrefl _ ho.1
  | resume n opened => cases h
  | resumeTeardown n opened => cases h

/-- A request that is served now makes its access after all others. -/
theorem explains_served {h : History} {m₀ : AtomicMap} {p : Provider} (hp : s.provider.options = p.options)
    (hs : s.provider.live.find? = h.replay m₀) {r : Request} {w : Work} {q : Provider} {l : Ledger}
    (hr : Provider.Served s.provider r s.ledger (q, w, l)) :
    Explains (h ++ (s.accessBy? (.request r)).toList) m₀ p s.requests.length r w := by
  refine ⟨fun ha a hra => ?_, fun hm => ?_, fun id hid => ?_⟩
  · have hacc : s.provider.access? r s.ledger = some a :=
      Provider.access?_of_asks hra ((accepts_congr hp r).mpr ha) s.ledger
    refine ⟨h, [], by simp [accessBy?, access?, hacc], ?_⟩
    rw [hr.missing, hacc, ← hs]
    cases r <;> cases hra <;> simp [Access.finds, Access.target?]
  · obtain ⟨a, ha, id, hid, -⟩ := hr.missing.mp hm
    refine ⟨(accepts_congr hp r).mp (Provider.accepts_of_access? ha), ?_⟩
    obtain ht | ⟨i, -, rfl⟩ := Provider.access?_cases ha
    · simp [ht]
    · cases hid
  · have hc := hr.named
    rw [hid] at hc
    obtain ⟨i, hi, rfl⟩ := Option.map_eq_some_iff.mp hc.symm
    cases r with
    | construct how token sequencerType config =>
      exact ⟨i, by simp [accessBy?, access?, Provider.access?, hi]⟩
    | _ => cases hi

theorem explains_step {h : History} {m₀ : AtomicMap} {p : Provider} (hp : s.provider.options = p.options)
    (hs : s.provider.live.find? = h.replay m₀)
    (he : ∀ n r w, s.requests[n]? = some (r, w) → Explains h m₀ p n r w) {n : Nat} {r : Request} {w : Work}
    (hw : (s.step m).requests[n]? = some (r, w)) : Explains (h ++ (s.accessBy? m).toList) m₀ p n r w := by
  obtain ⟨w₀, hw₀, hm, hn⟩ | ⟨rfl, rfl, hr⟩ := step_requests s m hw
  · obtain ⟨hd, hmi, hna⟩ := he n r w₀ hw₀
    refine ⟨fun ha a hra => ?_, fun h => hmi (hm.mp h), fun id hid => ?_⟩
    · obtain ⟨before, after, rfl, hb⟩ := hd ha a hra
      exact ⟨before, after ++ (s.accessBy? m).toList, by simp, hm.trans hb⟩
    · obtain ⟨i, hi⟩ := hna id (hn ▸ hid)
      exact ⟨i, List.mem_append_left _ hi⟩
  · exact explains_served hp hs hr

end Step

section Run

variable (p : Provider) (l : Ledger) (ms : List Move)

theorem owns_run : ∀ e ∈ (start p l).history ms, ((start p l).run ms).Owns e := by
  induction ms using List.reverseRecOn with
  | nil => simp [history]
  | append_singleton ms m ih =>
    intro e he
    rw [history_concat, List.mem_append] at he
    rw [run_concat]
    rcases he with he | he
    · exact owns_step m (ih e he)
    · exact owns_entry m (Option.mem_toList.mp he)

/-- No call accesses the registry twice. -/
theorem callers_nodup : (((start p l).history ms).map (·.1)).Nodup := by
  induction ms using List.reverseRecOn with
  | nil => simp [history]
  | append_singleton ms m ih =>
    rw [history_concat, List.map_append]
    refine List.Nodup.append ih (by cases ((start p l).run ms).accessBy? m <;> simp) ?_
    intro c hc hc'
    obtain ⟨x, hx, rfl⟩ := List.mem_map.mp hc
    obtain ⟨e, he, hex⟩ := List.mem_map.mp hc'
    have hn := not_owns_of_accessBy? m (Option.mem_toList.mp he) x.2
    rw [hex] at hn
    exact hn (owns_run p l ms x hx)

theorem explains_run {n : Nat} {r : Request} {w : Work} (h : ((start p l).run ms).requests[n]? = some (r, w)) :
    Explains ((start p l).history ms) p.live.find? p n r w := by
  induction ms using List.reverseRecOn generalizing n r w with
  | nil => cases h
  | append_singleton ms m ih =>
    rw [run_concat] at h
    rw [history_concat]
    exact explains_step m (run_options _ ms) (find?_run _ ms) (fun n r w => ih) h

theorem teardowns_run {n : Nat} (h : n < ((start p l).run ms).teardowns.length) :
    (.teardown n, .drain) ∈ (start p l).history ms := by
  induction ms using List.reverseRecOn generalizing n with
  | nil => cases h
  | append_singleton ms m ih =>
    rw [run_concat] at h
    rw [history_concat, List.mem_append]
    by_cases hn : n < ((start p l).run ms).teardowns.length
    · exact .inl (ih hn)
    · refine .inr ?_
      cases m with
      | tearDown opened =>
        have hl : n = ((start p l).run ms).teardowns.length := by
          simp only [step, List.length_append, List.length_singleton] at h
          omega
        simp [accessBy?, access?, hl]
      | request r => exact absurd h hn
      | _ =>
        refine absurd ?_ hn
        simp only [step] at h
        split at h <;> simpa using h

end Run

/-- What it means that the moves at a provider are as good as accesses to an atomic map in turn. -/
structure Linearizes (p : Provider) (l : Ledger) (ms : List Move) : Prop where
  once : (((start p l).history ms).map (·.1)).Nodup
  ordered : ∀ k, (start p l).history (ms.take k) <+: (start p l).history ms
  /-- Every access is one that its caller is to make. -/
  owned : ∀ e ∈ (start p l).history ms, ((start p l).run ms).Owns e
  /-- The registry and the atomic map have the same contents at all times. -/
  contents : ∀ k, ((start p l).after ms k).provider.live.find? =
    ((start p l).history (ms.take k)).replay p.live.find?
  /-- Whether a sequencer is found is decided at the access, as it is for the atomic map. -/
  explained : ∀ n r w, ((start p l).run ms).requests[n]? = some (r, w) →
    Explains ((start p l).history ms) p.live.find? p n r w
  drained : ∀ n < ((start p l).run ms).teardowns.length, (.teardown n, .drain) ∈ (start p l).history ms
  /-- Of all who would take a live sequencer out, one does, and whoever else asks for it does not find it. -/
  won : ∀ before during after id, (start p l).history ms = before ++ (during ++ after) →
    (History.replay before p.live.find? id).isSome → (∀ e ∈ during, ¬ e.2.Inserts id) →
    (∃ e ∈ during, e.2.Removes id) →
    ∃ c, History.winners id during (History.replay before p.live.find?) = [c] ∧
      ∀ n r w a, (.request n, a) ∈ during → a.Removes id →
        ((start p l).run ms).requests[n]? = some (r, w) → (c = .request n ↔ ¬ w.IsMissing)

theorem wins (p : Provider) (l : Ledger) (ms : List Move) {before during after : History} {id : SequencerId}
    (hh : (start p l).history ms = before ++ (during ++ after))
    (hm : (History.replay before p.live.find? id).isSome) (hi : ∀ e ∈ during, ¬ e.2.Inserts id) {c : Caller}
    (hc : History.winners id during (History.replay before p.live.find?) = [c]) {n : Nat} {r : Request} {w : Work}
    {a : Access} (ha : (.request n, a) ∈ during) (har : a.Removes id)
    (hr : ((start p l).run ms).requests[n]? = some (r, w)) : c = .request n ↔ ¬ w.IsMissing := by
  have hn := callers_nodup p l ms
  obtain ⟨d, d', rfl⟩ := List.append_of_mem ha
  have hall : (start p l).history ms = (before ++ d) ++ (.request n, a) :: (d' ++ after) := by simp [hh]
  obtain ⟨r', w', hr', hacc, hask⟩ := owns_run p l ms (.request n, a) (by simp [hall])
  obtain ⟨rfl, rfl⟩ : r = r' ∧ w = w' := by simpa [hr] using hr'
  have hra : r.asks = some a := by
    obtain h | ⟨id', i, rfl, -⟩ := hask
    · exact h
    · exact har.elim
  have hp : p.Accepts r := (accepts_congr (run_options _ ms) r).mp hacc
  obtain ⟨b, b', hb, hw⟩ := (explains_run p l ms hr).decided hp a hra
  rw [hall] at hb hn
  obtain rfl : b = before ++ d := History.place_unique hn hb
  have hnd : ((d ++ (.request n, a) :: d').map (·.1)).Nodup := by
    refine hn.sublist (List.Sublist.map _ ?_)
    rw [List.append_assoc]
    exact (List.Sublist.append_left ((List.sublist_append_left d' after).cons_cons _) d).trans
      (List.sublist_append_right before _)
  have hf : a.finds (History.replay (before ++ d) p.live.find?) =
      History.replay d (History.replay before p.live.find?) id := by
    rw [History.replay_append]
    cases a with
    | remove id' => cases har; rfl
    | insert id' i => exact har.elim
    | lookup id' => exact har.elim
    | drain => cases r <;> cases hra
  rw [History.winners_iff hi har hnd hm hc, hw, hf, Option.isSome_iff_ne_none]

/-- One provider is linearizable, however its requests and teardowns interleave. -/
theorem linearizes (p : Provider) (l : Ledger) (ms : List Move) : Linearizes p l ms where
  once := callers_nodup p l ms
  ordered := history_take_isPrefix _ ms
  owned := owns_run p l ms
  contents k := find?_run _ (ms.take k)
  explained n r w h := explains_run p l ms h
  drained n h := teardowns_run p l ms h
  won := by
    intro before during after id hh hm hi hr
    obtain ⟨b, e, a, hd, hb, he⟩ := History.exists_first hr
    have hc : History.winners id during (History.replay before p.live.find?) = [e.1] := by
      rw [hd] at hi ⊢
      exact History.winners_eq hi hb he hm
    exact ⟨e.1, hc, fun n r w a ha har hw => wins p l ms hh hm hi hc ha har hw⟩

end Traffic
end SequencerHub

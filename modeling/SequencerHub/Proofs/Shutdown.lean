import SequencerHub.Proofs.Reception

/-! The end of a server. Once it has been asked to stop and nobody waits for a response any more, its host is torn down
and it returns. Whoever hung up before may have left a task, and nothing waits for that. -/
namespace SequencerHub
namespace Hub

variable (h : Hub)

inductive Becomes (m : Move) (host : Host) : Host → Prop
  | same : Becomes m host host
  | asked : Becomes m host { host with stopping := true }
  | served {id : UInt16} {p : Provider} (q : Request) (l : Ledger) (hp : host.find? id = some p) :
      Becomes m host (host.put (p.handle q l).1)
  | provided {n : Nat} {o : ProviderOptions} {f : Factory} (hm : m = .provide n o f) :
      Becomes m host (host.put { options := o, factory := f })
  | thinned (id : UInt16) : Becomes m host { host with providers := host.providers.filter (·.id ≠ id) }
  | emptied : Becomes m host { host with providers := [] }

/-- What can happen to the hosts when one thing happens: there is a new one, or something becomes of one. -/
inductive Moved (m : Move) (h : Hub) : List Host → Prop
  | same : Moved m h h.hosts
  | added (address : String) : Moved m h (h.hosts ++ [({ address } : Host)])
  | set {n : Nat} {host host' : Host} (hn : h.hosts[n]? = some host) (hb : Becomes m host host') :
      Moved m h (h.hosts.set n host')

theorem advance_moved (k : Nat) : Moved (.advance k) h (h.advance k).hosts := by
  cases hk : h.tasks[k]? with
  | none =>
    simp only [advance, hk]
    exact .same
  | some t =>
    rw [h.advance_eq t hk]
    have hran := run_ran (h := h) t
    generalize h.run t = out at hran
    cases hran with
    | aside => exact .same
    | served hn hp => exact .set hn (.served _ _ hp)
    | torn => exact .same

theorem step_moved {m : Move} (hm : ∀ gate, m ≠ .openGate gate) : Moved m h (h.step m).hosts := by
  have hstepped := h.step_stepped m
  generalize h.step m = h' at hstepped
  cases hstepped with
  | kept hh => exact hh ▸ .same
  | added address => exact .added address
  | asked hn => exact .set hn .asked
  | provided hn => exact .set hn (.provided rfl)
  | thinned hn => exact .set hn (.thinned _)
  | emptied hn => exact .set hn .emptied
  | sent => exact .same
  | advanced k => exact h.advance_moved k
  | opened gate => exact absurd rfl (hm gate)

def IsStopping (n : Nat) : Prop := (h.hosts[n]?).any (·.stopping) = true

instance (n : Nat) : Decidable (h.IsStopping n) := inferInstanceAs (Decidable (_ = true))

section Stopping

variable {h} {n : Nat}

theorem isStopping_iff : h.IsStopping n ↔ ∃ host, h.hosts[n]? = some host ∧ host.stopping = true := by
  simp [IsStopping, Option.any_eq_true]

theorem Becomes.stopping {m : Move} {host host' : Host} (hb : Becomes m host host') (hs : host.stopping = true) :
    host'.stopping = true := by
  cases hb with
  | asked => rfl
  | _ => exact hs

/-- A host that has been asked to stop stays so. -/
theorem IsStopping.step (hs : h.IsStopping n) {m : Move} (hm : ∀ gate, m ≠ .openGate gate) :
    (h.step m).IsStopping n := by
  obtain ⟨x, hx, hxs⟩ := isStopping_iff.mp hs
  have hmoved := h.step_moved hm
  rw [isStopping_iff]
  generalize (h.step m).hosts = hosts at hmoved
  cases hmoved with
  | same => exact ⟨x, hx, hxs⟩
  | added address => exact ⟨x, (List.getElem?_append_left (List.getElem?_eq_some_iff.mp hx).1).trans hx, hxs⟩
  | @set k host host' hk hb =>
    rcases eq_or_ne k n with rfl | hne
    · obtain rfl : host = x := Option.some.inj (hk.symm.trans hx)
      exact ⟨host', List.getElem?_set_self (List.getElem?_eq_some_iff.mp hk).1, hb.stopping hxs⟩
    · exact ⟨x, (List.getElem?_set_ne hne).trans hx, hxs⟩

end Stopping

section Tasks

variable {h}

theorem run_isTearing (t : Task) : (h.run t).2.IsTearing ↔ t.IsTearing := by
  have hran := run_ran (h := h) t
  generalize h.run t = out at hran
  cases hran with
  | aside hl ht ht' => exact iff_of_false ht' ht
  | served hn hp hl ht ht' => exact iff_of_false ht' ht
  | torn t₀ ht => exact iff_of_true trivial (ht ▸ trivial)

/-- What happens to the tasks when one thing happens that does not send a request. -/
theorem step_tasks_cases {m : Move} (hm : ∀ gate, m ≠ .openGate gate) (hsend : ∀ link id q, m ≠ .send link id q) :
    (h.step m).tasks = h.tasks ∨
      (∃ k t, h.tasks[k]? = some t ∧ (h.step m).tasks = h.tasks.set k (h.run t).2) ∨
      ∃ t, (h.step m).tasks = h.tasks ++ [.tearing t] := by
  by_cases hstirs : m.Stirs
  · cases m with
    | tearDown k =>
      simp only [step, tearDown]
      split
      · exact .inl rfl
      · exact .inr (.inr ⟨_, rfl⟩)
    | send link id q => exact absurd rfl (hsend link id q)
    | advance k =>
      cases hk : h.tasks[k]? with
      | none => exact .inl (by simp only [step, advance, hk])
      | some t => exact .inr (.inl ⟨k, t, hk, by rw [step, h.advance_eq t hk]⟩)
    | openGate gate => exact absurd rfl (hm gate)
    | _ => exact hstirs.elim
  · exact .inl (h.step_tasks_eq hstirs)

theorem receive_tasks (e : Entrance) : (h.receive e).1.tasks = h.tasks ∨ ∃ n id q, h.receive e = h.spawn n id q := by
  obtain heq | ⟨n, heq⟩ | hspawn := h.receive_cases e
  · exact .inl (congrArg Hub.tasks heq)
  · refine .inl ((congrArg Hub.tasks heq).trans ?_)
    simp only [step, stop]
    split <;> rfl
  · exact .inr hspawn

end Tasks
end Hub

namespace Stage

def Waits : Stage → Prop
  | arriving | joining .. => True
  | _ => False

instance (s : Stage) : Decidable s.Waits := by
  unfold Waits
  split <;> infer_instance

/-- Whether a task was begun for the request and its reply has not been given back. -/
def Holds (task : Nat) : Stage → Prop
  | joining k _ => k = task
  | gone k => k = some task
  | _ => False

end Stage

namespace Reception

/-- What happens at a server of one host: requests come over the wire. -/
def Move.Serves (n : Nat) : Move → Prop
  | arrive (.http k _) => k = n
  | arrive _ => False
  | hub (.send ..) _ => False
  | _ => True

instance (n : Nat) (m : Move) : Decidable (m.Serves n) := by
  unfold Move.Serves
  split <;> infer_instance

/-- A server that has been asked to stop, and has nobody left who waits. -/
structure IsDone (s : Reception) (n : Nat) : Prop where
  stopping : s.hub.IsStopping n
  idle : ∀ g ∈ s.guests, ¬ g.stage.Waits

instance (s : Reception) (n : Nat) : Decidable (s.IsDone n) :=
  decidable_of_iff (s.hub.IsStopping n ∧ ∀ g ∈ s.guests, ¬ g.stage.Waits)
    ⟨fun h => ⟨h.1, h.2⟩, fun h => ⟨h.stopping, h.idle⟩⟩

def Finished (s : Reception) (k : Nat) : Prop := (s.hub.reply? k).isSome = true

instance (s : Reception) (k : Nat) : Decidable (s.Finished k) := inferInstanceAs (Decidable (_ = true))

/-- Every task is a teardown, or has a reply, or somebody has joined it or left it. -/
def Attended (s : Reception) : Prop :=
  ∀ k t, s.hub.tasks[k]? = some t → t.IsTearing ∨ t.reply?.isSome = true ∨ ∃ g ∈ s.guests, g.stage.Holds k

section Attended

variable {abandon : Task → Task} {s : Reception}

theorem finished_iff {k : Nat} {t : Task} (hk : s.hub.tasks[k]? = some t) : s.Finished k ↔ t.reply?.isSome = true := by
  rw [Finished, Hub.reply?, hk]
  rfl

theorem isSome_reply?_run (h : Hub) {t : Task} (ht : t.reply?.isSome = true) : (h.run t).2.reply?.isSome = true := by
  cases t with
  | replied r => rfl
  | _ => cases ht

theorem getElem?_concat_iff {α : Type} {xs : List α} {x y : α} {k : Nat} :
    (xs ++ [x])[k]? = some y ↔ xs[k]? = some y ∨ k = xs.length ∧ y = x := by
  rcases Nat.lt_trichotomy k xs.length with hlt | rfl | hgt
  · simp [List.getElem?_append_left hlt, hlt.ne]
  · simp [eq_comm]
  · simp [List.getElem?_eq_none_iff.mpr hgt.le, List.getElem?_append_right hgt.le, Nat.sub_ne_zero_of_lt hgt, hgt.ne']

theorem mem_set_of_mem {g x : Guest} {n : Nat} (hg : s.guests[n]? = some g) (hx : x ∈ s.guests) (g' : Guest) :
    x = g ∨ x ∈ s.guests.set n g' := by
  obtain ⟨i, hi⟩ := List.mem_iff_getElem?.mp hx
  rcases eq_or_ne n i with rfl | hne
  · exact .inl (Option.some.inj (hi.symm.trans hg))
  · exact .inr (List.mem_iff_getElem?.mpr ⟨i, (List.getElem?_set_ne hne).trans hi⟩)

theorem Attended.hub (ha : s.Attended) {m : Hub.Move} (hm : ∀ gate, m ≠ .openGate gate)
    (hsend : ∀ link id q, m ≠ .send link id q) : Attended { s with hub := s.hub.step m } := by
  intro k t hk
  obtain heq | ⟨j, t₀, hj, heq⟩ | ⟨t₀, heq⟩ := Hub.step_tasks_cases (h := s.hub) hm hsend
  · exact ha k t (heq ▸ hk)
  · dsimp only at hk
    rw [heq] at hk
    rcases eq_or_ne j k with rfl | hne
    · obtain rfl : (s.hub.run t₀).2 = t := by
        simpa [List.getElem?_set_self (List.getElem?_eq_some_iff.mp hj).1] using hk
      exact (ha j t₀ hj).imp (Hub.run_isTearing t₀).mpr (Or.imp_left (isSome_reply?_run s.hub))
    · exact ha k t ((List.getElem?_set_ne hne).symm.trans hk)
  · dsimp only at hk
    rw [heq] at hk
    obtain hk | ⟨-, rfl⟩ := getElem?_concat_iff.mp hk
    · exact ha k t hk
    · exact .inl trivial

theorem Attended.set (ha : s.Attended) {n : Nat} {g g' : Guest} (hg : s.guests[n]? = some g)
    (hkeep : ∀ k, g.stage.Holds k → g'.stage.Holds k ∨ s.Finished k) {hub : Hub} (ht : hub.tasks = s.hub.tasks) :
    Attended ⟨hub, s.guests.set n g'⟩ := by
  have hn := (List.getElem?_eq_some_iff.mp hg).1
  intro k t hk
  rw [ht] at hk
  obtain htear | hreply | ⟨x, hx, hholds⟩ := ha k t hk
  · exact .inl htear
  · exact .inr (.inl hreply)
  · obtain rfl | hx := mem_set_of_mem hg hx g'
    · obtain hholds | hfin := hkeep k hholds
      · exact .inr (.inr ⟨g', List.mem_set hn g', hholds⟩)
      · exact .inr (.inl ((finished_iff hk).mp hfin))
    · exact .inr (.inr ⟨x, hx, hholds⟩)

theorem Attended.handle (ha : s.Attended) (n : Nat) : (s.handle n).Attended := by
  simp only [Reception.handle]
  split
  · rename_i e hg
    obtain heq | ⟨m, id, q, heq⟩ := Hub.receive_tasks (h := s.hub) e
    · exact ha.set hg (fun k hk => hk.elim) heq
    · intro k t hk
      simp only [heq, Hub.spawn, Hub.start] at hk ⊢
      obtain hk | ⟨rfl, -⟩ := getElem?_concat_iff.mp hk
      · exact ha.set hg (fun k hk => hk.elim) rfl k t hk
      · exact .inr (.inr ⟨_, List.mem_set (List.getElem?_eq_some_iff.mp hg).1 _, rfl⟩)
  · exact ha

theorem Attended.answer (ha : s.Attended) (n : Nat) : (s.answer n).Attended := by
  simp only [Reception.answer, List.modify_eq_set_getElem?]
  cases hg : s.guests[n]? with
  | none => exact ha
  | some g =>
    refine ha.set hg (fun k hk => ?_) rfl
    obtain ⟨e, stage⟩ := g
    cases stage with
    | joining task id =>
      obtain rfl : task = k := hk
      simp only [answered]
      split
      · rename_i reply hreply
        exact .inr (by rw [Finished, hreply]; rfl)
      · exact .inl rfl
    | _ => exact .inl hk

theorem Attended.hangUp (hd : Detaches abandon) (ha : s.Attended) (n : Nat) : (s.hangUp abandon n).Attended := by
  simp only [Reception.hangUp, hd.leave]
  split
  · rename_i g hg
    refine ha.set hg (fun k hk => .inl ?_) rfl
    obtain ⟨e, stage⟩ := g
    cases stage with
    | arriving => exact hk.elim
    | joining task id => exact congrArg some hk
    | _ => exact hk
  · exact ha

theorem Attended.arrive (ha : s.Attended) (e : Entrance) : (s.arrive e).Attended := by
  intro k t hk
  refine (ha k t hk).imp_right (Or.imp_right ?_)
  rintro ⟨g, hg, hholds⟩
  exact ⟨g, List.mem_append_left _ hg, hholds⟩

theorem Attended.step (hd : Detaches abandon) (ha : s.Attended) {n : Nat} {m : Move} (hm : m.Serves n) :
    (s.step abandon m).Attended := by
  cases m with
  | hub m single =>
    refine ha.hub single ?_
    rintro link id q rfl
    exact hm
  | gates opened => exact ha
  | arrive e => exact ha.arrive e
  | handle n => exact ha.handle n
  | answer n => exact ha.answer n
  | hangUp n => exact ha.hangUp hd n

theorem Attended.run (hd : Detaches abandon) (ha : s.Attended) {n : Nat} {ms : List Move}
    (hm : ∀ m ∈ ms, m.Serves n) : (s.run abandon ms).Attended :=
  run_induction (fun _ m hmem ha => ha.step hd (hm m hmem)) ha

end Attended

section Done

variable {abandon : Task → Task} {s : Reception} {n : Nat}

theorem answered_of_not_waits (h : Hub) {g : Guest} (hg : ¬ g.stage.Waits) : answered h g = g := by
  obtain ⟨e, stage⟩ := g
  cases stage with
  | joining task id => exact absurd trivial hg
  | _ => rfl

/-- Whoever comes to a server that is done is turned away, and nobody is left to be answered. -/
theorem IsDone.step (hd : Detaches abandon) (hs : s.IsDone n) {m : Move} (hm : m.Serves n) :
    (s.step abandon m).IsDone n := by
  cases m with
  | hub m single => exact ⟨hs.stopping.step single, hs.idle⟩
  | gates opened => exact ⟨hs.stopping, hs.idle⟩
  | arrive e =>
    refine ⟨hs.stopping, fun g hg => ?_⟩
    rcases List.mem_append.mp hg with hg | hg
    · exact hs.idle g hg
    · obtain rfl := List.mem_singleton.mp hg
      cases e with
      | http k r =>
        obtain rfl : k = n := hm
        have hstop : (s.hub.hosts[k]?).any (·.stopping) = true := hs.stopping
        simp [Hub.admits, hstop, Stage.Waits]
      | named address id q => exact hm.elim
      | shutdown address => exact hm.elim
  | handle k =>
    have hk : s.handle k = s := handle_of_hasBegun fun g hg => by
      have hidle := hs.idle g (List.mem_of_getElem? hg)
      obtain ⟨e, stage⟩ := g
      cases stage with
      | arriving => exact hidle trivial
      | _ => exact trivial
    rwa [Reception.step, hk]
  | answer k =>
    have hk : s.answer k = s := by
      simp only [answer, List.modify_eq_set_getElem?]
      cases hg : s.guests[k]? with
      | none => rfl
      | some g =>
        have hidle := answered_of_not_waits s.hub (hs.idle g (List.mem_of_getElem? hg))
        simp only [Option.map_eq_map, Option.map_some, Option.getD_some, hidle, set_guest hg]
    rwa [Reception.step, hk]
  | hangUp k =>
    simp only [Reception.step, hangUp, hd.leave]
    split
    · rename_i g hg
      refine ⟨hs.stopping, fun x hx => ?_⟩
      rcases List.mem_or_eq_of_mem_set hx with hx | rfl
      · exact hs.idle x hx
      · have hidle := hs.idle g (List.mem_of_getElem? hg)
        obtain ⟨e, stage⟩ := g
        cases stage <;> first | exact hidle | exact not_false
    · exact hs

theorem IsDone.run (hd : Detaches abandon) (hs : s.IsDone n) {ms : List Move} (hm : ∀ m ∈ ms, m.Serves n) :
    (s.run abandon ms).IsDone n :=
  run_induction (P := (IsDone · n)) (fun _ m hmem hs => hs.step hd (hm m hmem)) hs

end Done

section Request

variable {abandon : Task → Task} {s : Reception} {n k : Nat}

/-- No task disappears, and what stays true of one that goes on stays true. -/
theorem exists_task_step (hd : Detaches abandon) {P : Task → Prop} (hp : ∀ (h : Hub) t, P t → P (h.run t).2)
    (hk : ∃ t, s.hub.tasks[k]? = some t ∧ P t) {m : Move} (hm : m.Serves n) :
    ∃ t, (s.step abandon m).hub.tasks[k]? = some t ∧ P t := by
  obtain ⟨t, ht, hpt⟩ := hk
  cases m with
  | hub m single =>
    have hsend : ∀ link id q, m ≠ .send link id q := by
      rintro link id q rfl
      exact hm
    simp only [step]
    obtain heq | ⟨j, t₀, hj, heq⟩ | ⟨t₀, heq⟩ := Hub.step_tasks_cases (h := s.hub) single hsend
    · exact ⟨t, heq ▸ ht, hpt⟩
    · rcases eq_or_ne j k with rfl | hne
      · obtain rfl : t = t₀ := Option.some.inj (ht.symm.trans hj)
        rw [heq]
        exact ⟨_, List.getElem?_set_self (List.getElem?_eq_some_iff.mp hj).1, hp s.hub t hpt⟩
      · exact ⟨t, by rw [heq, List.getElem?_set_ne hne, ht], hpt⟩
    · exact ⟨t, by rw [heq, List.getElem?_append_left (List.getElem?_eq_some_iff.mp ht).1, ht], hpt⟩
  | gates opened => exact ⟨t, ht, hpt⟩
  | arrive e => exact ⟨t, ht, hpt⟩
  | handle j =>
    simp only [step, handle]
    split
    · rename_i e _
      obtain heq | ⟨m, id, q, heq⟩ := Hub.receive_tasks (h := s.hub) e
      · exact ⟨t, heq ▸ ht, hpt⟩
      · refine ⟨t, ?_, hpt⟩
        simp only [heq, Hub.spawn, Hub.start]
        rw [List.getElem?_append_left (List.getElem?_eq_some_iff.mp ht).1, ht]
    · exact ⟨t, ht, hpt⟩
  | answer j => exact ⟨t, ht, hpt⟩
  | hangUp j => exact ⟨t, by rw [step, hd.hub_hangUp, ht], hpt⟩

theorem exists_task_run (hd : Detaches abandon) {P : Task → Prop} (hp : ∀ (h : Hub) t, P t → P (h.run t).2)
    (hk : ∃ t, s.hub.tasks[k]? = some t ∧ P t) {ms : List Move} (hm : ∀ m ∈ ms, m.Serves n) :
    ∃ t, (s.run abandon ms).hub.tasks[k]? = some t ∧ P t :=
  run_induction (P := fun s => ∃ t, s.hub.tasks[k]? = some t ∧ P t)
    (fun _ m hmem hk => exists_task_step hd hp hk (hm m hmem)) hk

theorem Unregisters.exists_task (hd : Detaches abandon) {ms : List Move} {i : Instance}
    (hu : s.Unregisters abandon ms k i) (hm : ∀ m ∈ ms, m.Serves n) :
    ∃ t, (s.run abandon ms).hub.tasks[k]? = some t ∧ ¬ t.IsTearing := by
  obtain ⟨before, single, after, rfl, hu⟩ := hu
  obtain ⟨link, -, id, token, sid, -, hk, -⟩ := Hub.unregisters?_eq_some hu
  have hafter : ∀ m ∈ Move.hub (.advance k) single :: after, m.Serves n :=
    fun m hmem => hm m (List.mem_append_right _ hmem)
  rw [run, List.foldl_append]
  exact exists_task_run hd (fun h t => mt (Hub.run_isTearing t).mp) ⟨_, hk, not_false⟩ hafter

end Request

def TornDown (s : Reception) (k : Nat) : Prop :=
  (s.hub.tasks[k]?).any (fun t => match t with | .tearing .finished => true | _ => false) = true

instance (s : Reception) (k : Nat) : Decidable (s.TornDown k) := inferInstanceAs (Decidable (_ = true))

/-- A run of a server up to its return: it serves until it is done, then it no longer listens and tears its host down,
and it returns when that is finished. -/
def Returned (abandon : Task → Task) (n : Nat) (s : Reception) (ms : List Move) : Prop :=
  ∃ serving closing, ms = serving ++ .hub (.stopServing n) nofun :: .hub (.tearDown n) nofun :: closing ∧
    (s.run abandon serving).IsDone n ∧ (s.run abandon ms).TornDown (s.run abandon serving).hub.tasks.length

/-- Whatever a request to destroy a sequencer took out of a registry has been called once to be destroyed, and that call
has come to its end. -/
def Lossless (abandon : Task → Task) (s : Reception) (ms : List Move) : Prop :=
  ∀ k i, s.Unregisters abandon ms k i →
    (s.run abandon ms).hub.ledger.destroyed.count i.serial = 1 ∧ (s.run abandon ms).Finished k

/-- A server that returns has lost no destruction exactly if none was left behind by somebody who hung up. -/
theorem lossless_iff {abandon : Task → Task} (hd : Detaches abandon) (supply : Nat → SequencerId) (n : Nat)
    (ms : List Move) (hm : ∀ m ∈ ms, m.Serves n) (hr : Returned abandon n (opening supply) ms) :
    Lossless abandon (opening supply) ms ↔ ∀ g ∈ ((opening supply).run abandon ms).guests, ∀ k i,
      g.stage = .gone (some k) → (opening supply).Unregisters abandon ms k i →
        ((opening supply).run abandon ms).Finished k := by
  obtain ⟨serving, closing, hms, hdone, -⟩ := hr
  have hattended : ((opening supply).run abandon ms).Attended :=
    Attended.run hd (fun k t hk => by simp [opening] at hk) hm
  have hidle : ((opening supply).run abandon ms).IsDone n := by
    subst hms
    rw [run_append]
    exact hdone.run hd fun m hmem => hm m (List.mem_append_right _ hmem)
  constructor
  · exact fun h g _ k i _ hu => (h k i hu).2
  · intro h k i hu
    refine ⟨(hu.destroyed_once hd (opening_sound supply)).1, ?_⟩
    obtain ⟨t, ht, htear⟩ := hu.exists_task hd hm
    obtain h' | hreply | ⟨g, hg, hholds⟩ := hattended k t ht
    · exact absurd h' htear
    · exact (finished_iff ht).mpr hreply
    · have hidle := hidle.idle g hg
      obtain ⟨e, stage⟩ := g
      cases stage with
      | gone task =>
        obtain rfl : task = some k := hholds
        exact h _ hg k i rfl hu
      | joining => exact absurd trivial hidle
      | _ => exact hholds.elim

def returned : List Move := forsaken ++ [.hub (.stopServing 0) nofun, .hub (.tearDown 0) nofun]

theorem serves_returned : ∀ m ∈ returned, m.Serves 0 := by decide

theorem run_forsaken : (opening SequencerId.ofNat).run id forsaken =
    (created.asked 0 0 (.destroy "" (SequencerId.ofNat 0))).run id
      [.hub (.advance 1) nofun, .hangUp 1, .hub (.cancel 0) nofun] := by
  rw [forsaken, run_append, run_doomed]

theorem returned_forsaken : Returned id 0 (opening SequencerId.ofNat) returned := by
  refine ⟨forsaken, [], rfl, ?_, ?_⟩
  · rw [run_forsaken]
    decide +kernel
  · rw [returned, run_append, run_forsaken]
    decide +kernel

theorem lossless_iff_forsaken : Detaches id ∧ (∀ m ∈ returned, m.Serves 0) ∧
    Returned id 0 (opening SequencerId.ofNat) returned ∧
    (Lossless id (opening SequencerId.ofNat) returned ↔
      ∀ g ∈ ((opening SequencerId.ofNat).run id returned).guests, ∀ k i,
        g.stage = .gone (some k) → (opening SequencerId.ofNat).Unregisters id returned k i →
          ((opening SequencerId.ofNat).run id returned).Finished k) :=
  ⟨fun _ => rfl, serves_returned, returned_forsaken,
    lossless_iff (fun _ => rfl) SequencerId.ofNat 0 returned serves_returned returned_forsaken⟩

/-- The server returns while the destruction that was left to it still waits. -/
theorem not_lossless_forsaken : ¬ ∀ ms, (∀ m ∈ ms, Move.Serves 0 m) →
    Returned id 0 (opening SequencerId.ofNat) ms → Lossless id (opening SequencerId.ofNat) ms := by
  intro h
  have hsome : (((opening SequencerId.ofNat).run id doomed).hub.unregisters? 1).isSome = true := by
    rw [run_doomed]
    decide +kernel
  obtain ⟨i, hi⟩ := Option.isSome_iff_exists.mp hsome
  have hu : (opening SequencerId.ofNat).Unregisters id returned 1 i := ⟨doomed, by simp, _, rfl, hi⟩
  have hunfinished : ¬ ((opening SequencerId.ofNat).run id returned).Finished 1 := by
    rw [returned, run_append, run_forsaken]
    decide +kernel
  exact hunfinished (h returned serves_returned returned_forsaken 1 i hu).2

end Reception
end SequencerHub

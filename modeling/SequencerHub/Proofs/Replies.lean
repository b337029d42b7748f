import SequencerHub.Proofs.Decisions
import SequencerHub.Proofs.Exchange
import SequencerHub.Proofs.Tables

/-! A request that has got to its provider bears one reply through all that happens later. The reply is there when the
backend does not wait any more, and it is never another one. -/
namespace SequencerHub

/-- The task of a request that a provider serves, where `w` was to be done at first. -/
inductive Task.Bears (op : Operation) (w : Work) : Task → Prop
  | serving (link : Link) (providerId id : UInt16) {w' : Work} (he : w'.ending = w.ending) (ha : w'.acts <:+ w.acts) :
      Bears op w (.serving link providerId (.running id op w'))
  | replied : Bears op w (.replied (.ok (w.ending.reply op)))

section Dispatch

variable (opened : Gates) (link : Link) (providerId id : UInt16) (op : Operation) (w : Work) (l l' : Ledger)

theorem Dispatch.ofWork_running (h : ∀ e, w ≠ .ended e) : (ofWork id op w l).1 = .running id op w := by
  cases w with
  | ended e => exact absurd rfl (h e)
  | summing acts outcome => rfl
  | destroying i acts outcome => rfl

theorem Task.ofDispatch_resume :
    (¬ w.Waits opened ∧ ofDispatch link providerId (Dispatch.ofWork id op (w.resume opened id l).1 l').1 =
      .replied (.ok (w.ending.reply op))) ∨
    (w.Waits opened ∧ ∃ w' : Work, w'.ending = w.ending ∧ w'.acts <:+ w.acts ∧
      ofDispatch link providerId (Dispatch.ofWork id op (w.resume opened id l).1 l').1 =
        .serving link providerId (.running id op w')) := by
  obtain ⟨hw, hr⟩ | ⟨hw, he, ha, hne⟩ := w.resume_cases opened id l
  · have hd : (Dispatch.ofWork id op (.ended w.ending) l').1 = .replied (w.ending.reply op) := by
      cases w.ending <;> rfl
    rw [hr, hd, ofDispatch, link.receive_some providerId (w.ending.carries_reply op)]
    exact .inl ⟨hw, rfl⟩
  · rw [Dispatch.ofWork_running id op _ l' hne]
    exact .inr ⟨hw, _, he, ha, rfl⟩

end Dispatch

section Bears

variable {op : Operation} {w : Work} {t : Task}

theorem Task.Bears.reply? (hb : t.Bears op w) {y : Except TransportError Json} (hy : t.reply? = some y) :
    y = .ok (w.ending.reply op) := by
  cases hb with
  | serving link providerId id he ha => cases hy
  | replied => exact (Option.some.inj hy).symm

/-- What a task bears is not changed when it goes on. -/
theorem Task.bears_resume {w' : Work} (he : w'.ending = w.ending) (ha : w'.acts <:+ w.acts) (opened : Gates)
    (link : Link) (providerId id : UInt16) (l l' : Ledger) :
    Bears op w (ofDispatch link providerId (Dispatch.ofWork id op (w'.resume opened id l).1 l').1) := by
  obtain ⟨-, ht⟩ | ⟨-, w'', he', ha', ht⟩ := ofDispatch_resume opened link providerId id op w' l l'
  · rw [ht, he]
    exact .replied
  · rw [ht]
    exact .serving link providerId id (he'.trans he) (ha'.trans ha)

theorem Task.Bears.run (hb : t.Bears op w) (h : Hub) : (h.run t).2.Bears op w := by
  cases hb with
  | serving link providerId id he ha => exact bears_resume he ha ..
  | replied => exact .replied

theorem Task.Bears.run_reply? (hb : t.Bears op w) (h : Hub) (hw : ¬ w.Waits h.opened) :
    (h.run t).2.reply? = some (.ok (w.ending.reply op)) := by
  cases hb with
  | @serving link providerId id w' he ha =>
    have hw' : ¬ w'.Waits h.opened := Work.not_waits_of_suffix _ ha hw
    obtain ⟨-, ht⟩ | ⟨hwaits, -⟩ := ofDispatch_resume h.opened link providerId id op w' h.ledger
      (w'.resume h.opened id h.ledger).2
    · exact (congrArg Task.reply? ht).trans (by rw [he, Task.reply?])
    · exact absurd hwaits hw'
  | replied => rfl

end Bears

namespace Hub

/-- The hub has the task of a number, and it bears the reply of what was to be done at first. -/
def Bears (h : Hub) (k : Nat) (op : Operation) (w : Work) : Prop := ∃ t, h.tasks[k]? = some t ∧ t.Bears op w

section Bears

variable {h : Hub} {k : Nat} {op : Operation} {w : Work}

theorem Bears.reply? (hb : h.Bears k op w) {y : Except TransportError Json} (hy : h.reply? k = some y) :
    y = .ok (w.ending.reply op) := by
  obtain ⟨t, ht, hb⟩ := hb
  rw [Hub.reply?, ht, Option.bind_some] at hy
  exact hb.reply? hy

/-- New tasks do not change what the others bear. -/
theorem Bears.append (hb : h.Bears k op w) {h' : Hub} (ts : List Task) (ht : h'.tasks = h.tasks ++ ts) :
    h'.Bears k op w := by
  obtain ⟨t, hk, hb⟩ := hb
  refine ⟨t, ?_, hb⟩
  rw [ht, List.getElem?_append_left (List.getElem?_eq_some_iff.mp hk).1, hk]

theorem advance_other (h : Hub) {j : Nat} (hj : j ≠ k) : (h.advance j).tasks[k]? = h.tasks[k]? := by
  cases ht : h.tasks[j]? with
  | none => simp only [advance, ht]
  | some t => simp only [h.advance_eq t ht, List.getElem?_set_ne hj]

theorem advance_self (h : Hub) {t : Task} (ht : h.tasks[k]? = some t) :
    (h.advance k).tasks[k]? = some (h.run t).2 := by
  simp only [h.advance_eq t ht]
  exact List.getElem?_set_self (List.getElem?_eq_some_iff.mp ht).1

theorem Bears.advance (hb : h.Bears k op w) (j : Nat) : (h.advance j).Bears k op w := by
  obtain ⟨t, ht, hb⟩ := hb
  by_cases hj : j = k
  · subst hj
    exact ⟨_, h.advance_self ht, hb.run h⟩
  · exact ⟨t, by rw [h.advance_other hj, ht], hb⟩

theorem Bears.advanceAll (hb : h.Bears k op w) (js : List Nat) : (js.foldl Hub.advance h).Bears k op w :=
  List.foldlRecOn (motive := fun h' => h'.Bears k op w) js Hub.advance hb fun _ hb j _ => hb.advance j

theorem Bears.advance_reply? (hb : h.Bears k op w) (hw : ¬ w.Waits h.opened) :
    (h.advance k).reply? k = some (.ok (w.ending.reply op)) := by
  obtain ⟨t, ht, hb⟩ := hb
  rw [Hub.reply?, h.advance_self ht]
  exact hb.run_reply? h hw

theorem Bears.step (hb : h.Bears k op w) (m : Move) : (h.step m).Bears k op w := by
  have haside : ¬ m.Stirs → (h.step m).Bears k op w := fun hm =>
    hb.append [] (by rw [h.step_tasks_eq hm, List.append_nil])
  cases m with
  | tearDown n =>
    simp only [Hub.step, Hub.tearDown]
    split
    · exact hb
    · exact hb.append _ rfl
  | send link providerId r => exact hb.append _ rfl
  | advance j => exact hb.advance j
  | openGate gate =>
    have hopen : Bears { h with opened := gate :: h.opened.filter (· ≠ gate) } k op w := hb
    exact hopen.advanceAll _
  | _ => exact haside id

theorem Bears.steps (hb : h.Bears k op w) (ms : List Move) : (h.steps ms).Bears k op w := by
  induction ms generalizing h with
  | nil => exact hb
  | cons m ms ih => exact ih (hb.step m)

end Bears
end Hub

namespace Host

theorem find?_insert (p : Provider) (ps : List Provider) (id : UInt16) :
    (insert p ps).find? (·.id = id) = if p.id = id then some p else ps.find? (·.id = id) :=
  (insert_putsInOrder p).find? ps id

theorem dispatch_find? {host host' : Host} {opened : Gates} {id : UInt16} {r : Request} {l l' : Ledger} {d : Dispatch}
    (h : host.dispatch opened id r l = some (host', d, l')) {id' : UInt16} (hp : (host.find? id').isSome) :
    (host'.find? id').isSome := by
  simp only [dispatch] at h
  split at h
  · cases h
  · have hput := congrArg Prod.fst (Option.some.inj h)
    dsimp only at hput
    rw [← hput, find?, put, find?_insert]
    split
    · rfl
    · exact hp

end Host

namespace Hub

section Turn

variable (h : Hub) {n : Nat} {link : Link} {providerId : UInt16} {r : Request}

theorem deliver_providerAt? (m : Nat) (link : Link) (id : UInt16) (r : Request)
    (hp : (h.providerAt? n providerId).isSome) : ((h.deliver m link id r).1.providerAt? n providerId).isSome := by
  simp only [deliver]
  split
  · exact hp
  · rename_i host hm
    split
    · exact hp
    · rename_i hd
      by_cases hmn : m = n
      · subst hmn
        have hfind : (host.find? providerId).isSome := by simpa only [providerAt?, hm, Option.bind_some] using hp
        simp only [providerAt?, setHost, List.getElem?_set_self (List.getElem?_eq_some_iff.mp hm).1, Option.bind_some]
        exact Host.dispatch_find? hd hfind
      · simpa only [providerAt?, setHost, List.getElem?_set_ne hmn] using hp

theorem run_providerAt? (t : Task) (hp : (h.providerAt? n providerId).isSome) :
    ((h.run t).1.providerAt? n providerId).isSome := by
  obtain ⟨l, hrun⟩ | ⟨m, link, id, r, hrun⟩ := h.run_cases t
  · rw [hrun]
    exact hp
  · rw [hrun]
    exact h.deliver_providerAt? m link id r hp

theorem advance_providerAt? (k : Nat) (hp : (h.providerAt? n providerId).isSome) :
    ((h.advance k).providerAt? n providerId).isSome := by
  cases hk : h.tasks[k]? with
  | none => simpa only [advance, hk] using hp
  | some t =>
    rw [h.advance_eq t hk]
    exact h.run_providerAt? t hp

theorem advanceAll_providerAt? (ks : List Nat) (hp : (h.providerAt? n providerId).isSome) :
    ((ks.foldl advance h).providerAt? n providerId).isSome :=
  List.foldlRecOn (motive := fun h' => (h'.providerAt? n providerId).isSome) ks advance hp
    fun h' hp k _ => h'.advance_providerAt? k hp

theorem advanceAll_other {k : Nat} {ks : List Nat} (hk : ∀ j ∈ ks, j ≠ k) :
    (ks.foldl advance h).tasks[k]? = h.tasks[k]? :=
  List.foldlRecOn (motive := fun h' => h'.tasks[k]? = h.tasks[k]?) ks advance rfl
    fun h' ht j hj => (h'.advance_other (hk j hj)).trans ht

/-- The hub when all tasks that began earlier have gone on, and it is the turn of a new request. -/
def turn (h : Hub) (link : Link) (providerId : UInt16) (r : Request) : Hub :=
  (List.range h.tasks.length).foldl advance (h.start (.sending link providerId r)).1

variable (link providerId r)

theorem turn_within : Within h (h.turn link providerId r) :=
  (show Within h (h.start (.sending link providerId r)).1 from ⟨rfl, rfl, rfl, rfl, rfl⟩).trans (advanceAll_within _ _)

theorem turn_tasks : (h.turn link providerId r).tasks[h.tasks.length]? = some (.sending link providerId r) := by
  have hother : ∀ j ∈ List.range h.tasks.length, j ≠ h.tasks.length := fun j hj => Nat.ne_of_lt (List.mem_range.mp hj)
  rw [turn, advanceAll_other _ hother, start, List.getElem?_concat_length]

theorem forward_fst : (h.forward link providerId r).1 = (h.turn link providerId r).advance h.tasks.length := by
  have hlen : (h.start (.sending link providerId r)).1.tasks.length = h.tasks.length + 1 := by simp [start]
  simp only [forward, settle, hlen, List.range_succ, List.foldl_append]
  rfl

theorem advance_length (k : Nat) : (h.advance k).tasks.length = h.tasks.length := by
  cases hk : h.tasks[k]? with
  | none => simp only [advance, hk]
  | some t => simp only [h.advance_eq t hk, List.length_set]

theorem advanceAll_length (ks : List Nat) : (ks.foldl advance h).tasks.length = h.tasks.length :=
  List.foldlRecOn (motive := fun h' => h'.tasks.length = h.tasks.length) ks advance rfl
    fun h' hl k _ => (h'.advance_length k).trans hl

theorem settle_length : h.settle.tasks.length = h.tasks.length := h.advanceAll_length _

/-- Tasks that began earlier take no notice of those that began later. -/
theorem advanceAll_append {ks : List Nat} (hks : ∀ k ∈ ks, k < h.tasks.length) (ts : List Task) :
    ks.foldl advance { h with tasks := h.tasks ++ ts } =
      { ks.foldl advance h with tasks := (ks.foldl advance h).tasks ++ ts } := by
  induction ks generalizing h with
  | nil => rfl
  | cons k ks ih =>
    have hk : k < h.tasks.length := hks k List.mem_cons_self
    have hget : h.tasks[k]? = some h.tasks[k] := List.getElem?_eq_getElem hk
    have hget' : ({ h with tasks := h.tasks ++ ts }).tasks[k]? = some h.tasks[k] := by
      rw [← hget]
      exact List.getElem?_append_left hk
    have hstep : ({ h with tasks := h.tasks ++ ts }).advance k =
        { h.advance k with tasks := (h.advance k).tasks ++ ts } := by
      rw [advance_eq _ _ hget', h.advance_eq _ hget, run_tasks]
      simp only [List.set_append_left k _ hk]
    rw [List.foldl_cons, List.foldl_cons, hstep]
    refine ih (h.advance k) fun j hj => ?_
    rw [advance_length]
    exact hks j (List.mem_cons_of_mem k hj)

theorem turn_eq : h.turn link providerId r = (h.settle.start (.sending link providerId r)).1 :=
  h.advanceAll_append (fun _ hk => List.mem_range.mp hk) _

/-- A request that is forwarded is sent when all that began earlier has gone on. -/
theorem forward_eq : h.forward link providerId r =
    ({ (h.settle.send link providerId r).1 with tasks := h.settle.tasks ++ [(h.settle.send link providerId r).2] },
      (h.settle.send link providerId r).2.reply?) := by
  have htask := h.turn_tasks link providerId r
  have hset : (h.settle.tasks ++ [Task.sending link providerId r]).set h.tasks.length
      (h.settle.send link providerId r).2 = h.settle.tasks ++ [(h.settle.send link providerId r).2] := by
    rw [← h.settle_length, List.set_append_right _ _ (Nat.le_refl _), Nat.sub_self]
    rfl
  have hfst : (h.forward link providerId r).1 =
      { (h.settle.send link providerId r).1 with tasks := h.settle.tasks ++ [(h.settle.send link providerId r).2] } := by
    rw [forward_fst, advance_eq _ _ htask, turn_eq, start, run_tasks, run]
    simp only [hset]
  refine Prod.ext hfst ?_
  change (h.forward link providerId r).1.reply? h.tasks.length = _
  rw [hfst, reply?, ← h.settle_length, List.getElem?_concat_length, Option.bind_some]

variable {link providerId r}

/-- A request that reaches a provider is served when it is its turn. -/
theorem forward_task (hr : h.Reaches n link) {p : Provider}
    (hp : (h.turn link providerId r).providerAt? n providerId = some p) : ∃ l l',
    (h.forward link providerId r).1.tasks[h.tasks.length]? =
      some (.ofDispatch link providerId (Dispatch.ofWork providerId r.op
        ((p.work (h.turn link providerId r).ledger r).resume h.opened providerId l).1 l').1) := by
  -- Earlier tasks leave links and gates as they are, so the request still gets to that host.
  have hw := h.turn_within link providerId r
  obtain ⟨host, hhost, hfind⟩ := Option.bind_eq_some_iff.mp hp
  rw [forward_fst, advance_self _ (h.turn_tasks link providerId r), run, send_of_reaches (hw.reaches hr), deliver]
  simp only [hhost, Host.dispatch, hfind, Provider.handle_work, hw.opened]
  exact ⟨_, _, rfl⟩

theorem forward_snd : (h.forward link providerId r).2 = (h.forward link providerId r).1.reply? h.tasks.length := rfl

/-- How a request stands that has been sent: `w` is what its provider does for it. -/
structure Standing (h : Hub) (link : Link) (providerId : UInt16) (r : Request) (w : Work) : Prop where
  bears : (h.forward link providerId r).1.Bears h.tasks.length r.op w
  replied : ¬ w.Waits h.opened → (h.forward link providerId r).2 = some (.ok (w.ending.reply r.op))
  waits : w.Waits h.opened → (h.forward link providerId r).2 = none

theorem forward_standing (hr : h.Reaches n link) {p : Provider}
    (hp : (h.turn link providerId r).providerAt? n providerId = some p) :
    h.Standing link providerId r (p.work (h.turn link providerId r).ledger r) := by
  obtain ⟨l, l', ht⟩ := h.forward_task hr hp
  have hbears : (h.forward link providerId r).1.Bears h.tasks.length r.op
      (p.work (h.turn link providerId r).ledger r) :=
    ⟨_, ht, Task.bears_resume rfl (List.suffix_refl _) ..⟩
  obtain ⟨hw, hd⟩ | ⟨hw, w', -, -, hd⟩ := Task.ofDispatch_resume h.opened link providerId providerId r.op
    (p.work (h.turn link providerId r).ledger r) l l'
  · have hreply : (h.forward link providerId r).2 =
        some (.ok ((p.work (h.turn link providerId r).ledger r).ending.reply r.op)) := by
      rw [forward_snd, reply?, ht, hd, Option.bind_some, Task.reply?]
    exact ⟨hbears, fun _ => hreply, fun hwaits => absurd hwaits hw⟩
  · have hreply : (h.forward link providerId r).2 = none := by
      rw [forward_snd, reply?, ht, hd]
      rfl
    exact ⟨hbears, fun hnot => absurd hw hnot, fun _ => hreply⟩

end Turn
end Hub
end SequencerHub

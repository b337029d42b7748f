import SequencerHub.Client.Handle
import SequencerHub.Proofs.Hosting
import SequencerHub.Proofs.Replies

/-! A request that leaves its client arrives at one provider or at none. From then on one reply is due to it, whatever
happens before the reply is there. -/
namespace SequencerHub

theorem Http.rpc_routed {providerId id : UInt16} {r r' : Request} {target : String}
    (h : routed { rpcRequest providerId r with target } = .rpc id r') : r' = r := by
  have hbody : Body.read Request.read (rpcRequest providerId r).body = .ok r := r.read_render
  simp only [routed] at h
  split at h
  · cases h
  · split at h
    · split at h
      · cases h
      · simp only [readRpc, hbody] at h
        split at h
        · cases h
        · split at h
          · cases h
          · split at h
            · exact (Routed.rpc.inj h).2.symm
            · cases h
    · cases h

namespace Hub

/-- No more than one task goes on when one is told to. -/
theorem advance_single (k : Nat) : ∀ gate, Move.advance k ≠ .openGate gate := by simp

section Tasks

variable {h : Hub} {k : Nat} {t : Task} {m : Move}

theorem step_task (hm : ∀ gate, m ≠ .openGate gate) (hne : m ≠ .advance k) (hk : h.tasks[k]? = some t) :
    (h.step m).tasks[k]? = some t := by
  have happend : ∀ ts, (h.tasks ++ ts)[k]? = some t := fun ts => by
    rw [List.getElem?_append_left (List.getElem?_eq_some_iff.mp hk).1, hk]
  have haside : ¬ m.Stirs → (h.step m).tasks[k]? = some t := fun hstirs => by rw [h.step_tasks_eq hstirs, hk]
  cases m with
  | tearDown n =>
    simp only [step, tearDown]
    split
    · exact hk
    · exact happend _
  | send link id r => exact happend _
  | advance j =>
    have hj : j ≠ k := fun heq => hne (heq ▸ rfl)
    rw [step, advance_other h hj, hk]
  | openGate gate => exact absurd rfl (hm gate)
  | _ => exact haside id

theorem step_task_cases (hm : ∀ gate, m ≠ .openGate gate) (hk : h.tasks[k]? = some t) :
    (m ≠ .advance k ∧ (h.step m).tasks[k]? = some t) ∨
      (m = .advance k ∧ (h.step m).tasks[k]? = some (h.run t).2) := by
  by_cases hadv : m = .advance k
  · exact .inr ⟨hadv, by rw [hadv, step, advance_self h hk]⟩
  · exact .inl ⟨hadv, step_task hm hadv hk⟩

theorem step_tasks_length (hm : ∀ gate, m ≠ .openGate gate) : h.tasks.length ≤ (h.step m).tasks.length := by
  by_contra hlt
  have hk : h.tasks[(h.step m).tasks.length]? = some _ := List.getElem?_eq_getElem (by omega)
  rcases step_task_cases hm hk with ⟨-, hstep⟩ | ⟨-, hstep⟩ <;> simp at hstep

theorem step_reply? (hm : ∀ gate, m ≠ .openGate gate) {y : Except TransportError Json} (hy : h.reply? k = some y) :
    (h.step m).reply? k = some y := by
  obtain ⟨t, ht, hreply⟩ := Option.bind_eq_some_iff.mp hy
  obtain ⟨-, hstep⟩ | ⟨-, hstep⟩ := step_task_cases hm ht
  · rw [reply?, hstep, Option.bind_some, hreply]
  · rw [reply?, hstep, Option.bind_some]
    cases t with
    | replied r => exact hreply
    | _ => cases hreply

end Tasks

section Arrival

variable (h : Hub) (link : Link) (providerId : UInt16) (r : Request)

/-- The host that a request gets to over a link, and the provider that it asks for there. -/
def target? : Option (Nat × UInt16) :=
  match link with
  | .direct n => some (n, providerId)
  | .named address => (h.hostAt? address).map (·, providerId)
  | .http base =>
    match h.online, h.serverAt? base with
    | true, some (n, front) =>
      let message := Http.rpcRequest providerId r
      match Http.routed { message with target := front ++ message.target } with
      | .rpc id _ => some (n, id)
      | _ => none
    | _, _ => none

/-- The host and the provider at which a request arrives, if there is such a provider. -/
def arrival? : Option (Nat × Provider) :=
  (h.target? link providerId r).bind fun a => (h.providerAt? a.1 a.2).map fun p => (a.1, p)

variable {h link providerId r}

theorem send_of_target {n : Nat} {id : UInt16} (ht : h.target? link providerId r = some (n, id)) :
    h.send link providerId r = h.deliver n link id r := by
  cases link with
  | direct m =>
    obtain ⟨rfl, rfl⟩ := Prod.mk.inj (Option.some.inj ht)
    rfl
  | named address =>
    obtain ⟨m, hm, heq⟩ := Option.map_eq_some_iff.mp ht
    obtain ⟨rfl, rfl⟩ := Prod.mk.inj heq
    simp only [send, hm]
  | http base =>
    simp only [target?] at ht
    split at ht
    · rename_i m front honline hserver
      split at ht
      · rename_i id' r' hrouted
        obtain ⟨rfl, rfl⟩ := Prod.mk.inj (Option.some.inj ht)
        obtain rfl := Http.rpc_routed hrouted
        simp only [send, sendHttp, honline, hserver, hrouted]
      · cases ht
    · cases ht

theorem send_of_no_target (ht : h.target? link providerId r = none) :
    ∃ y, h.send link providerId r = (h, .replied y) := by
  cases link with
  | direct m => cases ht
  | named address =>
    have hm : h.hostAt? address = none := Option.map_eq_none_iff.mp ht
    simp only [send, hm]
    exact ⟨_, rfl⟩
  | http base =>
    simp only [target?] at ht
    simp only [send, sendHttp]
    split
    · rename_i m front honline hserver
      simp only [honline, hserver] at ht
      split
      · exact ⟨_, rfl⟩
      · rename_i hrouted
        simp only [hrouted] at ht
        cases ht
      · exact ⟨_, rfl⟩
    · exact ⟨_, rfl⟩

theorem send_opened (ht : h.target? link providerId r = none) (opened : Gates) :
    (({ h with opened }).send link providerId r).2 = (h.send link providerId r).2 := by
  cases link with
  | direct m => cases ht
  | named address =>
    have hm : h.hostAt? address = none := Option.map_eq_none_iff.mp ht
    have hm' : ({ h with opened }).hostAt? address = none := hm
    simp only [send, hm, hm']
  | http base =>
    have hserver' : ({ h with opened }).serverAt? base = h.serverAt? base := rfl
    simp only [target?] at ht
    simp only [send, sendHttp, hserver']
    split
    · rename_i m front honline hserver
      simp only [honline, hserver] at ht
      split
      · rfl
      · rename_i hrouted
        simp only [hrouted] at ht
        cases ht
      · rfl
    · rfl

theorem arrival?_eq_some {n : Nat} {p : Provider} (ha : h.arrival? link providerId r = some (n, p)) :
    h.target? link providerId r = some (n, p.id) ∧ ∃ host, h.hosts[n]? = some host ∧ host.find? p.id = some p := by
  obtain ⟨⟨m, id⟩, ht, hp⟩ := Option.bind_eq_some_iff.mp ha
  obtain ⟨q, hq, heq⟩ := Option.map_eq_some_iff.mp hp
  obtain ⟨rfl, rfl⟩ := Prod.mk.inj heq
  obtain ⟨host, hhost, hfind⟩ := Option.bind_eq_some_iff.mp hq
  have hid : q.id = id := by simpa using List.find?_some hfind
  exact ⟨hid ▸ ht, host, hhost, hid ▸ hfind⟩

/-- A provider at which a request arrives begins to serve it. -/
theorem send_of_arrival {n : Nat} {p : Provider} (ha : h.arrival? link providerId r = some (n, p)) : ∃ l l',
    (h.send link providerId r).2 = .ofDispatch link p.id
        (Dispatch.ofWork p.id r.op ((p.work h.ledger r).resume h.opened p.id l).1 l').1 ∧
      (h.send link providerId r).1.ledger.calls = h.ledger.calls ++ p.begins r h.ledger := by
  obtain ⟨ht, host, hhost, hfind⟩ := arrival?_eq_some ha
  have hcalls := (p.handle_served r h.ledger).calls
  have hwork := p.handle_work h.ledger r
  rw [send_of_target ht, deliver]
  simp only [hhost, Host.dispatch, hfind]
  generalize p.handle r h.ledger = out at hcalls hwork
  obtain ⟨q, w, l⟩ := out
  obtain rfl : w = p.work h.ledger r := hwork
  have hbooks := ((p.work h.ledger r).sameBooks_resume h.opened p.id l).trans
    (Dispatch.sameBooks_ofWork p.id r.op ((p.work h.ledger r).resume h.opened p.id l).1 _)
  exact ⟨l, _, rfl, hbooks.calls.trans hcalls⟩

/-- A request that arrives nowhere comes back at once, and no backend hears of it. -/
theorem send_of_no_arrival (ha : h.arrival? link providerId r = none) :
    ∃ y, ∀ opened, (({ h with opened }).send link providerId r).2 = .replied y ∧
      (({ h with opened }).send link providerId r).1.ledger = h.ledger := by
  cases ht : h.target? link providerId r with
  | none =>
    obtain ⟨y, hy⟩ := send_of_no_target ht
    refine ⟨y, fun opened => ⟨by rw [send_opened ht, hy], ?_⟩⟩
    have ht' : ({ h with opened }).target? link providerId r = none := ht
    obtain ⟨y', hy'⟩ := send_of_no_target ht'
    rw [hy']
  | some a =>
    obtain ⟨n, id⟩ := a
    have hp : h.providerAt? n id = none := by
      rw [arrival?, ht, Option.bind_some] at ha
      exact Option.map_eq_none_iff.mp ha
    refine ⟨link.receive id none, fun opened => ?_⟩
    have ht' : ({ h with opened }).target? link providerId r = some (n, id) := ht
    rw [send_of_target ht', deliver]
    cases hn : h.hosts[n]? with
    | none => simp only [and_self]
    | some host =>
      have hfind : host.find? id = none := by rwa [providerAt?, hn, Option.bind_some] at hp
      simp only [Host.dispatch, hfind, and_self]

end Arrival
end Hub

/-- A task to which one reply is due: it is read as `a`, and it is there when the gates are open. -/
inductive Task.Due {β : Type} (read : Except TransportError Json → β) (a : β) (gates : Gates) : Task → Prop
  | replied {y : Except TransportError Json} (h : read y = a) : Due read a gates (.replied y)
  | bears {op : Operation} {w : Work} {t : Task} (hb : t.Bears op w) (ha : read (.ok (w.ending.reply op)) = a)
      (hg : ∀ g, .await g ∈ w.acts → g ∈ gates) : Due read a gates t

namespace Work

def gates (w : Work) : Gates := w.acts.filterMap fun
  | .await g => some g
  | .effect _ => none

theorem mem_gates {w : Work} {g : String} : g ∈ w.gates ↔ .await g ∈ w.acts := by
  rw [gates, List.mem_filterMap]
  constructor
  · rintro ⟨a, ha, hg⟩
    cases a with
    | effect e => cases hg
    | await g' =>
      obtain rfl := Option.some.inj hg
      exact ha
  · exact fun hg => ⟨_, hg, rfl⟩

theorem not_waits_of_gates {w : Work} {gates opened : Gates} (hg : ∀ g, .await g ∈ w.acts → g ∈ gates)
    (ho : gates ⊆ opened) : ¬ w.Waits opened := by
  rintro ⟨g, hmem, hclosed⟩
  exact hclosed (ho (hg g hmem))

end Work

section Due

variable {β : Type} {read : Except TransportError Json → β} {a : β} {gates : Gates} {t : Task}

theorem Task.Due.reply? (hd : t.Due read a gates) {y : Except TransportError Json} (hy : t.reply? = some y) :
    read y = a := by
  cases hd with
  | replied h =>
    obtain rfl := Option.some.inj hy
    exact h
  | bears hb ha hg => rw [hb.reply? hy, ha]

theorem Task.Due.run (hd : t.Due read a gates) (h : Hub) : (h.run t).2.Due read a gates := by
  cases hd with
  | replied hy => exact .replied hy
  | bears hb ha hg => exact .bears (hb.run h) ha hg

theorem Task.Due.run_reply? (hd : t.Due read a gates) {h : Hub} (ho : gates ⊆ h.opened) :
    ((h.run t).2.reply?).map read = some a := by
  cases hd with
  | replied hy => exact congrArg some hy
  | bears hb ha hg => rw [hb.run_reply? h (Work.not_waits_of_gates hg ho), Option.map_some, ha]

namespace Hub

variable (h : Hub) (link : Link) (providerId : UInt16) (r : Request)

/-- When a request is sent, one reply is due to it. It is there at once if the gates are open. -/
theorem send_due (read : Except TransportError Json → β) : ∃ a gates, ∀ opened,
    (({ h with opened }).send link providerId r).2.Due read a gates ∧
      (gates ⊆ opened → ((({ h with opened }).send link providerId r).2.reply?).map read = some a) := by
  cases ha : h.arrival? link providerId r with
  | none =>
    obtain ⟨y, hy⟩ := send_of_no_arrival ha
    refine ⟨read y, [], fun opened => ?_⟩
    rw [(hy opened).1]
    exact ⟨.replied rfl, fun _ => rfl⟩
  | some x =>
    obtain ⟨n, p⟩ := x
    let w := p.work h.ledger r
    refine ⟨read (.ok (w.ending.reply r.op)), w.gates, fun opened => ?_⟩
    have ha' : ({ h with opened }).arrival? link providerId r = some (n, p) := ha
    obtain ⟨l, l', ht, -⟩ := send_of_arrival ha'
    rw [ht]
    refine ⟨.bears (Task.bears_resume rfl (List.suffix_refl _) ..) rfl fun g hg => Work.mem_gates.mpr hg, fun ho => ?_⟩
    obtain ⟨-, hr⟩ | ⟨hw, -⟩ := Task.ofDispatch_resume opened link p.id p.id r.op w l l'
    · exact (congrArg (fun t => (Task.reply? t).map read) hr).trans rfl
    · exact absurd hw (Work.not_waits_of_gates (fun g hg => Work.mem_gates.mpr hg) ho)

theorem forward_alone :
    (({ h with tasks := [] }).forward link providerId r).2 = (h.send link providerId r).2.reply? := by
  have hfst : (({ h with tasks := [] }).forward link providerId r).1 =
      ({ h with tasks := [.sending link providerId r] }).advance 0 := forward_fst ..
  have htask : (({ h with tasks := [.sending link providerId r] }).advance 0).tasks[0]? =
      some (({ h with tasks := [.sending link providerId r] }).run (.sending link providerId r)).2 :=
    advance_self _ rfl
  rw [h.run_tasks] at htask
  rw [forward_snd, hfst]
  exact congrArg (Option.bind · Task.reply?) htask

end Hub
end Due

/-- What a synchronous addition comes to when its request leaves at this point: the call gives that result, or it
still waits at a gate. -/
structure Handle.SumsTo (h : Hub) (s : Handle) (x y : Int32) (a : Except CallError Int32) : Prop where
  only : ∀ opened b, (s.computeSum { h with opened, tasks := [] } x y).2 = some b → b = a
  comes : ∃ gates, ∀ opened, gates ⊆ opened → (s.computeSum { h with opened, tasks := [] } x y).2 = some a

theorem Handle.computeSum_alone (h : Hub) (s : Handle) (x y : Int32) :
    (s.computeSum { h with tasks := [] } x y).2 =
      ((h.send s.endpoint.link s.providerId (.computeSum s.id x y)).2.reply?).map (settled .int32) :=
  congrArg (Option.map (settled .int32)) (h.forward_alone ..)

theorem Handle.send_sumsTo (h : Hub) (s : Handle) (x y : Int32) : ∃ a gates,
    (h.send s.endpoint.link s.providerId (.computeSum s.id x y)).2.Due (settled .int32) a gates ∧ s.SumsTo h x y a := by
  obtain ⟨a, gates, hdue⟩ := h.send_due s.endpoint.link s.providerId (.computeSum s.id x y) (settled .int32)
  refine ⟨a, gates, (hdue h.opened).1, fun opened b hb => ?_, gates, fun opened ho => ?_⟩
  · have halone := computeSum_alone { h with opened } s x y
    obtain ⟨z, hz, rfl⟩ := Option.map_eq_some_iff.mp (halone.symm.trans hb)
    exact (hdue opened).1.reply? hz
  · exact (computeSum_alone { h with opened } s x y).trans ((hdue opened).2 ho)

end SequencerHub

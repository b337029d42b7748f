import SequencerHub.Proofs.Counterparts
import SequencerHub.Proofs.Serving
import SequencerHub.Server.Program

/-! The server of the program. It comes up and serves as a reception does, so a destruction is lost at its return only
where somebody who hung up has left one that waits. Nothing that its own backends do waits when they are destroyed: this
server has lost no destruction when it returns. -/
namespace SequencerHub

/-- Nothing that a backend does when it is destroyed waits. -/
def Backend.Immediate (b : Backend) : Prop := ∀ history gate, .await gate ∉ (b.destroy history).acts

def Factory.Immediate (f : Factory) : Prop :=
  ∀ name c, f.find? name = some c → ∀ how nth args b, (Constructors.pick c how nth args).outcome.value? = some b →
    b.Immediate

/-- A provider whose live backends, and all that it will construct, are destroyed without waiting. -/
structure Provider.Immediate (p : Provider) : Prop where
  factory : p.factory.Immediate
  live : ∀ x ∈ p.live, x.2.backend.Immediate

namespace Provider

variable {p : Provider}

theorem Immediate.constructed? (h : p.Immediate) {q : Request} {l : Ledger} {i : Instance}
    (hi : p.constructed? q l = some i) : i.backend.Immediate := by
  cases q with
  | construct how token sequencerType config =>
    have hc := (Option.ite_none_right_eq_some.mp hi).2
    obtain ⟨c, hfind, hc⟩ := Option.bind_eq_some_iff.mp hc
    obtain ⟨j, -, hc⟩ := Option.bind_eq_some_iff.mp hc
    obtain ⟨b, hb, rfl⟩ := Option.map_eq_some_iff.mp hc
    exact h.factory _ c hfind how _ _ b hb
  | _ => cases hi

theorem Immediate.handle (h : p.Immediate) (q : Request) (l : Ledger) : (p.handle q l).1.Immediate := by
  have hs := p.handle_served q l
  refine ⟨by rw [hs.provider]; exact h.factory, fun x hx => ?_⟩
  obtain hx | ⟨i, hi, rfl⟩ := hs.mem_live hx
  · exact h.live x hx
  · exact h.constructed? hi

end Provider

namespace Hub

def Immediate (h : Hub) : Prop := ∀ host ∈ h.hosts, ∀ p ∈ host.providers, p.Immediate

def Move.Immediate : Move → Prop
  | provide _ _ f => f.Immediate
  | _ => True

variable {h : Hub}

theorem Becomes.immediate {m : Move} {host host' : Host} (hb : Becomes m host host') (hm : m.Immediate)
    (hi : ∀ p ∈ host.providers, p.Immediate) : ∀ p ∈ host'.providers, p.Immediate := by
  cases hb with
  | served q l hp =>
    intro x hx
    rcases Host.mem_insert hx with rfl | hx
    · exact (hi _ (List.mem_of_find?_eq_some hp)).handle q l
    · exact hi x hx
  | provided hprovide =>
    subst hprovide
    intro x hx
    rcases Host.mem_insert hx with rfl | hx
    · exact ⟨hm, fun _ hx => absurd hx List.not_mem_nil⟩
    · exact hi x hx
  | thinned id => exact fun p hp => hi p (List.mem_filter.mp hp).1
  | emptied => exact fun p hp => absurd hp List.not_mem_nil
  | _ => exact hi

theorem Immediate.step (hi : h.Immediate) {m : Move} (hsingle : ∀ gate, m ≠ .openGate gate) (hm : m.Immediate) :
    (h.step m).Immediate := by
  have hmoved := h.step_moved hsingle
  unfold Immediate
  generalize (h.step m).hosts = hosts at hmoved
  cases hmoved with
  | same => exact hi
  | added address =>
    intro x hx
    rcases List.mem_append.mp hx with hx | hx
    · exact hi x hx
    · obtain rfl := List.mem_singleton.mp hx
      exact fun p hp => absurd hp List.not_mem_nil
  | set hn hb =>
    intro x hx
    rcases List.mem_or_eq_of_mem_set hx with hx | rfl
    · exact hi x hx
    · exact hb.immediate hm (hi _ (List.mem_of_getElem? hn))

theorem Immediate.isSome_reply?_advance (hi : h.Immediate) {k : Nat} {i : Instance} (hu : h.unregisters? k = some i) :
    ((h.advance k).reply? k).isSome = true := by
  obtain ⟨link, n, id, token, sid, p, hk, hr, hp, ht, hfind⟩ := unregisters?_eq_some hu
  obtain ⟨host, hn, hp⟩ := Option.bind_eq_some_iff.mp hp
  have himm := (hi host (List.mem_of_getElem? hn) p (List.mem_of_find?_eq_some hp)).live _ (Registry.mem_of_find? hfind)
  have hwork : p.work h.ledger (.destroy token sid) = .destroying sid
      (i.backend.destroy (h.ledger.history i.serial)).acts (i.backend.destroy (h.ledger.history i.serial)).outcome := by
    simp only [Provider.work, Provider.serve, Provider.destroy, ht, if_true, hfind]
  have hnot : ¬ (p.work h.ledger (.destroy token sid)).Waits h.opened := by
    rintro ⟨gate, hgate, -⟩
    rw [hwork] at hgate
    exact himm _ gate hgate
  rw [reply?, advance_self h hk, run, send_of_reaches hr, deliver]
  simp only [hn, host.dispatch_of_find? hp, Provider.handle_work, Option.bind_some]
  obtain ⟨-, hreply⟩ | ⟨hwaits, -⟩ := Task.ofDispatch_resume h.opened link id id Operation.destroySequencer
    (p.work h.ledger (.destroy token sid)) (p.handle (.destroy token sid) h.ledger).2.2
    ((p.work h.ledger (.destroy token sid)).resume h.opened id (p.handle (.destroy token sid) h.ledger).2.2).2
  · exact (congrArg (fun t => (Task.reply? t).isSome) hreply).trans rfl
  · exact absurd hwaits hnot

end Hub

namespace Reception

def Move.Immediate : Move → Prop
  | hub m _ => m.Immediate
  | _ => True

section Immediate

variable {abandon : Task → Task} {s : Reception} {n : Nat}

theorem immediate_step (hd : Detaches abandon) (hi : s.hub.Immediate) {m : Move} (hm : m.Immediate) :
    (s.step abandon m).hub.Immediate := by
  cases m with
  | hub m single => exact hi.step single hm
  | gates opened => exact hi
  | arrive e => exact hi
  | handle k =>
    simp only [step, handle]
    split
    · rename_i e _
      obtain heq | ⟨k, heq⟩ | ⟨k, id, q, heq⟩ := s.hub.receive_cases e
      · rwa [heq]
      · rw [heq]
        exact hi.step (by simp) trivial
      · rw [heq]
        exact hi
    · exact hi
  | answer k => exact hi
  | hangUp k => rwa [step, hd.hub_hangUp]

theorem Unregisters.finished (hd : Detaches abandon) (hi : s.hub.Immediate) {ms : List Move} {k : Nat} {i : Instance}
    (hu : s.Unregisters abandon ms k i) (hm : ∀ m ∈ ms, m.Serves n) (him : ∀ m ∈ ms, m.Immediate) :
    (s.run abandon ms).Finished k := by
  obtain ⟨before, single, after, rfl, hu⟩ := hu
  have hbefore : (s.run abandon before).hub.Immediate :=
    run_induction (P := fun s => s.hub.Immediate)
      (fun _ m hmem hi => immediate_step hd hi (him m (List.mem_append_left _ hmem))) hi
  have hreply := hbefore.isSome_reply?_advance hu
  obtain ⟨t, ht, hsome⟩ : ∃ t, ((s.run abandon before).hub.advance k).tasks[k]? = some t ∧ t.reply?.isSome = true := by
    obtain ⟨r, hr⟩ := Option.isSome_iff_exists.mp hreply
    obtain ⟨t, ht, hr⟩ := Option.bind_eq_some_iff.mp hr
    exact ⟨t, ht, by rw [hr]; rfl⟩
  rw [run, List.foldl_append, List.foldl_cons]
  obtain ⟨t, ht, hsome⟩ := exists_task_run (s := (s.run abandon before).step abandon (.hub (.advance k) single)) hd
    (P := fun t => t.reply?.isSome = true) (fun h _ => isSome_reply?_run h) ⟨t, ht, hsome⟩
    fun m hmem => hm m (List.mem_append_right _ (List.mem_cons_of_mem _ hmem))
  exact (finished_iff ht).mpr hsome

/-- Where nothing waits when it is destroyed, no destruction is lost, whoever hangs up. -/
theorem lossless_of_immediate (hd : Detaches abandon) (supply : Nat → SequencerId) {ms : List Move}
    (hm : ∀ m ∈ ms, m.Serves n) (him : ∀ m ∈ ms, m.Immediate) : Lossless abandon (opening supply) ms :=
  fun _ _ hu => ⟨(hu.destroyed_once hd (opening_sound supply)).1,
    hu.finished hd (fun _ h => absurd h List.not_mem_nil) hm him⟩

end Immediate
end Reception

namespace Server

theorem factory_immediate : factory.Immediate := by
  intro name c hc how nth args b hb history gate
  obtain ⟨x, hx, rfl⟩ := Option.map_eq_some_iff.mp hc
  have htypes : factory.types = [(Dummy.typeName, Dummy.constructors)] := rfl
  obtain rfl : x = (Dummy.typeName, Dummy.constructors) := by
    have hmem := List.mem_of_find?_eq_some hx
    rwa [htypes, List.mem_singleton] at hmem
  obtain rfl : Dummy.backend = b := by cases how <;> exact Option.some.inj hb
  exact List.not_mem_nil

def setup (s : Settings) : List Reception.Move :=
  .hub (.addHost s.server.address) nofun :: (s.providers.map (fun o => .hub (.provide 0 o factory) nofun) ++
    [.hub (.listen 0 (bindAddress s)) nofun])

def fresh (s : Settings) (host : Host) (l : Ledger) : Serving where
  hub := Hub.listen { hosts := [host], ledger := l } 0 (bindAddress s)
  host := 0

section Fresh

variable {abandon : Task → Task} {s : Settings} {host : Host} {l : Ledger}

theorem run_provide (abandon : Task → Task) {os : List ProviderOptions} {host' : Host} {l' : Ledger}
    (h : registerAll host os l = .ok (host', l')) :
    Reception.run abandon ⟨{ hosts := [host], ledger := l }, []⟩
        (os.map fun o => .hub (.provide 0 o factory) nofun) = ⟨{ hosts := [host'], ledger := l' }, []⟩ := by
  induction os generalizing host l with
  | nil =>
    obtain ⟨rfl, rfl⟩ := Prod.mk.inj (Except.ok.inj h)
    rfl
  | cons o os ih =>
    simp only [registerAll] at h
    split at h
    · rename_i hregister
      rw [List.map_cons, Reception.run, List.foldl_cons]
      simp only [Reception.step, Hub.step, Hub.provide, List.getElem?_cons_zero, hregister]
      exact ih h
    · cases h

/-- A server comes up by moves, one provider after the other. -/
theorem run_setup {supply : Nat → SequencerId} (h : Server.host s { supply } = .ok (host, l)) :
    (Reception.opening supply).run abandon (setup s) = ⟨(fresh s host l).hub, []⟩ := by
  have hprovide := run_provide abandon h
  rw [setup, Reception.run, List.foldl_cons, ← Reception.run, Reception.run_append]
  exact congrArg (Reception.run abandon · [.hub (.listen 0 (bindAddress s)) nofun]) hprovide

theorem mirrors_fresh : Serving.Mirrors (fresh s host l) ⟨(fresh s host l).hub, []⟩ :=
  ⟨rfl, rfl, fun _ hg => absurd hg List.not_mem_nil, fun _ hg => absurd hg List.not_mem_nil,
    fun _ => ⟨fun hc => absurd hc List.not_mem_nil, nofun⟩, fun _ _ => ⟨fun hx => absurd hx List.not_mem_nil, nofun⟩⟩

theorem immediate_of_plain {n : Nat} {m : Reception.Move} (hm : m.Plain n) : m.Immediate := by
  cases m with
  | hub m single => cases m <;> first | exact trivial | exact hm.elim
  | _ => exact trivial

theorem serves_setup : ∀ m ∈ setup s, m.Serves 0 ∧ m.Immediate := by
  intro m hm
  simp only [setup, List.mem_cons, List.mem_append, List.mem_map, List.not_mem_nil, or_false] at hm
  obtain rfl | ⟨o, -, rfl⟩ | rfl := hm
  · exact ⟨trivial, trivial⟩
  · exact ⟨trivial, factory_immediate⟩
  · exact ⟨trivial, trivial⟩

/-- Whatever happens at the server of the program, the same comes of it where one thing happens at a time. -/
theorem exists_mirrors_run (hd : Reception.Detaches abandon) {supply : Nat → SequencerId}
    (h : Server.host s { supply } = .ok (host, l)) (events : List Event) :
    ∃ ms, (∀ m ∈ ms, m.Serves 0 ∧ m.Immediate) ∧
      Serving.Mirrors ((fresh s host l).run events) ((Reception.opening supply).run abandon ms) := by
  obtain ⟨ms, hms, hrun⟩ := mirrors_fresh.run hd events
  refine ⟨setup s ++ ms, fun m hm => ?_, ?_⟩
  · rcases List.mem_append.mp hm with hm | hm
    · exact serves_setup m hm
    · exact ⟨(hms m hm).serves, immediate_of_plain (hms m hm)⟩
  · rw [Reception.run_append, run_setup h]
    exact hrun

/-- When the server of the program returns, it has lost no destruction, whoever hung up. -/
theorem lossless_of_isDone (hd : Reception.Detaches abandon) {supply : Nat → SequencerId}
    (h : Server.host s { supply } = .ok (host, l)) {events : List Event}
    (hdone : ((fresh s host l).run events).isDone = true) (hend : ((fresh s host l).run events).finish.2 = .finished) :
    ∃ ms, Reception.Returned abandon 0 (Reception.opening supply) ms ∧
      ((Reception.opening supply).run abandon ms).hub.ledger = ((fresh s host l).run events).finish.1.ledger ∧
      Reception.Lossless abandon (Reception.opening supply) ms := by
  obtain ⟨ms, hms, hmirrors⟩ := exists_mirrors_run hd h events
  have hreturned := hmirrors.returned hdone hend
  have hclosed := hmirrors.hub_closing abandon hdone
  rw [Serving.host_run] at hreturned hclosed
  have hall : ∀ m ∈ ms ++ Serving.closing 0, m.Serves 0 ∧ m.Immediate := by
    intro m hm
    rcases List.mem_append.mp hm with hm | hm
    · exact hms m hm
    · simp only [Serving.closing, List.mem_cons, List.not_mem_nil, or_false] at hm
      obtain rfl | rfl := hm <;> exact ⟨trivial, trivial⟩
  refine ⟨ms ++ Serving.closing 0, hreturned, ?_, ?_⟩
  · rw [Reception.run_append]
    exact (congrArg Hub.ledger hclosed).trans rfl
  · exact Reception.lossless_of_immediate hd supply (fun m hm => (hall m hm).1) fun m hm => (hall m hm).2

end Fresh
end Server
end SequencerHub

import SequencerHub.Hub.Basic
import SequencerHub.Proofs.Routing

/-! Hosts and clients at work: hosts are bound and served, requests are sent and go on, gates open and close. A link
to a host delivers what is sent over it, whatever kind of link it is. -/
namespace SequencerHub
namespace Hub

def trials : Hub where
  hosts := [{ address := "local://trials" }]
  bound := [("local://trials", 0)]
  served := [("http://127.0.0.1:8087", 0)]
  online := true
  ledger := { supply := SequencerId.ofNat }

/-- What happens next between hosts and clients. -/
inductive Move
  | addHost (address : String)
  | bind (n : Nat)
  | unbind (address : String)
  | listen (n : Nat) (listener : String)
  | stopServing (n : Nat)
  | connect (online : Bool)
  | cancel (n : Nat)
  | stop (n : Nat)
  | provide (n : Nat) (o : ProviderOptions) (f : Factory)
  | deregister (n : Nat) (providerId : UInt16)
  | tearDown (n : Nat)
  | send (link : Link) (providerId : UInt16) (r : Request)
  | advance (k : Nat)
  | openGate (gate : String)
  | closeGate (gate : String)
  | log (e : LogEvent)

def provide (h : Hub) (n : Nat) (o : ProviderOptions) (f : Factory) : Hub :=
  let l := h.ledger.logged (.providerCreated o)
  match h.hosts[n]? with
  | none => { h with ledger := l }
  | some host =>
    match host.register { options := o, factory := f } l with
    | .error _ => { h with ledger := l }
    | .ok (host, l) => h.setHost n host l

def deregister (h : Hub) (n : Nat) (providerId : UInt16) : Hub :=
  match h.hosts[n]? with
  | none => h
  | some host =>
    let (_, host, l) := host.deregister providerId h.ledger
    h.setHost n host l

def tearDown (h : Hub) (n : Nat) : Hub :=
  match h.hosts[n]? with
  | none => h
  | some host =>
    let (host, t, l) := host.tearDown h.opened h.ledger
    ((h.setHost n host l).start (.tearing t)).1

def step (h : Hub) : Move → Hub
  | .addHost address => (h.addHost address).1
  | .bind n => h.bind n
  | .unbind address => (h.unbind address).1
  | .listen n listener => h.listen n listener
  | .stopServing n => h.stopServing n
  | .connect online => { h with online }
  | .cancel n => h.cancel n
  | .stop n => h.stop n
  | .provide n o f => h.provide n o f
  | .deregister n providerId => h.deregister n providerId
  | .tearDown n => h.tearDown n
  | .send link providerId r => (h.start (.sending link providerId r)).1
  | .advance k => h.advance k
  | .openGate gate => h.openGate gate
  | .closeGate gate => h.closeGate gate
  | .log e => { h with ledger := h.ledger.logged e }

def steps (h : Hub) (ms : List Move) : Hub := ms.foldl step h

/-- Whether what happens adds a task or lets tasks go on. -/
def Move.Stirs : Move → Prop
  | tearDown _ | send .. | advance _ | openGate _ => True
  | _ => False

theorem stop_tasks (h : Hub) (n : Nat) (ts : List Task) :
    ({ h with tasks := ts }).stop n = { h.stop n with tasks := ts } := by
  simp only [stop]
  split <;> rfl

theorem step_tasks {m : Move} (hm : ¬ m.Stirs) (h : Hub) (ts : List Task) :
    ({ h with tasks := ts }).step m = { h.step m with tasks := ts } := by
  cases m with
  | bind n =>
    simp only [step, bind]
    split <;> rfl
  | listen n listener =>
    simp only [step, listen]
    split <;> rfl
  | cancel n =>
    simp only [step, cancel]
    split <;> rfl
  | stop n => exact h.stop_tasks n ts
  | provide n o f =>
    simp only [step, provide]
    split
    · rfl
    · split <;> rfl
  | deregister n providerId =>
    simp only [step, deregister]
    split <;> rfl
  | tearDown n => exact absurd trivial hm
  | send link providerId r => exact absurd trivial hm
  | advance k => exact absurd trivial hm
  | openGate gate => exact absurd trivial hm
  | _ => rfl

theorem step_tasks_eq (h : Hub) {m : Move} (hm : ¬ m.Stirs) : (h.step m).tasks = h.tasks := by
  rw [show h = { h with tasks := h.tasks } from rfl, step_tasks hm]

/-- Whether what is sent over a link gets to the host of a number. -/
def Reaches (h : Hub) (n : Nat) : Link → Prop
  | .direct m => m = n
  | .named address => h.hostAt? address = some n
  | .http base => h.online = true ∧ h.serverAt? base = some (n, "")

def providerAt? (h : Hub) (n : Nat) (providerId : UInt16) : Option Provider :=
  (h.hosts[n]?).bind (·.find? providerId)

section Reaches

variable {h : Hub} {n : Nat} {link : Link}

theorem Reaches.congr {h' : Hub} (hr : h.Reaches n link) (hb : h'.bound = h.bound) (hs : h'.served = h.served)
    (ho : h'.online = h.online) : h'.Reaches n link := by
  cases link with
  | direct m => exact hr
  | named address => simpa only [Reaches, hostAt?, hb] using hr
  | http base => simpa only [Reaches, serverAt?, hs, ho] using hr

/-- Over any link that reaches a host, a request is delivered there as it was sent. -/
theorem send_of_reaches (hr : h.Reaches n link) (providerId : UInt16) (r : Request) :
    h.send link providerId r = h.deliver n link providerId r := by
  cases link with
  | direct m =>
    obtain rfl : m = n := hr
    rfl
  | named address =>
    have ha : h.hostAt? address = some n := hr
    simp only [send, ha]
  | http base =>
    obtain ⟨honline, hserver⟩ : h.online = true ∧ h.serverAt? base = some (n, "") := hr
    have htarget : ({ Http.rpcRequest providerId r with
        target := "" ++ (Http.rpcRequest providerId r).target } : HttpRequest) = Http.rpcRequest providerId r := by
      rw [String.empty_append]
    simp only [send, sendHttp, honline, hserver, htarget, Http.routed_rpcRequest]

end Reaches
end Hub

section Receive

variable (link : Link) (providerId : UInt16)

theorem Link.receive_some {j : Json} (h : Http.Carries j) : link.receive providerId (some j) = .ok j := by
  cases link with
  | http base => exact Http.replyOf_respond base providerId h
  | _ => rfl

theorem Link.receive_none : link.receive providerId none = .error (.noSuchProvider providerId) := by
  cases link with
  | http base => exact Http.replyOf_respond_none base providerId
  | _ => rfl

end Receive

inductive Dispatch.Sound : Dispatch → Prop
  | replied {reply : Json} (h : Http.Carries reply) : Sound (.replied reply)
  | running (providerId : UInt16) (op : Operation) (w : Work) : Sound (.running providerId op w)

theorem Dispatch.ofWork_sound (providerId : UInt16) (op : Operation) (w : Work) (l : Ledger) :
    (ofWork providerId op w l).1.Sound := by
  cases w with
  | ended e =>
    cases e with
    | answered r => exact .replied (Http.carries_reply op r)
    | panicked q => exact .replied (Http.carries_panicReply op q)
  | summing acts outcome => exact .running _ _ _
  | destroying id acts outcome => exact .running _ _ _

theorem Host.dispatch_sound {host host' : Host} {opened : Gates} {id : UInt16} {r : Request} {l l' : Ledger}
    {d : Dispatch} (h : host.dispatch opened id r l = some (host', d, l')) : d.Sound := by
  simp only [Host.dispatch] at h
  split at h
  · cases h
  · have hd := congrArg Prod.fst (Prod.mk.inj (Option.some.inj h)).2
    dsimp only at hd
    rw [← hd]
    exact Dispatch.ofWork_sound ..

namespace Hub

section Run

variable (h : Hub) (t : Task)

/-- A task that goes on changes nothing but hosts and the ledger. -/
structure Within (h h' : Hub) : Prop where
  bound : h'.bound = h.bound
  served : h'.served = h.served
  online : h'.online = h.online
  elsewhere : h'.elsewhere = h.elsewhere
  opened : h'.opened = h.opened

theorem Within.refl (h : Hub) : Within h h := ⟨rfl, rfl, rfl, rfl, rfl⟩

theorem Within.trans {h h' h'' : Hub} (a : Within h h') (b : Within h' h'') : Within h h'' :=
  ⟨b.bound.trans a.bound, b.served.trans a.served, b.online.trans a.online, b.elsewhere.trans a.elsewhere,
    b.opened.trans a.opened⟩

theorem Within.reaches {h h' : Hub} (w : Within h h') {n : Nat} {link : Link} (hr : h.Reaches n link) :
    h'.Reaches n link := hr.congr w.bound w.served w.online

theorem deliver_within (n : Nat) (link : Link) (providerId : UInt16) (r : Request) :
    Within h (h.deliver n link providerId r).1 := by
  simp only [deliver]
  split
  · exact .refl h
  · split
    · exact .refl h
    · exact ⟨rfl, rfl, rfl, rfl, rfl⟩

/-- A task that goes on is delivered to a host, or leaves the hosts as they are. -/
theorem run_cases : (∃ l, (h.run t).1 = { h with ledger := l }) ∨
    ∃ n link providerId r, (h.run t).1 = (h.deliver n link providerId r).1 := by
  cases t with
  | sending link providerId r =>
    cases link with
    | direct n => exact .inr ⟨n, _, providerId, r, rfl⟩
    | named address =>
      simp only [run, send]
      split
      · exact .inr ⟨_, _, _, _, rfl⟩
      · exact .inl ⟨h.ledger, rfl⟩
    | http base =>
      simp only [run, send, sendHttp]
      split
      · split
        · exact .inl ⟨h.ledger, rfl⟩
        · exact .inr ⟨_, _, _, _, rfl⟩
        · exact .inl ⟨h.ledger, rfl⟩
      · exact .inl ⟨h.ledger, rfl⟩
  | serving link providerId d => exact .inl ⟨_, rfl⟩
  | replied r => exact .inl ⟨h.ledger, rfl⟩
  | tearing t => exact .inl ⟨_, rfl⟩

theorem run_within : Within h (h.run t).1 := by
  obtain ⟨l, hrun⟩ | ⟨n, link, providerId, r, hrun⟩ := h.run_cases t
  · rw [hrun]
    exact ⟨rfl, rfl, rfl, rfl, rfl⟩
  · rw [hrun]
    exact h.deliver_within n link providerId r

theorem deliver_tasks (n : Nat) (link : Link) (providerId : UInt16) (r : Request) (ts : List Task) :
    ({ h with tasks := ts }).deliver n link providerId r =
      ({ (h.deliver n link providerId r).1 with tasks := ts }, (h.deliver n link providerId r).2) := by
  simp only [deliver]
  split
  · rfl
  · split <;> rfl

theorem run_tasks (ts : List Task) :
    ({ h with tasks := ts }).run t = ({ (h.run t).1 with tasks := ts }, (h.run t).2) := by
  cases t with
  | sending link providerId r =>
    cases link with
    | direct n => exact h.deliver_tasks ..
    | named address =>
      have ha : ({ h with tasks := ts }).hostAt? address = h.hostAt? address := rfl
      simp only [run, send, ha]
      split
      · exact h.deliver_tasks ..
      · rfl
    | http base =>
      have hs : ({ h with tasks := ts }).serverAt? base = h.serverAt? base := rfl
      simp only [run, send, sendHttp, hs]
      split
      · split
        · rfl
        · exact h.deliver_tasks ..
        · rfl
      · rfl
  | serving link providerId d => rfl
  | replied r => rfl
  | tearing t => rfl

theorem advance_eq {k : Nat} (hk : h.tasks[k]? = some t) :
    h.advance k = { (h.run t).1 with tasks := h.tasks.set k (h.run t).2 } := by
  have ht : (h.run t).1.tasks = h.tasks := by rw [show h = { h with tasks := h.tasks } from rfl, run_tasks]
  simp only [advance, hk, ht]

theorem advance_within (k : Nat) : Within h (h.advance k) := by
  cases hk : h.tasks[k]? with
  | none =>
    simp only [advance, hk]
    exact .refl h
  | some t =>
    rw [h.advance_eq t hk]
    have hw := h.run_within t
    exact ⟨hw.bound, hw.served, hw.online, hw.elsewhere, hw.opened⟩

theorem advanceAll_within (ks : List Nat) : Within h (ks.foldl advance h) :=
  List.foldlRecOn ks advance (.refl h) fun h' hw k _ => hw.trans (h'.advance_within k)

end Run
end Hub
end SequencerHub

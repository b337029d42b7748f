import SequencerHub.Client.Handle
import SequencerHub.Proofs.Replies
import SequencerHub.Proofs.Shutdown

/-! Local addresses are resolved when something is sent, and not when an endpoint or a handle is made. What is sent gets
to the host that was bound last, or to none. -/
namespace SequencerHub
namespace Hub

def addressOf? (h : Hub) (n : Nat) : Option String := (h.hosts[n]?).map (·.address)

/-- What binds a host to an address, or unbinds the address. -/
inductive Touches (h : Hub) (address : String) : Move → Prop
  | bind {n : Nat} (ha : h.addressOf? n = some address) : Touches h address (.bind n)
  | unbind : Touches h address (.unbind address)

def Untouched (address : String) : Hub → List Move → Prop
  | _, [] => True
  | h, m :: ms => ¬ h.Touches address m ∧ Untouched address (h.step m) ms

/-- What it means that a host is the last that was bound to an address, and has not been unbound since. -/
def LastBound (h : Hub) (ms : List Move) (address : String) (n : Nat) : Prop :=
  ∃ before since, ms = before ++ .bind n :: since ∧ (h.steps before).addressOf? n = some address ∧
    Untouched address ((h.steps before).bind n) since

section Table

variable {h : Hub} {n : Nat} {address : String}

theorem hostAt?_unbind (other : String) :
    (h.unbind other).1.hostAt? address = if other = address then none else h.hostAt? address := by
  simp only [unbind, hostAt?, List.find?_filter]
  by_cases heq : other = address
  · subst heq
    rw [if_pos rfl, Option.map_eq_none_iff, List.find?_eq_none]
    simp
  · rw [if_neg heq]
    congr 2
    funext x
    by_cases hx : x.1 = address
    · simp [hx, Ne.symm heq]
    · simp [hx]

theorem hostAt?_bind {host : Host} (hn : h.hosts[n]? = some host) :
    (h.bind n).hostAt? address = if host.address = address then some n else h.hostAt? address := by
  have hunbind : (h.unbind host.address).1.hostAt? address =
      if host.address = address then none else h.hostAt? address := hostAt?_unbind host.address
  have hbind : (h.bind n).hostAt? address =
      ((h.unbind host.address).1.hostAt? address).or (if host.address = address then some n else none) := by
    simp only [bind, hn, unbind, hostAt?, List.find?_append, Option.map_or, List.find?_singleton, decide_eq_true_eq]
    split_ifs <;> rfl
  rw [hbind, hunbind]
  by_cases heq : host.address = address
  · simp [heq]
  · simp [heq]

theorem step_bound {m : Move} (hbind : ∀ n, m ≠ .bind n) (hunbind : ∀ address, m ≠ .unbind address) :
    (h.step m).bound = h.bound := by
  cases m with
  | bind n => exact absurd rfl (hbind n)
  | unbind address => exact absurd rfl (hunbind address)
  | advance k => exact (h.advance_within k).bound
  | openGate gate => exact (advanceAll_within { h with opened := gate :: h.opened.filter (· ≠ gate) } _).bound
  | listen n listener =>
    simp only [step, listen]
    split <;> rfl
  | cancel n =>
    simp only [step, cancel]
    split <;> rfl
  | stop n =>
    simp only [step, stop]
    split <;> rfl
  | provide n o f =>
    simp only [step, provide]
    split
    · rfl
    · split <;> rfl
  | deregister n id =>
    simp only [step, deregister]
    split <;> rfl
  | tearDown n =>
    simp only [step, tearDown]
    split <;> rfl
  | _ => rfl

/-- What happens to other addresses, or elsewhere, leaves an address alone. -/
theorem step_hostAt? {m : Move} (hm : ¬ h.Touches address m) : (h.step m).hostAt? address = h.hostAt? address := by
  by_cases hbind : ∃ n, m = .bind n
  · obtain ⟨n, rfl⟩ := hbind
    rw [step]
    cases hn : h.hosts[n]? with
    | none => simp only [bind, hn]
    | some host =>
      have hne : host.address ≠ address := by
        intro heq
        exact hm (.bind (by rw [addressOf?, hn, Option.map_some, heq]))
      rw [hostAt?_bind hn, if_neg hne]
  · by_cases hunbind : ∃ other, m = .unbind other
    · obtain ⟨other, rfl⟩ := hunbind
      have hne : other ≠ address := fun heq => hm (heq ▸ .unbind)
      rw [step, hostAt?_unbind, if_neg hne]
    · rw [hostAt?, step_bound (fun n heq => hbind ⟨n, heq⟩) fun other heq => hunbind ⟨other, heq⟩, ← hostAt?]

theorem bind_hostAt? (ha : h.addressOf? n = some address) : (h.bind n).hostAt? address = some n := by
  obtain ⟨host, hn, rfl⟩ := Option.map_eq_some_iff.mp ha
  rw [hostAt?_bind hn, if_pos rfl]

end Table

theorem Becomes.address {m : Move} {host host' : Host} (hb : Becomes m host host') : host'.address = host.address := by
  cases hb <;> rfl

section Addresses

variable {h : Hub} {n : Nat} {address : String}

theorem Moved.addressOf? {m : Move} {hosts : List Host} (hm : Moved m h hosts) (ha : h.addressOf? n = some address) :
    (hosts[n]?).map (·.address) = some address := by
  cases hm with
  | same => exact ha
  | added other =>
    obtain ⟨host, hn, rfl⟩ := Option.map_eq_some_iff.mp ha
    rw [List.getElem?_append_left (List.getElem?_eq_some_iff.mp hn).1, hn, Option.map_some]
  | @set k host host' hk hb =>
    by_cases heq : k = n
    · subst heq
      rw [List.getElem?_set_self (List.getElem?_eq_some_iff.mp hk).1, Option.map_some, hb.address, ← ha,
        Hub.addressOf?, hk, Option.map_some]
    · rw [List.getElem?_set_ne heq]
      exact ha

theorem step_addressOf? (ha : h.addressOf? n = some address) (m : Move) :
    (h.step m).addressOf? n = some address := by
  by_cases hm : ∃ gate, m = .openGate gate
  · obtain ⟨gate, rfl⟩ := hm
    have hopen : ({ h with opened := gate :: h.opened.filter (· ≠ gate) }).addressOf? n = some address := ha
    exact List.foldlRecOn (motive := fun h' => h'.addressOf? n = some address) _ advance hopen
      fun h' ha' k _ => (h'.advance_moved k).addressOf? ha'
  · exact (h.step_moved fun gate heq => hm ⟨gate, heq⟩).addressOf? ha

theorem steps_addressOf? (ha : h.addressOf? n = some address) (ms : List Move) :
    (h.steps ms).addressOf? n = some address :=
  List.foldlRecOn (motive := fun h' => h'.addressOf? n = some address) ms step ha
    fun _ ha' m _ => step_addressOf? ha' m

end Addresses

section History

variable {h : Hub} {n : Nat} {address : String}

theorem steps_append (ms ms' : List Move) : h.steps (ms ++ ms') = (h.steps ms).steps ms' :=
  List.foldl_append

theorem untouched_append {ms ms' : List Move} :
    Untouched address h (ms ++ ms') ↔ Untouched address h ms ∧ Untouched address (h.steps ms) ms' := by
  induction ms generalizing h with
  | nil => simp [Untouched, steps]
  | cons m ms ih =>
    rw [List.cons_append, Untouched, Untouched, ih, and_assoc]
    rfl

theorem Untouched.hostAt? {ms : List Move} (hms : Untouched address h ms) :
    (h.steps ms).hostAt? address = h.hostAt? address := by
  induction ms generalizing h with
  | nil => rfl
  | cons m ms ih =>
    obtain ⟨hm, hms⟩ := hms
    exact (ih hms).trans (step_hostAt? hm)

/-- The table of addresses holds the host that was bound last. -/
theorem hostAt?_eq_some_iff (hb : h.bound = []) (ms : List Move) :
    (h.steps ms).hostAt? address = some n ↔ h.LastBound ms address n := by
  constructor
  · intro hn
    induction ms using List.reverseRecOn with
    | nil => simp [steps, Hub.hostAt?, hb] at hn
    | append_singleton ms m ih =>
      rw [steps_append] at hn
      by_cases hm : (h.steps ms).Touches address m
      · cases hm with
        | @bind k ha =>
          have hk : ((h.steps ms).bind k).hostAt? address = some n := hn
          obtain rfl : k = n := Option.some.inj ((bind_hostAt? ha).symm.trans hk)
          exact ⟨ms, [], rfl, ha, trivial⟩
        | unbind =>
          have hnone : ((h.steps ms).unbind address).1.hostAt? address = some n := hn
          rw [hostAt?_unbind, if_pos rfl] at hnone
          cases hnone
      · have hkept : (h.steps ms).hostAt? address = some n := (step_hostAt? hm).symm.trans hn
        obtain ⟨before, since, rfl, ha, hsince⟩ := ih hkept
        refine ⟨before, since ++ [m], by simp, ha, untouched_append.mpr ⟨hsince, ?_, trivial⟩⟩
        rw [steps_append] at hm
        exact hm
  · rintro ⟨before, since, rfl, ha, hsince⟩
    rw [steps_append]
    exact hsince.hostAt?.trans (bind_hostAt? ha)

end History

section Sent

variable {h : Hub} {n k : Nat}

theorem deliver_hosts_other (hk : k ≠ n) (link : Link) (providerId : UInt16) (r : Request) :
    (h.deliver n link providerId r).1.hosts[k]? = h.hosts[k]? := by
  simp only [deliver]
  split
  · rfl
  · split
    · rfl
    · exact List.getElem?_set_ne hk.symm

theorem stop_hosts_other (hk : k ≠ n) : (h.stop n).hosts[k]? = h.hosts[k]? := by
  simp only [stop]
  split
  · rfl
  · exact List.getElem?_set_ne hk.symm

end Sent

/-- What it means that whatever is sent to an endpoint, or from a handle that holds it, gets to the host of a number,
and to no other. -/
structure Leads (h : Hub) (e : Endpoint) (n : Nat) : Prop where
  host : h.addressOf? n = some e.address
  send : ∀ providerId r, h.send e.link providerId r = h.deliver n e.link providerId r
  /-- A caller who waits has the request delivered when all that began earlier has gone on. -/
  forward : ∀ providerId r, h.forward e.link providerId r =
    ({ (h.settle.deliver n e.link providerId r).1 with
        tasks := h.settle.tasks ++ [(h.settle.deliver n e.link providerId r).2] },
      (h.settle.deliver n e.link providerId r).2.reply?)
  /-- A request in the background leaves when its task goes on. -/
  background : ∀ k providerId r, h.tasks[k]? = some (.sending e.link providerId r) → h.advance k =
    { (h.deliver n e.link providerId r).1 with tasks := h.tasks.set k (h.deliver n e.link providerId r).2 }
  others : ∀ k ≠ n, ∀ providerId r, (h.send e.link providerId r).1.hosts[k]? = h.hosts[k]?
  shutdown : h.shutdownAt e = (h.stop n, .ok ())
  othersGoOn : ∀ k ≠ n, (h.shutdownAt e).1.hosts[k]? = h.hosts[k]?

/-- What it means that whatever is sent to an endpoint gets nowhere: its address is reported, and nothing else comes of
it. -/
structure Strays (h : Hub) (e : Endpoint) : Prop where
  send : ∀ providerId r, h.send e.link providerId r = (h, .replied (.error (.unknownAddress e.address)))
  forward : ∀ providerId r, h.forward e.link providerId r =
    ({ h.settle with tasks := h.settle.tasks ++ [.replied (.error (.unknownAddress e.address))] },
      some (.error (.unknownAddress e.address)))
  background : ∀ k providerId r, h.tasks[k]? = some (.sending e.link providerId r) →
    h.advance k = { h with tasks := h.tasks.set k (.replied (.error (.unknownAddress e.address))) }
  shutdown : h.shutdownAt e = (h, .error (.transport (.unknownAddress e.address)))
  sayHello : ∀ providerId id, (Handle.sayHello h ⟨e, providerId, id⟩).2 =
    some (.error (.transport (.unknownAddress e.address)))
  computeSum : ∀ providerId id x y, (Handle.computeSum h ⟨e, providerId, id⟩ x y).2 =
    some (.error (.transport (.unknownAddress e.address)))

/-- What it means that a local address stands, whenever it is used, for the host that was bound to it last. -/
structure BindsLate (h : Hub) (address : String) : Prop where
  /-- The address is found as long as a host is bound to it. -/
  found : ∀ ms, (∃ n, h.LastBound ms address n) ↔ (h.steps ms).lookup address = .ok ⟨address, .named address⟩
  lost : ∀ ms, (¬ ∃ n, h.LastBound ms address n) ↔ (h.steps ms).lookup address = .error (.unknownAddress address)
  /-- An endpoint leads to the host that is bound when it is used, whatever was bound when it was made. -/
  leads : ∀ ms ms' e n, (h.steps ms).lookup address = .ok e → h.LastBound (ms ++ ms') address n →
    (h.steps (ms ++ ms')).Leads e n
  strays : ∀ ms ms' e, (h.steps ms).lookup address = .ok e → (¬ ∃ n, h.LastBound (ms ++ ms') address n) →
    (h.steps (ms ++ ms')).Strays e
  /-- What happens to other addresses makes no difference. -/
  apart : ∀ ms m n, ¬ (h.steps ms).Touches address m → (h.LastBound (ms ++ [m]) address n ↔ h.LastBound ms address n)

section Late

variable {h : Hub} {n : Nat} {address : String}

theorem leads_of_hostAt? (hn : h.hostAt? address = some n) (ha : h.addressOf? n = some address) :
    h.Leads ⟨address, .named address⟩ n := by
  have hr : h.Reaches n (.named address) := hn
  have hsend : ∀ providerId r, h.send (.named address) providerId r = h.deliver n (.named address) providerId r :=
    send_of_reaches hr
  have hw : Within h h.settle := advanceAll_within h _
  refine ⟨ha, hsend, fun providerId r => ?_, fun k providerId r hk => ?_, fun k hk providerId r => ?_,
    shutdownAt_of_reaches hr address, fun k hk => ?_⟩
  · rw [forward_eq, send_of_reaches (hw.reaches hr)]
  · rw [h.advance_eq _ hk, run, hsend]
  · rw [hsend]
    exact deliver_hosts_other hk ..
  · rw [shutdownAt_of_reaches hr]
    exact stop_hosts_other hk

theorem strays_of_hostAt? (hn : h.hostAt? address = none) : h.Strays ⟨address, .named address⟩ := by
  have hw : Within h h.settle := advanceAll_within h _
  have hn' : h.settle.hostAt? address = none := by rwa [hostAt?, hw.bound]
  have hsend : ∀ providerId r,
      h.send (.named address) providerId r = (h, .replied (.error (.unknownAddress address))) := by
    intro providerId r
    simp only [send, hn]
  have hforward : ∀ providerId r, h.forward (.named address) providerId r =
      ({ h.settle with tasks := h.settle.tasks ++ [.replied (.error (.unknownAddress address))] },
        some (.error (.unknownAddress address))) := by
    intro providerId r
    simp only [forward_eq, send, hn', Task.reply?]
  refine ⟨hsend, hforward, fun k providerId r hk => ?_, ?_, fun providerId id => ?_, fun providerId id x y => ?_⟩
  · rw [h.advance_eq _ hk, run, hsend]
  · simp only [shutdownAt, hn]
  · simp only [Handle.sayHello, hforward, Option.map_some]
  · simp only [Handle.computeSum, callAt, hforward, Option.map_some, settled]

theorem lookup_local (ha : Endpoint.startsWith address Endpoint.localScheme) : h.lookup address =
    if h.isBound address then .ok ⟨address, .named address⟩ else .error (.unknownAddress address) := by
  rw [lookup, Endpoint.lookup, if_pos ha]

theorem LastBound.addressOf? {ms : List Move} (hl : h.LastBound ms address n) :
    (h.steps ms).addressOf? n = some address := by
  obtain ⟨before, since, rfl, ha, -⟩ := hl
  rw [steps_append]
  exact steps_addressOf? ha _

/-- Local addresses are bound late, whatever has been bound and unbound, and whenever they were looked up. -/
theorem binds_late (hb : h.bound = []) (ha : Endpoint.startsWith address Endpoint.localScheme = true) :
    h.BindsLate address := by
  have hbound : ∀ ms, (∃ n, h.LastBound ms address n) ↔ (h.steps ms).isBound address = true := by
    intro ms
    simp only [isBound, Option.isSome_iff_exists, hostAt?_eq_some_iff hb]
  have hlookup : ∀ ms, (h.steps ms).lookup address = if (h.steps ms).isBound address then
      .ok ⟨address, .named address⟩ else .error (.unknownAddress address) := fun ms => lookup_local ha
  have hendpoint : ∀ ms e, (h.steps ms).lookup address = .ok e → e = ⟨address, .named address⟩ := by
    intro ms e he
    rw [hlookup] at he
    split_ifs at he
    exact (Except.ok.inj he).symm
  refine ⟨fun ms => ?_, fun ms => ?_, fun ms ms' e n he hn => ?_, fun ms ms' e he hn => ?_, fun ms m n hm => ?_⟩
  · rw [hbound, hlookup]
    split_ifs with h <;> simp [h]
  · rw [hbound, hlookup]
    split_ifs with h <;> simp [h]
  · obtain rfl := hendpoint ms e he
    exact leads_of_hostAt? ((hostAt?_eq_some_iff hb _).mpr hn) hn.addressOf?
  · obtain rfl := hendpoint ms e he
    refine strays_of_hostAt? (Option.eq_none_iff_forall_ne_some.mpr fun n hn' => hn ⟨n, ?_⟩)
    exact (hostAt?_eq_some_iff hb _).mp hn'
  · rw [← hostAt?_eq_some_iff hb, ← hostAt?_eq_some_iff hb, steps_append]
    exact Eq.congr_left (step_hostAt? hm)

end Late

def unsettled : Hub where
  ledger := { supply := SequencerId.ofNat }

/-- Another host takes the place of the one at an address, and is unbound. -/
def rebound : List Move :=
  [.addHost "local://trials", .bind 0, .addHost "local://trials", .bind 1, .unbind "local://trials"]

theorem binds_late_rebound :
    unsettled.bound = [] ∧ Endpoint.startsWith "local://trials" Endpoint.localScheme = true ∧
      (unsettled.steps (rebound.take 2 ++ (rebound.drop 2).take 2)).Leads
        ⟨"local://trials", .named "local://trials"⟩ 1 ∧
      (unsettled.steps (rebound.take 2 ++ rebound.drop 2)).Strays ⟨"local://trials", .named "local://trials"⟩ := by
  have ha : Endpoint.startsWith "local://trials" Endpoint.localScheme = true := by decide
  have hlate : unsettled.BindsLate "local://trials" := binds_late rfl ha
  have hfound : (unsettled.steps (rebound.take 2)).lookup "local://trials" =
      .ok ⟨"local://trials", .named "local://trials"⟩ := by decide
  refine ⟨rfl, ha, ?_, ?_⟩
  · exact hlate.leads _ _ _ 1 hfound ⟨rebound.take 3, [], rfl, rfl, trivial⟩
  · refine hlate.strays _ _ _ hfound fun ⟨n, hn⟩ => ?_
    cases (hostAt?_eq_some_iff rfl _).mpr hn

end Hub
end SequencerHub

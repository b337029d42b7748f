import SequencerHub.Backend.Scripted
import SequencerHub.Client.Admin
import SequencerHub.Client.Handle
import SequencerHub.Proofs.Replies

/-! A client is told what the provider has decided. Whatever the backends do, the result of a call is the value of the
request, or the failure with its kind and its message. -/
namespace SequencerHub
namespace Hub

/-- An address that resolves to an endpoint, over which requests get to a provider of the host of a number. -/
structure Resolves (h : Hub) (address : String) (providerId : UInt16) (e : Endpoint) (n : Nat) : Prop where
  found : h.lookup address = .ok e
  reaches : h.Reaches n e.link
  provides : (h.providerAt? n providerId).isSome

section Decided

variable (h : Hub) (n : Nat) (link : Link) (providerId : UInt16) (r : Request)

/-- What the provider of a request does for it at its turn. -/
def work? : Option Work :=
  ((h.turn link providerId r).providerAt? n providerId).map fun p => p.work (h.turn link providerId r).ledger r

/-- What the provider of a request decides on it at its turn. -/
def decision? : Option (Except RemoteError Answer) :=
  ((h.turn link providerId r).providerAt? n providerId).map fun p => p.decision (h.turn link providerId r).ledger r

end Decided

/-- What it means that the caller of the task of a number is told `x`, where `w` is done for the caller. -/
structure Told {α : Type} (k : Nat) (w : Work) (read : Except TransportError Json → Except CallError α)
    (x : Except CallError α) (call : Hub × Outgoing α) : Prop where
  now : ¬ w.Waits call.1.opened → call.2 = some x
  waits : w.Waits call.1.opened → call.2 = none
  /-- No reply that comes later says anything else. -/
  later : ∀ ms y, (call.1.steps ms).reply? k = some y → read y = x
  /-- A reply comes when the gates are open at which the backend had to wait. -/
  comes : ∀ ms, ¬ w.Waits (call.1.steps ms).opened → (((call.1.steps ms).advance k).reply? k).map read = some x

/-- What clients see of a provider. -/
structure ClientView (h : Hub) (address : String) (providerId : UInt16) (e : Endpoint) (n : Nat) : Prop where
  construct : ∀ how sequencerType config token, ∃ t : Except RemoteError SequencerId,
    h.decision? n e.link providerId (.construct how token sequencerType config) = some (t.map .id) ∧
      (Admin.construct h how address providerId sequencerType config token).2 = some (t.mapError .remote)
  /-- A flag that says nothing more is dropped. -/
  close : ∀ id token, ∃ t : Except RemoteError Bool,
    h.decision? n e.link providerId (.close token id) = some (t.map .flag) ∧
      (Admin.close h address providerId id token).2 = some ((t.map fun _ => ()).mapError .remote)
  destroy : ∀ id token, ∃ (w : Work) (t : Except RemoteError Bool),
    h.work? n e.link providerId (.destroy token id) = some w ∧
      h.decision? n e.link providerId (.destroy token id) = some (t.map .flag) ∧
        Told h.tasks.length w (settled .boolean) (t.mapError .remote) (Admin.destroy h address providerId id token)
  bind : ∀ id, ∃ t : Except RemoteError Bool,
    h.decision? n e.link providerId (.check id) = some (t.map .flag) ∧
      (Handle.bind h address providerId id true).2 = some ((t.map fun _ => ⟨e, providerId, id⟩).mapError .remote)
  computeSum : ∀ id x y, ∃ (w : Work) (t : Except RemoteError Int32),
    h.work? n e.link providerId (.computeSum id x y) = some w ∧
      h.decision? n e.link providerId (.computeSum id x y) = some (t.map .sum) ∧
        Told h.tasks.length w (settled .int32) (t.mapError .remote) (Handle.computeSum h ⟨e, providerId, id⟩ x y)
  /-- A greeting is never refused. -/
  sayHello : ∀ id, (Handle.sayHello h ⟨e, providerId, id⟩).2 = some (.ok ())

section Calls

variable {h : Hub} {address : String} {providerId : UInt16} {e : Endpoint} {n : Nat}

theorem Resolves.provider (hr : h.Resolves address providerId e n) (r : Request) :
    ∃ p, (h.turn e.link providerId r).providerAt? n providerId = some p :=
  Option.isSome_iff_exists.mp (advanceAll_providerAt? _ _ hr.provides)

theorem forward_opened (link : Link) (r : Request) : (h.forward link providerId r).1.opened = h.opened := by
  rw [forward_fst]
  exact (advance_within _ _).opened.trans (h.turn_within link providerId r).opened

/-- A call at the type of the value tells the caller what the provider decides. -/
theorem callAt_told {α : Type} {payload : Payload α} (hf : payload.Faithful) {inj : α → Answer}
    (hw : ∀ v, (inj v).toJson = payload.write v) (hr : h.Reaches n e.link) {r : Request} (hop : r.op ≠ .sayHello)
    {p : Provider} (hp : (h.turn e.link providerId r).providerAt? n providerId = some p) {t : Except RemoteError α}
    (ht : p.decision (h.turn e.link providerId r).ledger r = t.map inj) :
    Told h.tasks.length (p.work (h.turn e.link providerId r).ledger r) (settled payload) (t.mapError .remote)
      (h.callAt payload e providerId r) := by
  have hs := h.forward_standing hr hp
  have hread : settled payload (.ok ((p.work (h.turn e.link providerId r).ledger r).ending.reply r.op)) =
      t.mapError .remote := unwrap_reply hf hw hop ht
  have hopened : (h.callAt payload e providerId r).1.opened = h.opened := forward_opened e.link r
  refine ⟨fun hnot => ?_, fun hwaits => ?_, fun ms y hy => ?_, fun ms hnot => ?_⟩
  · simp only [callAt, hs.replied (hopened ▸ hnot), Option.map_some, hread]
  · simp only [callAt, hs.waits (hopened ▸ hwaits), Option.map_none]
  · rw [(hs.bears.steps ms).reply? hy, hread]
  · have hreply := (hs.bears.steps ms).advance_reply? hnot
    exact (congrArg (Option.map (settled payload)) hreply).trans (congrArg some hread)

/-- A request gets to its provider, and the call tells what the provider decides. -/
theorem Resolves.told {α : Type} (hr : h.Resolves address providerId e n) {payload : Payload α} (hf : payload.Faithful)
    {inj : α → Answer} (hw : ∀ v, (inj v).toJson = payload.write v) {r : Request} (hop : r.op ≠ .sayHello)
    (hd : ∀ (p : Provider) l, ∃ t : Except RemoteError α, p.decision l r = t.map inj) :
    ∃ (w : Work) (t : Except RemoteError α), h.work? n e.link providerId r = some w ∧
      h.decision? n e.link providerId r = some (t.map inj) ∧
        Told h.tasks.length w (settled payload) (t.mapError .remote) (h.callAt payload e providerId r) := by
  obtain ⟨p, hp⟩ := hr.provider r
  obtain ⟨t, ht⟩ := hd p (h.turn e.link providerId r).ledger
  exact ⟨_, t, by rw [work?, hp, Option.map_some], by rw [decision?, hp, Option.map_some, ht],
    callAt_told hf hw hr.reaches hop hp ht⟩

theorem Resolves.answered {α : Type} (hr : h.Resolves address providerId e n) {payload : Payload α}
    (hf : payload.Faithful) {inj : α → Answer} (hw : ∀ v, (inj v).toJson = payload.write v) {r : Request}
    (hop : r.op ≠ .sayHello) (hdestroy : r.op ≠ .destroySequencer) (hsum : r.op ≠ .computeSum)
    (hd : ∀ (p : Provider) l, ∃ t : Except RemoteError α, p.decision l r = t.map inj) :
    ∃ t : Except RemoteError α, h.decision? n e.link providerId r = some (t.map inj) ∧
      (h.callAt payload e providerId r).2 = some (t.mapError .remote) := by
  obtain ⟨w, t, hwork, ht, htold⟩ := hr.told hf hw hop hd
  obtain ⟨p, -, rfl⟩ := Option.map_eq_some_iff.mp hwork
  exact ⟨t, ht, htold.now (p.work_not_waits _ hdestroy hsum _)⟩

theorem Resolves.call {α : Type} (hr : h.Resolves address providerId e n) (payload : Payload α) (r : Request) :
    h.call payload address providerId r = h.callAt payload e providerId r := by
  rw [Hub.call, hr.found]

theorem construct_snd (how : Construction) (sequencerType config token : String) :
    (Admin.construct h how address providerId sequencerType config token).2 =
      (h.call .id address providerId (.construct how token sequencerType config)).2 := by
  simp only [Admin.construct]
  split
  · rename_i hc
    rw [hc]
  · rfl

theorem map_mapError {α β : Type} (t : Except RemoteError α) (f : α → β) :
    (t.mapError CallError.remote).map f = (t.map f).mapError .remote := by
  cases t <;> rfl

/-- Clients see what the provider decides, whatever link leads to it and whatever its backends do. -/
theorem client_sees (hr : h.Resolves address providerId e n) : h.ClientView address providerId e n where
  construct how sequencerType config token := by
    rw [construct_snd, hr.call]
    have hd := fun (p : Provider) l => p.decision_construct l how token sequencerType config
    cases how with
    | create => exact hr.answered Payload.id_faithful (fun _ => rfl) (by nofun) (by nofun) (by nofun) hd
    | attach => exact hr.answered Payload.id_faithful (fun _ => rfl) (by nofun) (by nofun) (by nofun) hd
  close id token := by
    obtain ⟨t, ht, hc⟩ := hr.answered Payload.boolean_faithful (fun _ => rfl) (by nofun) (by nofun) (by nofun)
      fun p l => p.decision_close l token id
    exact ⟨t, ht, by simp only [Admin.close, hr.call, hc, Option.map_some, map_mapError]⟩
  destroy id token := by
    rw [Admin.destroy, hr.call]
    exact hr.told Payload.boolean_faithful (fun _ => rfl) (by nofun) fun p l => p.decision_destroy l token id
  bind id := by
    obtain ⟨t, ht, hc⟩ := hr.answered Payload.boolean_faithful (fun _ => rfl) (by nofun) (by nofun) (by nofun)
      fun p l => p.decision_check l id
    exact ⟨t, ht, by simp only [Handle.bind, hr.found, if_true, hc, Option.map_some, map_mapError]⟩
  computeSum id x y :=
    hr.told Payload.int32_faithful (fun _ => rfl) (by nofun) fun p l => p.decision_computeSum l id x y
  sayHello id := by
    obtain ⟨p, hp⟩ := hr.provider (.sayHello id)
    have hreply := (h.forward_standing hr.reaches hp).replied (p.work_not_waits _ (by nofun) (by nofun) _)
    simp only [Handle.sayHello, hreply, Option.map_some]

end Calls

def staffed : Hub := trials.provide 0 {} (Factory.register {} "scripted" (Scripted.constructors "scripted"))

theorem client_sees_overHttp :
    staffed.Resolves "http://127.0.0.1:8087/" 0 ⟨"http://127.0.0.1:8087/", .http "http://127.0.0.1:8087"⟩ 0 ∧
      staffed.ClientView "http://127.0.0.1:8087/" 0 ⟨"http://127.0.0.1:8087/", .http "http://127.0.0.1:8087"⟩ 0 := by
  have hr : staffed.Resolves "http://127.0.0.1:8087/" 0 ⟨"http://127.0.0.1:8087/", .http "http://127.0.0.1:8087"⟩ 0 :=
    ⟨by decide, ⟨rfl, rfl⟩, rfl⟩
  exact ⟨hr, client_sees hr⟩

end Hub
end SequencerHub

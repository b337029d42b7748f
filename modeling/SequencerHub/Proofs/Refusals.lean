import SequencerHub.Proofs.Departures

/-! What a request over the wire does to a host. One that is posted to the path of a provider, with a body that is a
request in JSON, is dispatched; one that is posted to the path for it asks the server to stop. Any other changes
nothing, and the response to it is no success. -/
namespace SequencerHub

section Requests

variable (r : HttpRequest)

/-- What it means that a request calls a provider. -/
structure HttpRequest.Calls (id : UInt16) (q : Request) : Prop where
  posted : r.method = "POST"
  path : ∃ segment name, Http.pathOf r.target = "/mobject/v1/providers/".toList ++ segment ++ "/rpc".toList ∧
    '/' ∉ segment ∧ segment ≠ [] ∧ Octets.decode? (Http.unescape segment) = some name ∧ Http.Spells name id
  kind : ∃ type, r.header? "content-type" = some type ∧ MediaType.isJson type = true
  body : Body.read Request.read r.body = .ok q

/-- What it means that a request asks the server to stop. -/
structure HttpRequest.Stops : Prop where
  posted : r.method = "POST"
  path : Http.pathOf r.target = "/mobject/v1/shutdown".toList

end Requests

namespace Http

variable {r : HttpRequest} {id : UInt16} {q : Request}

def refusals : List Nat := [badRequest, notFound, methodNotAllowed, unsupportedMediaType, unprocessable]

theorem readRpc_rpc_iff {segment : List Char} : readRpc segment r = .rpc id q ↔
    (∃ name, Octets.decode? (unescape segment) = some name ∧ Spells name id) ∧
      (∃ type, r.header? "content-type" = some type ∧ MediaType.isJson type = true) ∧
        Body.read Request.read r.body = .ok q := by
  have hkind : ((r.header? "content-type").map MediaType.isJson).getD false = true ↔
      ∃ type, r.header? "content-type" = some type ∧ MediaType.isJson type = true := by
    cases r.header? "content-type" <;> simp
  rw [← hkind]
  unfold readRpc
  constructor
  · intro h
    split at h
    · cases h
    · rename_i name hname
      split at h
      · cases h
      · rename_i id' hid
        split at h
        · rename_i hjson
          split at h
          · rename_i q' hbody
            obtain ⟨rfl, rfl⟩ := Routed.rpc.inj h
            exact ⟨⟨name, hname, providerId?_eq_some_iff.mp hid⟩, hjson, hbody⟩
          · cases h
        · cases h
  · rintro ⟨⟨name, hname, hid⟩, hjson, hbody⟩
    simp only [hname, providerId?_eq_some_iff.mpr hid, hjson, hbody, if_true]

/-- The router passes on the requests that call a provider, and no others. -/
theorem routed_rpc_iff : routed r = .rpc id q ↔ r.Calls id q := by
  constructor
  · intro h
    unfold routed at h
    split at h
    · cases h
    · rename_i route hroute
      split_ifs at h with hpost
      cases route with
      | shutdown => cases h
      | rpc segment =>
        obtain ⟨hpath, hslash, hne⟩ := route?_rpc_iff.mp hroute
        obtain ⟨⟨name, hname, hid⟩, hkind, hbody⟩ := readRpc_rpc_iff.mp h
        exact ⟨hpost, ⟨segment, name, hpath, hslash, hne, hname, hid⟩, hkind, hbody⟩
  · rintro ⟨hpost, ⟨segment, name, hpath, hslash, hne, hname, hid⟩, hkind, hbody⟩
    simp only [routed, route?_rpc_iff.mpr ⟨hpath, hslash, hne⟩, hpost, if_true]
    exact readRpc_rpc_iff.mpr ⟨⟨name, hname, hid⟩, hkind, hbody⟩

theorem status_refusal (e : JsonError) : (refusal e).status ∈ refusals := by
  have hbad : badRequest ∈ refusals := by decide
  have hwrong : unprocessable ∈ refusals := by decide
  unfold refusal
  split_ifs
  · exact hbad
  · exact hwrong

theorem readRpc_cases (segment : List Char) (r : HttpRequest) : (∃ id q, readRpc segment r = .rpc id q) ∨
    ∃ response, readRpc segment r = .respond response ∧ response.status ∈ refusals := by
  have hbad : badRequest ∈ refusals := by decide
  have hkind : unsupportedMediaType ∈ refusals := by decide
  unfold readRpc
  split
  · exact .inr ⟨_, rfl, hbad⟩
  · split
    · exact .inr ⟨_, rfl, hbad⟩
    · split_ifs
      · split
        · exact .inl ⟨_, _, rfl⟩
        · exact .inr ⟨_, rfl, status_refusal _⟩
      · exact .inr ⟨_, rfl, hkind⟩

theorem routed_shutdown_iff : routed r = .shutdown ↔ r.Stops := by
  constructor
  · intro h
    unfold routed at h
    split at h
    · cases h
    · rename_i route hroute
      split_ifs at h with hpost
      cases route with
      | shutdown => exact ⟨hpost, route?_shutdown_iff.mp hroute⟩
      | rpc segment =>
        dsimp only at h
        obtain ⟨id, q, hread⟩ | ⟨response, hread, -⟩ := readRpc_cases segment r <;> rw [hread] at h <;> cases h
  · rintro ⟨hpost, hpath⟩
    simp only [routed, route?_shutdown_iff.mpr hpath, hpost, if_true]

/-- Whatever is wrong with a request that is not passed on, the response says that something is. -/
theorem status_of_routed {response : HttpResponse} (h : routed r = .respond response) :
    response.status ∈ refusals := by
  have hpath : notFound ∈ refusals := by decide
  have hmethod : methodNotAllowed ∈ refusals := by decide
  unfold routed at h
  split at h
  · obtain rfl := Routed.respond.inj h
    exact hpath
  · rename_i route hroute
    split_ifs at h
    · cases route with
      | shutdown => cases h
      | rpc segment =>
        dsimp only at h
        obtain ⟨id, q, hread⟩ | ⟨response', hread, hstatus⟩ := readRpc_cases segment r
        · rw [hread] at h
          cases h
        · rw [hread] at h
          obtain rfl := Routed.respond.inj h
          exact hstatus
    · obtain rfl := Routed.respond.inj h
      exact hmethod

end Http

def Dispatch.reply? : Dispatch → Option Json
  | replied j => some j
  | running .. => none

namespace Hub

/-- What it means that a host takes no more from a request than the dispatch or the end of serving that it asks for.
What others have begun goes on before a request is dispatched. -/
structure Heeds (h : Hub) (n : Nat) (r : HttpRequest) : Prop where
  /-- A request that calls a provider does what its dispatch does. -/
  dispatched : ∀ id q, r.Calls id q → ∀ host, h.settle.hosts[n]? = some host → (host.find? id).isSome →
    ∃ host' d l, host.dispatch h.opened id q h.settle.ledger = some (host', d, l) ∧
      h.respond n r = ({ h.settle.setHost n host' l with
        tasks := h.settle.tasks ++ [.ofDispatch (.direct n) id d] }, d.reply?.map (.json 200))
  /-- If there is no such provider, the request has done nothing. -/
  unregistered : ∀ id q, r.Calls id q → h.settle.providerAt? n id = none →
    h.respond n r = ({ h.settle with tasks := h.settle.tasks ++ [.replied (.error (.noSuchProvider id))] },
      some (.json 404 (.object [("error", .string "no_such_provider"), ("provider_id", .ofUInt16 id)])))
  /-- The host is asked to stop, and that may be logged. -/
  stopped : r.Stops → ∃ events, h.respond n r = ({ h with
      hosts := h.hosts.modify n fun host => { host with stopping := true }
      ledger := { h.ledger with log := h.ledger.log ++ events } }, some { status := 202 })
  /-- Any other request changes nothing at all. -/
  refused : (∀ id q, ¬ r.Calls id q) → ¬ r.Stops →
    ∃ response, h.respond n r = (h, some response) ∧ response.status ∈ Http.refusals
  /-- Only what has been done looks like a success. -/
  success : ∀ response, (h.respond n r).2 = some response → response.isSuccess = true →
    r.Stops ∨ ∃ id q p, r.Calls id q ∧ h.settle.providerAt? n id = some p

section Respond

variable {h : Hub} {n : Nat} {r : HttpRequest} {id : UInt16} {q : Request}

theorem respond_of_calls (hc : r.Calls id q) : h.respond n r =
    ({ (h.settle.deliver n (.direct n) id q).1 with
        tasks := h.settle.tasks ++ [(h.settle.deliver n (.direct n) id q).2] },
      (h.settle.deliver n (.direct n) id q).2.reply?.map fun reply => Http.respond id reply.toOption) := by
  simp only [respond, Http.routed_rpc_iff.mpr hc, forward_eq, send]

theorem respond_dispatched (hc : r.Calls id q) {host : Host} (hn : h.settle.hosts[n]? = some host)
    (hp : (host.find? id).isSome) : ∃ host' d l, host.dispatch h.opened id q h.settle.ledger = some (host', d, l) ∧
      h.respond n r = ({ h.settle.setHost n host' l with
        tasks := h.settle.tasks ++ [.ofDispatch (.direct n) id d] }, d.reply?.map (.json 200)) := by
  obtain ⟨p, hp⟩ := Option.isSome_iff_exists.mp hp
  have hopened : h.settle.opened = h.opened := (h.advanceAll_within _).opened
  obtain ⟨⟨host', d, l⟩, hd⟩ : ∃ out, host.dispatch h.opened id q h.settle.ledger = some out :=
    ⟨_, host.dispatch_of_find? hp h.opened q h.settle.ledger⟩
  refine ⟨host', d, l, hd, ?_⟩
  rw [respond_of_calls hc]
  simp only [deliver, hn, hopened, hd]
  cases d <;> rfl

theorem respond_unregistered (hc : r.Calls id q) (hp : h.settle.providerAt? n id = none) :
    h.respond n r = ({ h.settle with tasks := h.settle.tasks ++ [.replied (.error (.noSuchProvider id))] },
      some (.json 404 (.object [("error", .string "no_such_provider"), ("provider_id", .ofUInt16 id)]))) := by
  rw [respond_of_calls hc]
  cases hn : h.settle.hosts[n]? with
  | none => simp only [deliver, hn]; rfl
  | some host =>
    have hfind : host.find? id = none := by rwa [providerAt?, hn, Option.bind_some] at hp
    simp only [deliver, hn, Host.dispatch, hfind]
    rfl

theorem respond_stopped (hs : r.Stops) : ∃ events, h.respond n r = ({ h with
    hosts := h.hosts.modify n fun host => { host with stopping := true }
    ledger := { h.ledger with log := h.ledger.log ++ events } }, some { status := 202 }) := by
  simp only [respond, Http.routed_shutdown_iff.mpr hs, stop, List.modify_eq_set_getElem?]
  cases hn : h.hosts[n]? with
  | none => exact ⟨[], by simp [Http.accepted]⟩
  | some host =>
    by_cases hstopping : host.stopping = true
    · exact ⟨[], by simp [Host.requestShutdown, hstopping, setHost, Http.accepted]⟩
    · exact ⟨[.shutdownRequested host.address],
        by simp [Host.requestShutdown, hstopping, setHost, Http.accepted, Ledger.logged]⟩

theorem respond_refused (hc : ∀ id q, ¬ r.Calls id q) (hs : ¬ r.Stops) :
    ∃ response, h.respond n r = (h, some response) ∧ response.status ∈ Http.refusals := by
  cases hrouted : Http.routed r with
  | respond response => exact ⟨response, by simp only [respond, hrouted], Http.status_of_routed hrouted⟩
  | rpc id q => exact absurd (Http.routed_rpc_iff.mp hrouted) (hc id q)
  | shutdown => exact absurd (Http.routed_shutdown_iff.mp hrouted) hs

end Respond

/-- Whatever comes over the wire, a host heeds the requests that call one of its providers or ask it to stop, and no
others. -/
theorem heeds (h : Hub) (n : Nat) (r : HttpRequest) : h.Heeds n r where
  dispatched id q hc host hn hp := respond_dispatched hc hn hp
  unregistered id q hc hp := respond_unregistered hc hp
  stopped hs := respond_stopped hs
  refused hc hs := respond_refused hc hs
  success response hr hsuccess := by
    by_cases hs : r.Stops
    · exact .inl hs
    · by_cases hc : ∃ id q, r.Calls id q
      · obtain ⟨id, q, hc⟩ := hc
        cases hp : h.settle.providerAt? n id with
        | some p => exact .inr ⟨id, q, p, hc, hp⟩
        | none =>
          rw [respond_unregistered hc hp] at hr
          obtain rfl := Option.some.inj hr
          cases hsuccess
      · obtain ⟨response', hrefused, hstatus⟩ := respond_refused (h := h) (n := n)
          (fun id q hq => hc ⟨id, q, hq⟩) hs
        rw [hrefused] at hr
        obtain rfl := Option.some.inj hr
        have hnone : ∀ status ∈ Http.refusals, ¬ (200 ≤ status ∧ status < 300) := by decide
        exact absurd (by simpa [HttpResponse.isSuccess] using hsuccess) (hnone _ hstatus)

end Hub
end SequencerHub

import SequencerHub.Proofs.ClientView
import SequencerHub.Proofs.Creation
import SequencerHub.Proofs.HubCustody
import SequencerHub.Proofs.Nesting

/-! Configurations that are JSON values already. The client writes the value, the request carries the text, and the
provider reads it: the constructor is told the value itself if that is an object and not nested too deep. Any other
value is refused before a constructor is called. -/
namespace SequencerHub

section ParseConfig

variable {v : Json}

theorem Json.ofText_render (hv : v.isExact = true) (hs : v.canonical = v) (hd : v.nesting < JsonText.depthLimit) :
    Json.ofText v.render = .ok v := by
  have hparse := v.parse_write hv hd
  rw [hs] at hparse
  rw [Json.ofText, Json.render, String.toList_ofList, hparse]

theorem Json.ofText_render_deep (hv : v.isExact = true) (hd : JsonText.depthLimit ≤ v.nesting) :
    ∃ e, Json.ofText v.render = .error e := by
  rw [Json.ofText, Json.render, String.toList_ofList]
  exact Json.parse_deep hv hd

/-- An object that is not nested too deep is the configuration that its text gives. -/
theorem Provider.parseConfig_render (hv : v.isExact = true) (hs : v.canonical = v) (ho : v.isObject = true)
    (hd : v.nesting < JsonText.depthLimit) : parseConfig v.render = .ok v := by
  have htext := Json.ofText_render hv hs hd
  cases v with
  | object members => exact parseConfig_object htext
  | _ => cases ho

theorem Provider.parseConfig_render_refused (hv : v.isExact = true) (hs : v.canonical = v)
    (hn : ¬ (v.isObject = true ∧ v.nesting < JsonText.depthLimit)) :
    ∃ message, parseConfig v.render = .error ⟨.configParse, message⟩ := by
  by_cases hd : v.nesting < JsonText.depthLimit
  · have hobject : ∀ members, v ≠ .object members := by
      rintro members rfl
      exact hn ⟨rfl, hd⟩
    exact ⟨_, parseConfig_noObject (Json.ofText_render hv hs hd) hobject⟩
  · obtain ⟨e, he⟩ := Json.ofText_render_deep hv (Nat.not_lt.mp hd)
    exact ⟨_, parseConfig_error he⟩

end ParseConfig

namespace Hub

section Keeps

variable {h : Hub} {n : Nat} {id : UInt16} {p : Provider}

theorem providerAt?_put {m : Nat} {host : Host} (hm : h.hosts[m]? = some host) (q : Provider) (l : Ledger) :
    (h.setHost m (host.put q) l).providerAt? n id = if m = n ∧ q.id = id then some q else h.providerAt? n id := by
  by_cases hmn : m = n
  · subst hmn
    have hself : (h.setHost m (host.put q) l).hosts[m]? = some (host.put q) :=
      List.getElem?_set_self (List.getElem?_eq_some_iff.mp hm).1
    have hfind : (host.put q).find? id = if q.id = id then some q else host.find? id :=
      Host.find?_insert q host.providers id
    simp only [providerAt?, hself, hm, Option.bind_some, true_and, hfind]
  · have hother : (h.setHost m (host.put q) l).hosts[n]? = h.hosts[n]? := List.getElem?_set_ne hmn
    simp only [providerAt?, hother, hmn, false_and, if_false]

theorem id_of_providerAt? (hp : h.providerAt? n id = some p) : p.id = id := by
  obtain ⟨host, -, hfind⟩ := Option.bind_eq_some_iff.mp hp
  simpa using List.find?_some hfind

/-- Whatever goes on, a provider has the options and the factory that it was made with. -/
theorem advance_keeps (hp : h.providerAt? n id = some p) (k : Nat) :
    ∃ p', (h.advance k).providerAt? n id = some p' ∧ p'.options = p.options ∧ p'.factory = p.factory := by
  cases hk : h.tasks[k]? with
  | none => exact ⟨p, by simpa only [advance, hk] using hp, rfl, rfl⟩
  | some t =>
    have hproviders : (h.advance k).providerAt? n id = (h.run t).1.providerAt? n id := by rw [h.advance_eq t hk]; rfl
    have hran := run_ran (h := h) t
    rw [hproviders]
    generalize h.run t = out at hran
    cases hran with
    | aside hl ht ht' => exact ⟨p, hp, rfl, rfl⟩
    | torn t₀ ht => exact ⟨p, hp, rfl, rfl⟩
    | @served m host id' q r l t' hm hq hl ht ht' =>
      have hserved := (q.handle_served r h.ledger).provider
      rw [providerAt?_put hm]
      by_cases hsame : m = n ∧ (q.handle r h.ledger).1.id = id
      · have hid : q.id = id' := by simpa using List.find?_some hq
        have hids : (q.handle r h.ledger).1.id = q.id := by rw [hserved]; rfl
        have hqp : h.providerAt? m id' = some q := by rw [providerAt?, hm, Option.bind_some, hq]
        rw [hsame.1, ← hid, ← hids, hsame.2, hp] at hqp
        obtain rfl := Option.some.inj hqp
        rw [if_pos hsame]
        exact ⟨_, rfl, by rw [hserved], by rw [hserved]⟩
      · rw [if_neg hsame]
        exact ⟨p, hp, rfl, rfl⟩

theorem advanceAll_keeps (hp : h.providerAt? n id = some p) (ks : List Nat) : ∃ p',
    (ks.foldl advance h).providerAt? n id = some p' ∧ p'.options = p.options ∧ p'.factory = p.factory := by
  refine List.foldlRecOn (motive := fun h' => ∃ p', h'.providerAt? n id = some p' ∧ p'.options = p.options ∧
    p'.factory = p.factory) ks advance ⟨p, hp, rfl, rfl⟩ fun h' hp' k _ => ?_
  obtain ⟨p', hp', ho, hf⟩ := hp'
  obtain ⟨p'', hp'', ho', hf'⟩ := advance_keeps hp' k
  exact ⟨p'', hp'', ho'.trans ho, hf'.trans hf⟩

theorem turn_keeps (hp : h.providerAt? n id = some p) (link : Link) (r : Request) :
    ∃ p', (h.turn link id r).providerAt? n id = some p' ∧ p'.options = p.options ∧ p'.factory = p.factory := by
  have hstart : (h.start (.sending link id r)).1.providerAt? n id = some p := hp
  exact advanceAll_keeps hstart _

theorem deliver_served (hp : h.providerAt? n id = some p) (link : Link) (r : Request) :
    (p.handle r h.ledger).2.2.SameBooks (h.deliver n link id r).1.ledger ∧
      ∀ m id', (h.deliver n link id r).1.providerAt? m id' =
        if n = m ∧ id = id' then some (p.handle r h.ledger).1 else h.providerAt? m id' := by
  have hid : (p.handle r h.ledger).1.id = id := (p.handle_id r h.ledger).trans (id_of_providerAt? hp)
  obtain ⟨host, hhost, hfind⟩ := Option.bind_eq_some_iff.mp hp
  simp only [deliver, hhost, host.dispatch_of_find? hfind]
  refine ⟨Host.sameBooks_dispatch p id _ r _, fun m id' => ?_⟩
  rw [providerAt?_put hhost, hid]

theorem forward_served {link : Link} (hr : h.Reaches n link) {r : Request}
    (hp : (h.turn link id r).providerAt? n id = some p) :
    (p.handle r (h.turn link id r).ledger).2.2.SameBooks (h.forward link id r).1.ledger ∧
      ∀ m id', (h.forward link id r).1.providerAt? m id' =
        if n = m ∧ id = id' then some (p.handle r (h.turn link id r).ledger).1
        else (h.turn link id r).providerAt? m id' := by
  have hreaches := (h.turn_within link id r).reaches hr
  have htask := h.turn_tasks link id r
  rw [forward_fst]
  generalize h.turn link id r = turn at hp hreaches htask ⊢
  have hrun : turn.run (.sending link id r) = turn.deliver n link id r := send_of_reaches hreaches id r
  rw [advance_eq _ _ htask, hrun]
  exact deliver_served hp link r

end Keeps

/-- What it means that a call has handed a configuration to the constructor of a type, and tells what became of it. -/
structure HandsOver (how : Construction) (sequencerType : String) (constructor : Constructor) (config : Json) (n : Nat)
    (p : Provider) (before : Hub) (call : Hub × Outgoing SequencerId) : Prop where
  found : p.factory.construct how sequencerType before.ledger.built.length ⟨p.id, config⟩ =
    .ok (constructor before.ledger.built.length ⟨p.id, config⟩)
  /-- Of all constructors this one is called, once and with exactly this configuration. -/
  once : call.1.ledger.built = before.ledger.built ++ [⟨how, sequencerType, ⟨p.id, config⟩⟩]
  registered : ∀ b, (constructor before.ledger.built.length ⟨p.id, config⟩).outcome = .ok b →
    call.2 = some (.ok before.ledger.nextId) ∧ call.1.providerAt? n p.id =
      some { p with live := p.live.insert before.ledger.nextId ⟨before.ledger.built.length, b⟩ }
  failed : ∀ e, (constructor before.ledger.built.length ⟨p.id, config⟩).outcome = .failed e →
    call.2 = some (.error (.remote (Provider.notConstructed sequencerType e))) ∧ call.1.providerAt? n p.id = some p
  panicked : ∀ q, (constructor before.ledger.built.length ⟨p.id, config⟩).outcome = .panicked q → ∃ message,
    call.2 = some (.error (.remote ⟨.backendOperation, message⟩)) ∧ call.1.providerAt? n p.id = some p

/-- What it means that a call has been refused for its configuration: nothing is registered and no constructor is
called. -/
structure RefusesConfig (before : Hub) (call : Hub × Outgoing SequencerId) : Prop where
  refused : ∃ message, call.2 = some (.error (.remote ⟨.configParse, message⟩))
  registries : ∀ n id, call.1.providerAt? n id = before.providerAt? n id
  built : call.1.ledger.built = before.ledger.built

section Call

variable {h : Hub} {address : String} {providerId : UInt16} {e : Endpoint} {n : Nat} {how : Construction}
  {sequencerType token : String} {v : Json} {p : Provider} {c : Constructors}

theorem construct_fst (h : Hub) (how : Construction) (address : String) (providerId : UInt16)
    (sequencerType config token : String) : ∃ log,
      (Admin.construct h how address providerId sequencerType config token).1 =
        { (h.call .id address providerId (.construct how token sequencerType config)).1 with
          ledger :=
            { (h.call .id address providerId (.construct how token sequencerType config)).1.ledger with log } } := by
  simp only [Admin.construct]
  split
  · rename_i hc
    rw [hc]
    exact ⟨_, rfl⟩
  · exact ⟨_, rfl⟩

/-- What it means that a call comes to what the provider `p` has made of the request. -/
structure ComesTo (n : Nat) (p : Provider) (out : Provider × Work × Ledger) (op : Operation) (before : Hub)
    (call : Hub × Outgoing SequencerId) : Prop where
  books : out.2.2.SameBooks call.1.ledger
  provider : call.1.providerAt? n p.id = some out.1
  others : ∀ m id, ¬ (n = m ∧ p.id = id) → call.1.providerAt? m id = before.providerAt? m id
  told : ∀ t : Except RemoteError SequencerId, out.2.1.ending.decision op = t.map .id →
    call.2 = some (t.mapError .remote)

theorem Resolves.comesTo (hr : h.Resolves address providerId e n) {text : String} {before : Hub}
    (hbefore : before = h.turn e.link providerId (.construct how token sequencerType text))
    (hp : before.providerAt? n providerId = some p) :
    ComesTo n p (p.construct how token sequencerType text
        (before.ledger.logged (.handling p.id (Request.construct how token sequencerType text).op)))
      (Request.construct how token sequencerType text).op before
      (Admin.construct h how address providerId sequencerType text token) := by
  subst hbefore
  obtain rfl := id_of_providerAt? hp
  obtain ⟨log, hlog⟩ := construct_fst h how address p.id sequencerType text token
  obtain ⟨hbooks, hproviders⟩ := forward_served hr.reaches hp
  have hfst : (h.call .id address p.id (.construct how token sequencerType text)).1 =
      (h.forward e.link p.id (.construct how token sequencerType text)).1 := by rw [hr.call]; rfl
  rw [hfst] at hlog
  have hops : ∀ op ∈ [Operation.sayHello, .destroySequencer, .computeSum],
      (Request.construct how token sequencerType text).op ≠ op := by cases how <;> simp [Request.op]
  refine ⟨?_, ?_, fun m id hother => ?_, fun t ht => ?_⟩
  · rw [hlog]
    exact ⟨hbooks.supply, hbooks.minted, hbooks.built, hbooks.calls⟩
  · rw [hlog]
    exact (hproviders n p.id).trans (if_pos ⟨rfl, rfl⟩)
  · rw [hlog]
    exact (hproviders m id).trans (if_neg hother)
  · have hdecision : p.decision (h.turn e.link p.id (.construct how token sequencerType text)).ledger
        (.construct how token sequencerType text) = t.map .id := by
      rw [Provider.decision, ← Provider.handle_work]
      exact ht
    have htold := callAt_told Payload.id_faithful (fun _ => rfl) hr.reaches (hops _ (by simp)) hp hdecision
    rw [construct_snd, hr.call]
    exact htold.now (p.work_not_waits _ (hops _ (by simp)) (hops _ (by simp)) _)

theorem ComesTo.handsOver {before : Hub} {call : Hub × Outgoing SequencerId} {op : Operation} {e : LogEvent}
    (hc : ComesTo n p (p.build how sequencerType c v (before.ledger.logged e)) op before call)
    (hf : p.factory.find? sequencerType = some c) : HandsOver how sequencerType (c.pick how) v n p before call := by
  have hb : p.Constructs how sequencerType (c.pick how) v (before.ledger.logged e)
      (p.build how sequencerType c v (before.ledger.logged e)) := Provider.build_constructs hf v
  refine ⟨hb.found, hc.books.built.trans hb.once, fun b hout => ?_, fun x hout => ?_, fun q hout => ?_⟩
  · obtain ⟨hp, hw, -⟩ := hb.registered b hout
    exact ⟨hc.told (.ok _) (by rw [hw]; rfl), hc.provider.trans (congrArg some hp)⟩
  · obtain ⟨hp, hw, -⟩ := hb.failed x hout
    exact ⟨hc.told (.error _) (by rw [hw]; rfl), hc.provider.trans (congrArg some hp)⟩
  · obtain ⟨hp, hw, -⟩ := hb.panicked q hout
    exact ⟨_, hc.told (.error _) (by rw [hw]; rfl), hc.provider.trans (congrArg some hp)⟩

theorem ComesTo.refusesConfig {before : Hub} {call : Hub × Outgoing SequencerId} {op : Operation} {e : LogEvent}
    {message : String} (hc : ComesTo n p (p, .refused ⟨.configParse, message⟩, before.ledger.logged e) op before call)
    (hp : before.providerAt? n p.id = some p) : RefusesConfig before call := by
  refine ⟨⟨message, hc.told (.error _) rfl⟩, fun m id => ?_, hc.books.built⟩
  by_cases hsame : n = m ∧ p.id = id
  · obtain ⟨rfl, rfl⟩ := hsame
    rw [hc.provider, hp]
  · exact hc.others m id hsame

variable (how v) in
/-- A JSON value that is sent as a configuration is handed to the constructor as it is if it is an object and nested no
deeper than the reader goes; any other value is refused, nothing is registered and no constructor is called. -/
theorem config_unchanged (hr : h.Resolves address providerId e n) (hp : h.providerAt? n providerId = some p)
    (ht : p.options.token = "" ∨ p.options.token = token) (hf : p.factory.find? sequencerType = some c)
    (hv : v.isExact = true) (hs : v.canonical = v) :
    ∃ before p', before = h.turn e.link providerId (.construct how token sequencerType v.render) ∧
      before.providerAt? n providerId = some p' ∧ p'.options = p.options ∧ p'.factory = p.factory ∧
      (v.isObject = true ∧ v.nesting < JsonText.depthLimit →
        HandsOver how sequencerType (c.pick how) v n p' before
          (Admin.constructJson h how address providerId sequencerType v token)) ∧
      (¬ (v.isObject = true ∧ v.nesting < JsonText.depthLimit) →
        RefusesConfig before (Admin.constructJson h how address providerId sequencerType v token)) := by
  obtain ⟨p', hp', ho, hfactory⟩ := turn_keeps hp e.link (.construct how token sequencerType v.render)
  have hadmits : p'.admits token = true := Provider.admits_iff.mpr (ho ▸ ht)
  have hfind : p'.factory.find? sequencerType = some c := hfactory ▸ hf
  have hcomes := hr.comesTo rfl hp'
  refine ⟨_, p', rfl, hp', ho, hfactory, fun hgood => ?_, fun hbad => ?_⟩
  · have hparsed := Provider.parseConfig_render hv hs hgood.1 hgood.2
    rw [Provider.construct_parsed hadmits hfind hparsed] at hcomes
    exact hcomes.handsOver hfind
  · obtain ⟨message, hparsed⟩ := Provider.parseConfig_render_refused hv hs hbad
    rw [Provider.construct_unparsed hadmits hfind hparsed] at hcomes
    obtain rfl := id_of_providerAt? hp'
    exact hcomes.refusesConfig hp'

end Call

def inner : Json := .object [("limits", .array [.number (.whole (.ofUInt16 65535)), .object [("\n", .null)]])]

theorem config_unchanged_inner :
    (∃ before p, HandsOver .attach "scripted" (Scripted.constructor "scripted" .attach) inner 0 p before
      (Admin.constructJson staffed .attach "local://trials" 0 "scripted" inner "")) ∧
    ∃ before, RefusesConfig before
      (Admin.constructJson staffed .attach "local://trials" 0 "scripted" (.array [inner]) "") := by
  have hr : staffed.Resolves "local://trials" 0 ⟨"local://trials", .named "local://trials"⟩ 0 := ⟨by decide, rfl, rfl⟩
  have hp : ∃ p, staffed.providerAt? 0 0 = some p ∧ p.options.token = "" ∧
      p.factory.find? "scripted" = some (Scripted.constructors "scripted") := ⟨_, rfl, rfl, rfl⟩
  obtain ⟨p, hp, ht, hf⟩ := hp
  obtain ⟨before, p', -, -, -, -, hhands, -⟩ := config_unchanged .attach inner hr hp (.inl ht) hf rfl rfl
  obtain ⟨before', -, -, -, -, -, -, hrefuses⟩ := config_unchanged .attach (.array [inner]) hr hp (.inl ht) hf rfl rfl
  exact ⟨⟨before, p', hhands (by decide)⟩, before', hrefuses (by decide)⟩

end Hub
end SequencerHub

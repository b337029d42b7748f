import SequencerHub.Log.Setup
import SequencerHub.Proofs.Hosting

/-! The tokens of the providers stay secret. Two runs of a host that differ in the tokens only, with the same requests
showing the right token in both, cannot be told apart by anything that is answered, called, described or logged. -/
namespace SequencerHub

abbrev Tokens := UInt16 → String

def ProviderOptions.under (T : Tokens) (o : ProviderOptions) : ProviderOptions := { o with token := T o.providerId }

namespace Provider

def under (T : Tokens) (p : Provider) : Provider := { p with options := p.options.under T }

variable (T T' : Tokens) (p : Provider)

@[simp] theorem under_id : (p.under T).id = p.id := rfl

@[simp] theorem under_live : (p.under T).live = p.live := rfl

@[simp] theorem under_under : (p.under T).under T' = p.under T' := rfl

end Provider

namespace Request

def withToken (token : String) : Request → Request
  | construct how _ sequencerType config => construct how token sequencerType config
  | close _ id => close token id
  | destroy _ id => destroy token id
  | r => r

/-- Two requests that are the same but for what token they show, and show the right token both or neither. -/
structure Alike (right right' : String) (r r' : Request) : Prop where
  rest : r'.withToken "" = r.withToken ""
  shows : r.token? = some right ↔ r'.token? = some right'

@[simp] theorem op_withToken (token : String) (r : Request) : (r.withToken token).op = r.op := by
  cases r with
  | construct how => cases how <;> rfl
  | _ => rfl

theorem Alike.refl (right : String) (r : Request) : Alike right right r r := ⟨rfl, .rfl⟩

theorem Alike.op {right right' : String} {r r' : Request} (h : r.Alike right right' r') : r'.op = r.op := by
  have ho : (r'.withToken "").op = (r.withToken "").op := by rw [h.rest]
  simpa using ho

end Request

section Provider

variable {T T' : Tokens} (hT : ∀ i, T i = "" ↔ T' i = "") {p : Provider} {r r' : Request} (l : Ledger)

include hT

theorem Provider.isProtected_under : (p.under T').isProtected = (p.under T).isProtected := by
  have h : T' p.id = "" ↔ T p.id = "" := (hT p.id).symm
  simp only [isProtected, under, ProviderOptions.under]
  exact decide_eq_decide.mpr (not_congr h)

theorem Provider.describe_under : (p.under T').describe = (p.under T).describe := by
  simp only [describe, isProtected_under hT]
  rfl

theorem Provider.admits_under (hr : r.Alike (T p.id) (T' p.id) r') {token token' : String}
    (h : r.token? = some token) (h' : r'.token? = some token') :
    (p.under T').admits token' = (p.under T).admits token := by
  have hright : T' p.id = token' ↔ T p.id = token := by
    have hs : token = T p.id ↔ token' = T' p.id := by simpa [h, h'] using hr.shows
    rw [eq_comm, ← hs, eq_comm]
  rw [admits, admits, isProtected_under hT]
  congr 1
  exact decide_eq_decide.mpr hright

theorem Provider.serve_under (hr : r.Alike (T p.id) (T' p.id) r') : (p.under T').serve r' l =
    (((p.under T).serve r l).1.under T', ((p.under T).serve r l).2.1, ((p.under T).serve r l).2.2) := by
  have hrest := hr.rest
  have ha := @admits_under T T' hT p r r' hr
  cases r with
  | construct how token sequencerType config =>
    cases r' <;> cases hrest
    simp only [serve, construct, ha rfl rfl]
    split
    · simp only [under]
      split
      · rfl
      · split
        · rfl
        · simp only [build, id, ProviderOptions.under]
          split <;> rfl
    · rfl
  | close token id =>
    cases r' <;> cases hrest
    simp only [serve, close, ha rfl rfl, under_live]
    split
    · split <;> rfl
    · rfl
  | destroy token id =>
    cases r' <;> cases hrest
    simp only [serve, destroy, ha rfl rfl, under_live]
    split
    · split <;> rfl
    · rfl
  | check id =>
    cases r' <;> cases hrest
    rfl
  | sayHello id =>
    cases r' <;> cases hrest
    rfl
  | computeSum id x y =>
    cases r' <;> cases hrest
    rfl

/-- What a provider does with a request depends on the token only by whether it is the right one. -/
theorem Provider.handle_under (hr : r.Alike (T p.id) (T' p.id) r') : (p.under T').handle r' l =
    (((p.under T).handle r l).1.under T', ((p.under T).handle r l).2.1, ((p.under T).handle r l).2.2) := by
  have hdropped : ∀ w, (p.under T').droppedEvents r' w = (p.under T).droppedEvents r w := by
    intro w
    have hrest := hr.rest
    cases r <;> cases r' <;> cases hrest <;> rfl
  simp only [handle, hr.op, hdropped, serve_under hT _ hr, under_id]

end Provider

namespace Host

def under (T : Tokens) (h : Host) : Host := { h with providers := h.providers.map (Provider.under T) }

variable (T T' : Tokens) (h : Host)

@[simp] theorem under_under : (h.under T).under T' = h.under T' := by
  simp [under]

theorem find?_under (id : UInt16) : (h.under T).find? id = (h.find? id).map (Provider.under T) :=
  h.find?_each (Provider.under T) (fun _ => rfl) id

theorem put_under (p : Provider) : (h.under T).put (p.under T) = (h.put p).under T := h.put_each (Provider.under T) (fun _ => rfl) p

theorem register_under (p : Provider) (l : Ledger) :
    (h.under T).register (p.under T) l = (h.register p l).map fun x => (x.1.under T, x.2) :=
  h.register_each (Provider.under T) (fun _ => rfl) p l

theorem deregister_under (id : UInt16) (l : Ledger) : (h.under T).deregister id l =
    ((h.deregister id l).1.map (Provider.under T), (h.deregister id l).2.1.under T, (h.deregister id l).2.2) :=
  h.deregister_each (Provider.under T) (fun _ => rfl) id l

theorem requestShutdown_under (l : Ledger) :
    (h.under T).requestShutdown l = ((h.requestShutdown l).1.under T, (h.requestShutdown l).2) := rfl

variable {T T'}

theorem dispatch_under (hT : ∀ i, T i = "" ↔ T' i = "") {r r' : Request} (opened : Gates) (id : UInt16)
    (hr : r.Alike (T id) (T' id) r') (l : Ledger) : (h.under T').dispatch opened id r' l =
      ((h.under T).dispatch opened id r l).map fun x => (x.1.under T', x.2) := by
  simp only [dispatch, find?_under]
  cases hp : h.find? id with
  | none => rfl
  | some p =>
    obtain rfl : p.id = id := by simpa using List.find?_some hp
    simp [Provider.handle_under hT l hr, hr.op, ← put_under]

end Host

namespace Teardown

def under (T : Tokens) : Teardown → Teardown
  | waiting providerId id acts outcome instances providers =>
    waiting providerId id acts outcome instances (providers.map (Provider.under T))
  | t => t

variable (T : Tokens) (opened : Gates)

@[simp] theorem under_under (T' : Tokens) (t : Teardown) : (t.under T).under T' = t.under T' := by
  cases t <;> simp [under]

@[simp] theorem under_comp_under (T' : Tokens) : under T' ∘ under T = under T' := funext (under_under T T')

theorem all_under (ps : List Provider) (l : Ledger) :
    all opened (ps.map (Provider.under T)) l = ((all opened ps l).1.under T, (all opened ps l).2) := by
  induction ps generalizing l with
  | nil => rfl
  | cons p ps ih =>
    have hd : ∀ l, dismiss opened (p.under T).options p.live l = dismiss opened p.options p.live l := fun _ => rfl
    simp only [List.map_cons, all, Provider.under_id, Provider.under_live, hd]
    obtain ⟨progress, l'⟩ := dismiss opened p.options p.live (l.logged (.tearingDown p.id))
    cases progress with
    | finished => exact ih l'
    | panicked q => rfl
    | waiting => rfl

theorem resume_under (t : Teardown) (l : Ledger) :
    (t.under T).resume opened l = ((t.resume opened l).1.under T, (t.resume opened l).2) := by
  cases t with
  | finished => rfl
  | panicked q => rfl
  | waiting providerId id acts outcome instances ps =>
    simp only [under, resume]
    obtain ⟨progress, l'⟩ := runCall opened providerId id acts outcome instances l
    cases progress with
    | finished =>
      obtain ⟨progress, l'⟩ := destroyAll opened providerId instances l'
      cases progress with
      | finished => exact all_under T opened ps l'
      | panicked q => rfl
      | waiting => rfl
    | panicked q => rfl
    | waiting => rfl

theorem tearDown_under (p : Provider) (l : Ledger) : (p.under T).tearDown opened l =
    ((p.tearDown opened l).1.under T, (p.tearDown opened l).2.1.under T, (p.tearDown opened l).2.2) := by
  have hd : dismiss opened (p.under T).options p.live l = dismiss opened p.options p.live l := rfl
  simp only [Provider.tearDown, Provider.under_live, Provider.under_id, hd]
  obtain ⟨progress, l'⟩ := dismiss opened p.options p.live l
  cases progress <;> rfl

theorem hostTearDown_under (h : Host) (l : Ledger) : (h.under T).tearDown opened l =
    ((h.tearDown opened l).1.under T, (h.tearDown opened l).2.1.under T, (h.tearDown opened l).2.2) := by
  simp [Host.tearDown, Host.under, all_under]

end Teardown

def Teardown.end? : Teardown → Option (Option Panic)
  | finished => some none
  | panicked q => some (some q)
  | waiting .. => none

namespace Hosting

def under (T : Tokens) (s : Hosting) : Hosting :=
  { s with host := s.host.under T, teardowns := s.teardowns.map (Teardown.under T) }

def Move.Alike (T T' : Tokens) : Move → Move → Prop
  | .provide o f, m' => o.under T = o ∧ m' = .provide (o.under T') f
  | .request id r opened, m' => ∃ r', r.Alike (T id) (T' id) r' ∧ m' = .request id r' opened
  | m, m' => m' = m

theorem Move.Alike.self {T T' : Tokens} {m m' : Move} (h : m.Alike T T' m') : m.Alike T T m := by
  cases m with
  | provide o f => exact ⟨h.1, by rw [h.1]⟩
  | request id r opened => exact ⟨r, .refl _ r, rfl⟩
  | _ => rfl

/-- All that shows of a host and of what has happened at it. -/
structure Sight where
  descriptions : List Json
  registries : List Registry
  stopping : Bool
  requests : List (Option Dispatch)
  teardowns : List (Option (Option Panic))
  minted : Nat
  built : List Built
  calls : List (Nat × Call)
  journal : List Json
  log : List LogRecord

def sight (s : Hosting) : Sight where
  descriptions := s.host.providers.map Provider.describe
  registries := s.host.providers.map Provider.live
  stopping := s.host.stopping
  requests := s.requests
  teardowns := s.teardowns.map Teardown.end?
  minted := s.ledger.minted
  built := s.ledger.built
  calls := s.ledger.calls
  journal := s.ledger.journal
  log := s.ledger.log.map LogEvent.record

def Twins (T T' : Tokens) (s s' : Hosting) : Prop :=
  ∃ u earlier earlier', s = (under T u).behind earlier ∧ s' = (under T' u).behind earlier' ∧
    earlier'.map LogEvent.record = earlier.map LogEvent.record

def provided (u : Hosting) (o : ProviderOptions) (f : Factory) : Hosting :=
  match u.host.register { options := o, factory := f } { u.ledger with log := [] } with
  | .error _ => { u with ledger := { u.ledger with log := [] } }
  | .ok (host, l) => { u with host, ledger := l }

theorem provide_under (T : Tokens) (u : Hosting) (o : ProviderOptions) (f : Factory) :
    (u.under T).step (.provide (o.under T) f) =
      ((provided u o f).under T).behind (u.ledger.log ++ [.providerCreated (o.under T)]) := by
  have hp : ({ options := o.under T, factory := f } : Provider) = Provider.under T { options := o, factory := f } := rfl
  have hl : u.ledger.logged (.providerCreated (o.under T)) =
      ({ u.ledger with log := [] } : Ledger).behind (u.ledger.log ++ [.providerCreated (o.under T)]) := by
    simp [Ledger.behind, Ledger.logged]
  simp only [Hosting.step, under, hp, hl, Host.register_under, Host.register_behind, provided]
  cases u.host.register { options := o, factory := f } { u.ledger with log := [] } <;> rfl

variable {T T' : Tokens} (hT : ∀ i, T i = "" ↔ T' i = "")

include hT

theorem step_under (s : Hosting) {m m' : Move} (hm : m.Alike T T' m') (hp : ∀ o f, m ≠ .provide o f) :
    (s.under T').step m' = ((s.under T).step m).under T' := by
  cases m with
  | provide o f => exact absurd rfl (hp o f)
  | request id r opened =>
    obtain ⟨r', hr, rfl⟩ := hm
    simp only [step, under, s.host.dispatch_under hT opened id hr]
    cases (s.host.under T).dispatch opened id r s.ledger <;> simp
  | deregister id =>
    obtain rfl : m' = .deregister id := hm
    simp [step, under, Host.deregister_under]
  | resume n opened =>
    obtain rfl : m' = .resume n opened := hm
    simp only [step, under]
    split <;> simp
  | tearDownOne id opened =>
    obtain rfl : m' = .tearDownOne id opened := hm
    simp only [step, under, Host.find?_under]
    cases s.host.find? id with
    | none => simp
    | some p => simp [Teardown.tearDown_under, Host.put_under]
  | tearDown opened =>
    obtain rfl : m' = .tearDown opened := hm
    simp [step, under, Teardown.hostTearDown_under]
  | resumeTeardown n opened =>
    obtain rfl : m' = .resumeTeardown n opened := hm
    simp only [step, under, List.getElem?_map]
    cases s.teardowns[n]? with
    | none => simp
    | some t => simp [Teardown.resume_under]
  | requestShutdown =>
    obtain rfl : m' = .requestShutdown := hm
    simp [step, under, Host.requestShutdown_under]

theorem record_providerCreated (o : ProviderOptions) :
    (LogEvent.providerCreated (o.under T')).record = (LogEvent.providerCreated (o.under T)).record := by
  simp only [LogEvent.record, LogEvent.fields, ProviderOptions.under, ne_eq, hT o.providerId]
  rfl

theorem twins_provide (u : Hosting) (o : ProviderOptions) (f : Factory) :
    Twins T T' ((u.under T).step (.provide (o.under T) f)) ((u.under T').step (.provide (o.under T') f)) := by
  refine ⟨provided u o f, _, _, provide_under T u o f, provide_under T' u o f, ?_⟩
  simp [record_providerCreated hT o]

theorem Twins.step {s s' : Hosting} (h : Twins T T' s s') {m m' : Move} (hm : m.Alike T T' m') :
    Twins T T' (s.step m) (s'.step m') := by
  obtain ⟨u, earlier, earlier', rfl, rfl, he⟩ := h
  rw [step_behind, step_behind]
  -- Only the event of a new provider holds a token; all else that happens commutes with the choice of the tokens.
  by_cases hp : ∃ o f, m = .provide o f
  · obtain ⟨o, f, rfl⟩ := hp
    obtain ⟨ho, rfl⟩ := hm
    obtain ⟨u', between, between', hs, hs', hb⟩ := twins_provide hT u o f
    rw [ho] at hs
    refine ⟨u', earlier ++ between, earlier' ++ between', ?_, ?_, by simp [he, hb]⟩
    · rw [hs]
      simp [behind, Ledger.behind]
    · rw [hs']
      simp [behind, Ledger.behind]
  · have hp' : ∀ o f, m ≠ .provide o f := fun o f h => hp ⟨o, f, h⟩
    refine ⟨(u.under T).step m, earlier, earlier', ?_, ?_, he⟩
    · rw [← step_under (fun _ => .rfl) u hm.self hp']
    · rw [step_under hT u hm hp']

theorem Twins.run {s s' : Hosting} (h : Twins T T' s s') {ms ms' : List Move}
    (hms : List.Forall₂ (Move.Alike T T') ms ms') : Twins T T' (s.run ms) (s'.run ms') := by
  induction hms generalizing s s' with
  | nil => exact h
  | cons hm hms ih => exact ih (h.step hT hm)

theorem Twins.sight {s s' : Hosting} (h : Twins T T' s s') : s'.sight = s.sight := by
  obtain ⟨u, earlier, earlier', rfl, rfl, he⟩ := h
  have hd : ∀ p, (Provider.describe ∘ Provider.under T') p = (Provider.describe ∘ Provider.under T) p :=
    fun p => p.describe_under hT
  have ht : ∀ t, (Teardown.end? ∘ Teardown.under T') t = (Teardown.end? ∘ Teardown.under T) t := by
    intro t
    cases t <;> rfl
  simp [Hosting.sight, behind, under, Host.under, Ledger.behind, he, funext hd, funext ht, Function.comp_def]

/-- Whatever a host and its providers do, at every moment the same shows of them, whichever tokens they have: the
replies to requests show the same, and so do the descriptions of the providers, the constructors and backends that
have been called, with what arguments, and all that has been logged. -/
theorem secret (s : Hosting) {ms ms' : List Move} (hms : List.Forall₂ (Move.Alike T T') ms ms') (k : Nat) :
    ((s.under T').run (ms'.take k)).sight = ((s.under T).run (ms.take k)).sight := by
  have hs : Twins T T' (s.under T) (s.under T') := ⟨s, [], [], rfl, rfl, rfl⟩
  exact (hs.run hT (List.forall₂_take k hms)).sight hT

omit hT

/-- A caller who knows the token makes a sequencer, and one who does not tries to destroy it. -/
def keptAndTried (token guess : String) : List Move :=
  [.provide { token } (Factory.register {} "scripted" (Scripted.constructors "scripted")),
    .request 0 (.construct .create token "scripted" "{}") [], .request 0 (.destroy guess (SequencerId.ofNat 0)) []]

theorem secret_keptAndTried :
    (∀ i, (fun _ => "one" : Tokens) i = "" ↔ (fun _ => "two" : Tokens) i = "") ∧
      List.Forall₂ (Move.Alike (fun _ => "one") (fun _ => "two")) (keptAndTried "one" "two")
        (keptAndTried "two" "one") ∧
        ∀ k, ((trials.under fun _ => "two").run ((keptAndTried "two" "one").take k)).sight =
          ((trials.under fun _ => "one").run ((keptAndTried "one" "two").take k)).sight := by
  have hT : ∀ i, (fun _ => "one" : Tokens) i = "" ↔ (fun _ => "two" : Tokens) i = "" := by simp
  have hms : List.Forall₂ (Move.Alike (fun _ => "one") (fun _ => "two")) (keptAndTried "one" "two")
      (keptAndTried "two" "one") := by
    refine .cons ⟨rfl, rfl⟩ (.cons ⟨.construct .create "two" "scripted" "{}", ⟨rfl, ?_⟩, rfl⟩
      (.cons ⟨.destroy "one" (SequencerId.ofNat 0), ⟨rfl, ?_⟩, rfl⟩ .nil))
    · simp [Request.token?]
    · simp [Request.token?]
  exact ⟨hT, hms, secret hT trials hms⟩

end Hosting
end SequencerHub

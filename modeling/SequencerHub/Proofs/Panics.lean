import SequencerHub.Proofs.Replies
import SequencerHub.Proofs.Rescue

/-! A backend that panics while a request is served does no more harm than one that fails: the caller is told of a
failure, and all else is as if the same call had ended with an error. -/
namespace SequencerHub

def Ledger.SameButLog (l l' : Ledger) : Prop := ({ l with log := [] } : Ledger) = { l' with log := [] }

namespace Ledger

theorem behind_log_self (l : Ledger) : ({ l with log := [] } : Ledger).behind l.log = l := by
  simp [behind]

theorem SameButLog.refl (l : Ledger) : l.SameButLog l := rfl

theorem SameButLog.trans {l l' l'' : Ledger} (h : l.SameButLog l') (h' : l'.SameButLog l'') : l.SameButLog l'' :=
  Eq.trans h h'

theorem SameButLog.symm {l l' : Ledger} (h : l.SameButLog l') : l'.SameButLog l := Eq.symm h

theorem sameButLog_logged (l : Ledger) (e : LogEvent) : l.SameButLog (l.logged e) := rfl

theorem SameButLog.sameBooks {l l' : Ledger} (h : l.SameButLog l') : l.SameBooks l' :=
  ⟨(congrArg supply h).symm, (congrArg minted h).symm, (congrArg built h).symm, (congrArg calls h).symm⟩

theorem SameButLog.eq_behind {l l' : Ledger} (h : l.SameButLog l') :
    l' = ({ l with log := [] } : Ledger).behind l'.log := by
  rw [show ({ l with log := [] } : Ledger) = { l' with log := [] } from h, behind_log_self]

end Ledger

def Ending.panic? : Ending → Option Panic
  | panicked x => some x
  | answered _ => none

theorem Ending.panic?_eq_some {e : Ending} {x : Panic} : e.panic? = some x ↔ e = .panicked x := by
  cases e <;> simp [panic?]

namespace Request

/-- What a caller is told when the backend has failed with an error. A greeting cannot fail. -/
def failed (e : ErrorChain) : Request → Except RemoteError Answer
  | construct _ _ sequencerType _ => .error (Provider.notConstructed sequencerType e)
  | sayHello _ => .ok .greeted
  | _ => .error (Work.backendFailure e)

/-- The registry once the request has been served, where its backend call does not succeed. -/
def leaves (r : Registry) : Request → Registry
  | destroy _ id => r.erase id
  | _ => r

end Request

/-- The same request where the backend is going to panic and where it is going to fail. -/
inductive Work.Twin (q : Request) (x : Panic) (e : ErrorChain) : Work → Work → Prop
  | ended : Twin q x e (.ended (.panicked x)) (.ended (.answered (q.failed e)))
  | summing (acts : List Act) (h : q.failed e = .error (backendFailure e)) :
      Twin q x e (.summing acts (.panicked x)) (.summing acts (.failed e))
  | destroying (id : SequencerId) (acts : List Act) (h : q.failed e = .error (backendFailure e)) :
      Twin q x e (.destroying id acts (.panicked x)) (.destroying id acts (.failed e))

inductive Dispatch.Twin (q : Request) (x : Panic) (e : ErrorChain) : Dispatch → Dispatch → Prop
  | replied : Twin q x e (.replied (panicReply q.op x)) (.replied (q.op.reply (q.failed e)))
  | running (providerId : UInt16) {w w' : Work} (h : w.Twin q x e w') :
      Twin q x e (.running providerId q.op w) (.running providerId q.op w')

section Twin

variable {q : Request} {x : Panic} {e : ErrorChain}

theorem Work.Twin.droppedEvents {w w' : Work} (h : w.Twin q x e w') (p : Provider) :
    p.droppedEvents q w = [] ∧ p.droppedEvents q w' = [] := by
  cases h <;> cases q <;> exact ⟨rfl, rfl⟩

/-- A panic leaves less in the log than an error, and that is all. -/
theorem Work.Twin.resume {w w' : Work} (h : w.Twin q x e w') (opened : Gates) (providerId : UInt16) (l : Ledger) :
    (w.resume opened providerId l).1.Twin q x e (w'.resume opened providerId l).1 ∧
      (w.resume opened providerId l).2.SameButLog (w'.resume opened providerId l).2 := by
  cases h with
  | ended => exact ⟨.ended, .refl l⟩
  | summing acts h =>
    simp only [Work.resume]
    obtain ⟨_ | ⟨a, left⟩, l'⟩ := runActs opened acts l
    · exact ⟨by simpa only [sumEnding, h] using Twin.ended (q := q) (e := e), .refl l'⟩
    · exact ⟨.summing _ h, .refl l'⟩
  | destroying id acts h =>
    simp only [Work.resume]
    obtain ⟨_ | ⟨a, left⟩, l'⟩ := runActs opened acts l
    · exact ⟨by simpa only [destroyEnding, h] using Twin.ended (q := q) (e := e), l'.sameButLog_logged _⟩
    · exact ⟨.destroying id _ h, .refl l'⟩

namespace Dispatch

theorem twin_ofWork {w w' : Work} (h : w.Twin q x e w') (providerId : UInt16) {l l' : Ledger}
    (hl : l.SameButLog l') : (ofWork providerId q.op w l).1.Twin q x e (ofWork providerId q.op w' l').1 ∧
      (ofWork providerId q.op w l).2.SameButLog (ofWork providerId q.op w' l').2 := by
  cases h with
  | ended => exact ⟨.replied, (l.sameButLog_logged _).symm.trans hl⟩
  | summing acts h => exact ⟨.running _ (.summing acts h), hl⟩
  | destroying id acts h => exact ⟨.running _ (.destroying id acts h), hl⟩

theorem Twin.resume {d d' : Dispatch} (h : d.Twin q x e d') (opened : Gates) (l : Ledger) :
    (d.resume opened l).1.Twin q x e (d'.resume opened l).1 ∧
      (d.resume opened l).2.SameButLog (d'.resume opened l).2 := by
  cases h with
  | replied => exact ⟨.replied, .refl l⟩
  | running providerId h =>
    obtain ⟨hw, hl⟩ := h.resume opened providerId l
    exact twin_ofWork hw providerId hl

end Dispatch
end Twin

namespace Provider

def occasion (p : Provider) (l : Ledger) (q : Request) : Occasion :=
  match (p.access? q l).bind (·.finds p.live.find?) with
  | some i => .call i.serial (l.history i.serial).length
  | none => .construction l.built.length

/-- What it means that a request panics with the one code, and fails with the other at the same place. -/
structure Fails (p : Provider) (q : Request) (l : Ledger) (x : Panic) (r : Rescue) (w' : Work) : Prop where
  serve : (p.rescued r).serve q l = ((p.serve q l).1.rescued r, w', (p.serve q l).2.2)
  twin : (p.work l q).Twin q x r.error w'
  provider : (p.serve q l).1 = { p with live := q.leaves p.live }
  made : r.occasion.IsPast (p.serve q l).2.2

variable {p : Provider} {l : Ledger} {x : Panic} {r : Rescue}

theorem occasion_not_past (p : Provider) (l : Ledger) (q : Request) : ¬ (p.occasion l q).IsPast l := by
  unfold occasion
  split <;> exact Nat.lt_irrefl _

theorem occasion_congr {l' : Ledger} (h : l.SameButLog l') (q : Request) : p.occasion l' q = p.occasion l q := by
  rw [h.eq_behind, ← l.behind_log_self]
  rfl

theorem construct_fails {how : Construction} {token sequencerType config : String}
    (hx : (p.work l (.construct how token sequencerType config)).ending = .panicked x)
    (hr : r.occasion = p.occasion l (.construct how token sequencerType config)) :
    ∃ w', p.Fails (.construct how token sequencerType config) l x r w' := by
  simp only [work, serve, construct] at hx
  split at hx
  · rename_i ht
    split at hx
    · cases hx
    · rename_i c hf
      split at hx
      · cases hx
      · rename_i j hj
        cases ho : (c.pick how l.built.length ⟨p.id, j⟩).outcome with
        | ok b =>
          simp only [build, ho] at hx
          cases hx
        | failed e' =>
          simp only [build, ho] at hx
          cases hx
        | panicked y =>
          simp only [build, ho] at hx
          obtain rfl : y = x := Ending.panicked.inj hx
          have hocc : r.occasion = .construction l.built.length := by
            simp [hr, occasion, access?, constructed?, hf, hj, Except.toOption, ho, Outcome.value?]
          have hs : p.serve (.construct how token sequencerType config) l =
              (p, .ended (.panicked y), (l.constructed ⟨how, sequencerType, ⟨p.id, j⟩⟩).recordedAll
                (c.pick how l.built.length ⟨p.id, j⟩).effects) := by
            simp [serve, construct, ht, hf, hj, build, ho]
          have hb : (l.constructed ⟨how, sequencerType, ⟨p.id, j⟩⟩).SameBooks _ :=
            Ledger.sameBooks_recordedAll _ (c.pick how l.built.length ⟨p.id, j⟩).effects
          refine ⟨.refused (notConstructed sequencerType r.error), ?_, ?_, ?_, ?_⟩
          · rw [hs]
            simp [serve, construct, ht, hf, hj, build, ho, Factory.find?_rescued, Constructors.pick_rescued,
              Constructor.rescued, hocc, Outcome.rescued, Outcome.map]
          · rw [work, hs]
            exact .ended
          · rw [hs]
            rfl
          · rw [hs, hocc, Occasion.IsPast, hb.built]
            simp [Ledger.constructed]
  · cases hx

theorem sayHello_fails {id : SequencerId} (hx : (p.work l (.sayHello id)).ending = .panicked x)
    (hr : r.occasion = p.occasion l (.sayHello id)) : ∃ w', p.Fails (.sayHello id) l x r w' := by
  cases hf : p.live.find? id with
  | none =>
    simp only [work, serve, sayHello, hf] at hx
    cases hx
  | some i =>
    cases hq : (i.backend.sayHello (l.history i.serial)).panic with
    | none =>
      simp only [work, serve, sayHello, hf, hq] at hx
      cases hx
    | some y =>
      simp only [work, serve, sayHello, hf, hq] at hx
      obtain rfl : y = x := Ending.panicked.inj hx
      have hocc : r.occasion = .call i.serial (l.history i.serial).length := by
        simp [hr, occasion, access?, Access.finds, Access.target?, hf]
      refine ⟨.answered .greeted, ?_, ?_, rfl, ?_⟩
      · simp [serve, sayHello, hf, hq, Registry.find?_rescued, Instance.sayHello_rescued_call hocc]
      · simp only [work, serve, sayHello, hf, hq]
        exact .ended
      · simp only [serve, sayHello, hf, hq, hocc]
        exact (Occasion.isPast_called l i.serial .hello).mono (Ledger.sameBooks_recordedAll _ _).grows

theorem computeSum_fails {id : SequencerId} {a b : Int32}
    (hx : (p.work l (.computeSum id a b)).ending = .panicked x)
    (hr : r.occasion = p.occasion l (.computeSum id a b)) : ∃ w', p.Fails (.computeSum id a b) l x r w' := by
  cases hf : p.live.find? id with
  | none =>
    simp only [work, serve, computeSum, hf] at hx
    cases hx
  | some i =>
    have ho : (i.backend.computeSum (l.history i.serial) a b).outcome = .panicked x := by
      simp only [work, serve, computeSum, hf, Work.ending] at hx
      cases ho : (i.backend.computeSum (l.history i.serial) a b).outcome <;> simp_all [Work.sumEnding]
    have hocc : r.occasion = .call i.serial (l.history i.serial).length := by
      simp [hr, occasion, access?, Access.finds, Access.target?, hf]
    refine ⟨.summing (i.backend.computeSum (l.history i.serial) a b).acts (.failed r.error), ?_, ?_, rfl, ?_⟩
    · simp [serve, computeSum, hf, ho, Registry.find?_rescued, Instance.computeSum_rescued_call hocc, Script.rescued,
        Outcome.rescued]
    · simp only [work, serve, computeSum, hf, ho]
      exact .summing _ rfl
    · simp only [serve, computeSum, hf, hocc]
      exact Occasion.isPast_called l i.serial _

theorem destroy_fails {token : String} {id : SequencerId}
    (hx : (p.work l (.destroy token id)).ending = .panicked x)
    (hr : r.occasion = p.occasion l (.destroy token id)) : ∃ w', p.Fails (.destroy token id) l x r w' := by
  by_cases ht : p.admits token = true
  · cases hf : p.live.find? id with
    | none =>
      simp only [work, serve, destroy, ht, if_true, hf] at hx
      cases hx
    | some i =>
      have ho : (i.backend.destroy (l.history i.serial)).outcome = .panicked x := by
        simp only [work, serve, destroy, ht, if_true, hf, Work.ending] at hx
        cases ho : (i.backend.destroy (l.history i.serial)).outcome <;> simp_all [Work.destroyEnding]
      have hocc : r.occasion = .call i.serial (l.history i.serial).length := by
        simp [hr, occasion, access?, ht, Access.finds, Access.target?, hf]
      refine ⟨.destroying id (i.backend.destroy (l.history i.serial)).acts (.failed r.error), ?_, ?_, ?_, ?_⟩
      · simp only [serve, destroy, admits_rescued, ht, if_true, live_rescued, Registry.find?_rescued, hf,
          Option.map_some, Instance.serial_rescued, Instance.destroy_rescued_call hocc, Registry.erase_rescued,
          Script.rescued, ho, Outcome.rescued]
        rfl
      · simp only [work, serve, destroy, ht, if_true, hf, ho]
        exact .destroying _ _ rfl
      · simp [serve, destroy, ht, hf, Request.leaves]
      · simp only [serve, destroy, ht, if_true, hf, hocc]
        exact Occasion.isPast_called l i.serial _
  · simp only [work, serve, destroy, ht] at hx
    cases hx

theorem serve_fails {q : Request} (hx : (p.work l q).ending = .panicked x) (hr : r.occasion = p.occasion l q) :
    ∃ w', p.Fails q l x r w' := by
  cases q with
  | construct how token sequencerType config => exact construct_fails hx hr
  | sayHello id => exact sayHello_fails hx hr
  | computeSum id a b => exact computeSum_fails hx hr
  | destroy token id => exact destroy_fails hx hr
  | close token id =>
    have hw : (p.work l (.close token id)).ending ≠ .panicked x := by
      intro h
      simp only [work, serve, close] at h
      split at h
      · split at h <;> cases h
      · cases h
    exact absurd hx hw
  | check id =>
    have hw : (p.work l (.check id)).ending ≠ .panicked x := by
      intro h
      simp only [work, serve, check] at h
      split at h <;> cases h
    exact absurd hx hw

theorem handle_fails {q : Request} (hx : (p.work l q).ending = .panicked x) (hr : r.occasion = p.occasion l q) :
    (∃ w', (p.rescued r).handle q l = ((p.handle q l).1.rescued r, w', (p.handle q l).2.2) ∧
        (p.handle q l).2.1.Twin q x r.error w') ∧
      (p.handle q l).1 = { p with live := q.leaves p.live } ∧ r.occasion.IsPast (p.handle q l).2.2 := by
  have hw : p.work (l.logged (.handling p.id q.op)) q = p.work l q := p.handle_work l q
  have hx' : (p.work (l.logged (.handling p.id q.op)) q).ending = .panicked x := hw.symm ▸ hx
  have hr' : r.occasion = p.occasion (l.logged (.handling p.id q.op)) q :=
    hr.trans (occasion_congr (l.sameButLog_logged _) q).symm
  obtain ⟨w', hs, ht, hp, hm⟩ := serve_fails hx' hr'
  refine ⟨⟨w', ?_, ht⟩, hp, hm.mono (Ledger.sameBooks_loggedAll _ _).grows⟩
  have hd : ∀ w, (p.rescued r).droppedEvents q w = p.droppedEvents q w := fun _ => rfl
  have hn : p.droppedEvents q (p.serve q (l.logged (.handling p.id q.op))).2.1 = [] := (ht.droppedEvents p).1
  simp only [handle, id_rescued, hs, hd, (ht.droppedEvents p).2, hn]

end Provider

/-- The dispatch of a request that will end as the given work does, and whose backend has no more to do. -/
inductive Dispatch.Bears (op : Operation) (w : Work) : Dispatch → Prop
  | running (providerId : UInt16) {w' : Work} (he : w'.ending = w.ending) (ha : w'.acts <:+ w.acts) :
      Bears op w (.running providerId op w')
  | replied : Bears op w (.replied (w.ending.reply op))

namespace Dispatch

variable {op : Operation} {w w' : Work} {d : Dispatch} {opened : Gates} {l : Ledger}

theorem bears_resume (he : w'.ending = w.ending) (ha : w'.acts <:+ w.acts) (providerId : UInt16) (l' : Ledger) :
    (ofWork providerId op (w'.resume opened providerId l).1 l').1.Bears op w := by
  obtain ⟨-, hr⟩ | ⟨-, hr, hs, hne⟩ := w'.resume_cases opened providerId l
  · have hd : (ofWork providerId op (.ended w'.ending) l').1 = .replied (w.ending.reply op) := by
      rw [he]
      cases w.ending <;> rfl
    rw [hr, hd]
    exact .replied
  · rw [ofWork_running providerId op _ l' hne]
    exact .running providerId (hr.trans he) (hs.trans ha)

theorem Bears.resume (h : d.Bears op w) (opened : Gates) (l : Ledger) : (d.resume opened l).1.Bears op w := by
  cases h with
  | replied => exact .replied
  | running providerId he ha => exact bears_resume he ha providerId _

/-- The reply is there as soon as the backend waits for no gate. -/
theorem ofWork_resume_reply (he : w'.ending = w.ending) (ha : w'.acts <:+ w.acts) (hw : ¬ w.Waits opened)
    (providerId : UInt16) (l' : Ledger) :
    (ofWork providerId op (w'.resume opened providerId l).1 l').1 = .replied (w.ending.reply op) := by
  obtain ⟨-, hr⟩ | ⟨hw', -⟩ := w'.resume_cases opened providerId l
  · rw [hr, he]
    cases w.ending <;> rfl
  · exact absurd hw' (Work.not_waits_of_suffix opened ha hw)

theorem Bears.resume_reply (h : d.Bears op w) (hw : ¬ w.Waits opened) (l : Ledger) :
    (d.resume opened l).1 = .replied (w.ending.reply op) := by
  cases h with
  | replied => rfl
  | running providerId he ha => exact ofWork_resume_reply he ha hw providerId _

end Dispatch

/-- The providers with their settings, each with its live sequencers. -/
def Host.table (h : Host) : List (ProviderOptions × List (SequencerId × Nat)) :=
  h.providers.map fun p => (p.options, p.live.map fun x => (x.1, x.2.serial))

theorem Host.table_rescued (r : Rescue) (h : Host) : (h.rescued r).table = h.table := by
  simp [table, rescued, each, Provider.rescued, Registry.rescued, Function.comp_def]

namespace Hosting

def Bears (s : Hosting) (n : Nat) (op : Operation) (w : Work) : Prop :=
  ∃ d, s.requests[n]? = some (some d) ∧ d.Bears op w

theorem getElem?_step {s : Hosting} {n : Nat} (hn : n < s.requests.length) (m : Move) :
    (∃ opened d, m = .resume n opened ∧ s.requests[n]? = some (some d) ∧
        (s.step m).requests[n]? = some (some (d.resume opened s.ledger).1)) ∨
      (s.step m).requests[n]? = s.requests[n]? := by
  cases m with
  | provide o f =>
    simp only [step]
    split <;> exact .inr rfl
  | request id q opened =>
    simp only [step]
    split <;> exact .inr (List.getElem?_append_left hn)
  | resume k opened =>
    simp only [step]
    split
    · rename_i d hd
      by_cases hk : k = n
      · subst hk
        exact .inl ⟨opened, d, rfl, hd, by simp [hn]⟩
      · exact .inr (List.getElem?_set_ne hk)
    · exact .inr rfl
  | tearDownOne id opened =>
    simp only [step]
    split <;> exact .inr rfl
  | resumeTeardown k opened =>
    simp only [step]
    split <;> exact .inr rfl
  | _ => exact .inr rfl

variable {s : Hosting} {n : Nat} {op : Operation} {w : Work}

theorem Bears.step (h : s.Bears n op w) (m : Move) : (s.step m).Bears n op w := by
  obtain ⟨d, hd, hb⟩ := h
  have hn := (List.getElem?_eq_some_iff.mp hd).1
  obtain ⟨opened, d', -, hd', hs⟩ | hs := getElem?_step hn m
  · obtain rfl : d' = d := by simpa [hd] using hd'.symm
    exact ⟨_, hs, hb.resume opened s.ledger⟩
  · exact ⟨d, hs.trans hd, hb⟩

theorem Bears.run (h : s.Bears n op w) (ms : List Move) : (s.run ms).Bears n op w := by
  induction ms generalizing s with
  | nil => exact h
  | cons m ms ih => exact ih (h.step m)

theorem Bears.reply (h : s.Bears n op w) {opened : Gates} (hw : ¬ w.Waits opened) :
    (s.step (.resume n opened)).requests[n]? = some (some (.replied (w.ending.reply op))) := by
  obtain ⟨d, hd, hb⟩ := h
  have hn := (List.getElem?_eq_some_iff.mp hd).1
  simp only [Hosting.step, hd, List.getElem?_set_self hn, hb.resume_reply hw]

theorem getElem?_request {id : UInt16} {p : Provider} (hp : s.host.find? id = some p) (q : Request) (opened : Gates) :
    ∃ l l', (s.step (.request id q opened)).requests[s.requests.length]? =
      some (some (Dispatch.ofWork id q.op ((p.work s.ledger q).resume opened id l).1 l').1) := by
  refine ⟨(p.handle q s.ledger).2.2, ((p.handle q s.ledger).2.1.resume opened id (p.handle q s.ledger).2.2).2, ?_⟩
  rw [← p.handle_work s.ledger q]
  simp only [Hosting.step, s.host.dispatch_of_find? hp, List.getElem?_concat_length]

theorem bears_request {id : UInt16} {p : Provider} (hp : s.host.find? id = some p) (q : Request) (opened : Gates) :
    (s.step (.request id q opened)).Bears s.requests.length q.op (p.work s.ledger q) := by
  obtain ⟨l, l', hd⟩ := getElem?_request hp q opened
  exact ⟨_, hd, Dispatch.bears_resume rfl (List.suffix_refl _) id l'⟩

theorem reply_request {id : UInt16} {p : Provider} (hp : s.host.find? id = some p) {q : Request} {opened : Gates}
    (hw : ¬ (p.work s.ledger q).Waits opened) :
    (s.step (.request id q opened)).requests[s.requests.length]? =
      some (some (.replied ((p.work s.ledger q).ending.reply q.op))) := by
  obtain ⟨l, l', hd⟩ := getElem?_request hp q opened
  rw [hd, Dispatch.ofWork_resume_reply rfl (List.suffix_refl _) hw id l']

/-- Two runs that are the same, but for the one request that panicked in the one and failed in the other. -/
structure SameButFor (r : Rescue) (n : Nat) (q : Request) (x : Panic) (s t : Hosting) : Prop where
  host : t.host = s.host.rescued r
  ledger : s.ledger.SameButLog t.ledger
  teardowns : t.teardowns = s.teardowns.map (Teardown.rescued r)
  requests : ∃ d d', s.requests[n]? = some (some d) ∧ t.requests = s.requests.set n (some d') ∧
    d.Twin q x r.error d'

def swap (s : Hosting) (n : Nat) (d : Dispatch) : Hosting := { s with requests := s.requests.set n (some d) }

/-- A move that is not about a request does the same whatever has become of that request. -/
theorem step_swap {s : Hosting} {n : Nat} (hn : n < s.requests.length) (d : Dispatch) {m : Move}
    (hm : ∀ opened, m ≠ .resume n opened) : (s.swap n d).step m = (s.step m).swap n d := by
  cases m with
  | provide o f =>
    simp only [step, swap]
    split <;> rfl
  | request id q opened =>
    simp only [step, swap]
    split <;> simp [List.set_append_left _ _ hn]
  | resume k opened =>
    have hk : k ≠ n := fun hk => hm opened (by rw [hk])
    simp only [step, swap, List.getElem?_set_ne hk.symm]
    split
    · simp only [List.set_comm _ _ hk]
    · rfl
  | tearDownOne id opened =>
    simp only [step, swap]
    split <;> rfl
  | resumeTeardown k opened =>
    simp only [step, swap]
    split <;> rfl
  | _ => rfl

namespace SameButFor

variable {r : Rescue} {n : Nat} {q : Request} {x : Panic} {s t : Hosting}

theorem step (h : SameButFor r n q x s t) (hr : r.occasion.IsPast s.ledger) (m : Move) :
    SameButFor r n q x (s.step m) (t.step (m.rescued r)) := by
  obtain ⟨d, d', hd, hd', ht⟩ := h.requests
  have hn := (List.getElem?_eq_some_iff.mp hd).1
  let u : Hosting := { s with ledger := { s.ledger with log := [] } }
  have hs : s = u.behind s.ledger.log := by simp [u, behind, Ledger.behind]
  have hu : r.occasion.Outside u.ledger (u.step m).ledger := .inl hr
  have hts : t = ((u.rescued r).swap n d').behind t.ledger.log := by
    obtain ⟨host, ledger, requests, teardowns⟩ := t
    obtain rfl := hd'
    obtain rfl := h.host
    obtain rfl := h.teardowns
    simp only [behind, swap, rescued, u]
    congr 1
    exact h.ledger.eq_behind
  by_cases hm : ∃ opened, m = .resume n opened
  · obtain ⟨opened, rfl⟩ := hm
    obtain ⟨hdt, hl⟩ := ht.resume opened u.ledger
    have hd'' : t.requests[n]? = some (some d') := by rw [hd', List.getElem?_set_self hn]
    have hsl : s.ledger = u.ledger.behind s.ledger.log := congrArg Hosting.ledger hs
    have htl : t.ledger = u.ledger.behind t.ledger.log := congrArg Hosting.ledger hts
    simp only [Hosting.step, Move.rescued, hd, hd'']
    rw [hsl, htl]
    simp only [Dispatch.resume_behind]
    exact {
      host := h.host
      ledger := hl
      teardowns := h.teardowns
      requests := ⟨_, _, List.getElem?_set_self hn, by simp [hd'], hdt⟩ }
  · have hm' : ∀ opened, m ≠ .resume n opened := fun opened he => hm ⟨opened, he⟩
    have hmr : ∀ opened, m.rescued r ≠ .resume n opened := by
      intro opened he
      cases m <;> cases he
      exact hm' opened rfl
    have hs' : s.step m = (u.step m).behind s.ledger.log := by
      rw [← step_behind, ← hs]
    have hnu : n < (u.rescued r).requests.length := hn
    have ht' : t.step (m.rescued r) = (((u.step m).rescued r).swap n d').behind t.ledger.log := by
      rw [← step_rescued hu, ← step_swap hnu d' hmr, ← step_behind, ← hts]
    rw [hs', ht']
    refine ⟨rfl, rfl, rfl, d, d', ?_, rfl, ht⟩
    obtain ⟨opened, -, he, -⟩ | hsame := getElem?_step (s := u) hn m
    · exact absurd he (hm' opened)
    · exact hsame.trans hd

theorem run (h : SameButFor r n q x s t) (hr : r.occasion.IsPast s.ledger) (ms : List Move) :
    SameButFor r n q x (s.run ms) (t.run (ms.map (Move.rescued r))) := by
  induction ms generalizing s t with
  | nil => exact h
  | cons m ms ih => exact ih (h.step hr m) (hr.mono (s.step_grows m))

end SameButFor

/-- What becomes of a request whose backend panics, and of the registry, where other moves follow. -/
structure Caught (s : Hosting) (id : UInt16) (q : Request) (opened : Gates) (p : Provider) (x : Panic)
    (after : List Move) : Prop where
  /-- Nothing is registered, and only a destruction unregisters a sequencer. -/
  registry : ∀ id', (s.step (.request id q opened)).host.find? id' =
    if id' = id then some { p with live := q.leaves p.live } else s.host.find? id'
  /-- The request is dispatched, and never ends in anything but this reply. -/
  dispatched : ∃ d, ((s.step (.request id q opened)).run after).requests[s.requests.length]? = some (some d) ∧
    ∀ reply, d = .replied reply → reply = Dispatch.panicReply q.op x
  /-- The reply is there at once if the backend waits for no gate. -/
  atOnce : ¬ (p.work s.ledger q).Waits opened →
    (s.step (.request id q opened)).requests[s.requests.length]? =
      some (some (.replied (Dispatch.panicReply q.op x)))
  /-- The reply is there, whatever has happened, when the backend has got through the gates; the registries are left
  alone. -/
  reply : ∀ gates, ¬ (p.work s.ledger q).Waits gates →
    (((s.step (.request id q opened)).run after).step (.resume s.requests.length gates)).requests[s.requests.length]? =
        some (some (.replied (Dispatch.panicReply q.op x))) ∧
      (((s.step (.request id q opened)).run after).step (.resume s.requests.length gates)).host =
        ((s.step (.request id q opened)).run after).host
  form : Dispatch.panicReply q.op x = .object [("error", .string s!"{q.op.name} panicked: {x.message}"),
    ("kind", .string "backend_operation"), ("status", .string "failure")]

variable {s : Hosting} {id : UInt16} {q : Request} {p : Provider} {x : Panic}

theorem caught (hp : s.host.find? id = some p) (hx : (p.work s.ledger q).ending = .panicked x) (opened : Gates)
    (after : List Move) : Caught s id q opened p x after where
  registry := by
    intro id'
    obtain ⟨-, hw, -⟩ := p.handle_fails hx (r := ⟨p.occasion s.ledger q, ⟨"", []⟩⟩) rfl
    have hid : p.id = id := by simpa using List.find?_some hp
    have hh : (s.step (.request id q opened)).host = s.host.put { p with live := q.leaves p.live } := by
      simp only [step, s.host.dispatch_of_find? hp, hw]
    have hpid : Provider.id { p with live := q.leaves p.live } = id := hid
    rw [hh, Host.find?, Host.put, Host.find?_insert, hpid]
    simp only [eq_comm, Host.find?]
  dispatched := by
    obtain ⟨d, hd, hb⟩ := (bears_request hp q opened).run after
    refine ⟨d, hd, fun reply he => ?_⟩
    subst he
    cases hb with
    | replied => rw [hx, Ending.reply]
  atOnce := fun hw => by rw [reply_request hp hw, hx, Ending.reply]
  reply := fun gates hw => by
    refine ⟨?_, host_resume ..⟩
    rw [((bears_request hp q opened).run after).reply hw, hx, Ending.reply]
  form := rfl

theorem sameButFor_request {r : Rescue} (hp : s.host.find? id = some p)
    (hx : (p.work s.ledger q).ending = .panicked x) (hr : r.occasion = p.occasion s.ledger q) (opened : Gates) :
    SameButFor r s.requests.length q x (s.step (.request id q opened))
      ((s.rescued r).step (.request id q opened)) := by
  obtain ⟨⟨w', hh, ht⟩, -, -⟩ := p.handle_fails hx hr
  have hp' : (s.rescued r).host.find? id = some (p.rescued r) := by
    rw [rescued, s.host.find?_rescued, hp, Option.map_some]
  obtain ⟨hw, hl⟩ := ht.resume opened id (p.handle q s.ledger).2.2
  obtain ⟨hd, hl'⟩ := Dispatch.twin_ofWork hw id hl
  have hl₀ : (s.rescued r).ledger = s.ledger := rfl
  simp only [step, Host.dispatch_of_find? _ hp, Host.dispatch_of_find? _ hp', hl₀, hh]
  exact {
    host := s.host.put_rescued r _
    ledger := hl'
    teardowns := rfl
    requests := ⟨_, _, List.getElem?_concat_length, by simp [rescued], hd⟩ }

theorem isPast_request {r : Rescue} (hp : s.host.find? id = some p)
    (hx : (p.work s.ledger q).ending = .panicked x) (hr : r.occasion = p.occasion s.ledger q) (opened : Gates) :
    r.occasion.IsPast (s.step (.request id q opened)).ledger := by
  obtain ⟨-, -, hm⟩ := p.handle_fails hx hr
  simp only [step, s.host.dispatch_of_find? hp]
  exact hm.mono (Host.sameBooks_dispatch p id opened q s.ledger).grows

/-- Two runs of the same moves, of which the second has an error in place of the panic of one call. -/
structure NoWorse (s : Hosting) (before : List Move) (id : UInt16) (q : Request) (opened : Gates) (p : Provider)
    (x : Panic) (r : Rescue) (after : List Move) : Prop where
  /-- Up to the request, the two runs are one. -/
  alike : (s.rescued r).run (before.map (Move.rescued r)) = (s.run before).rescued r
  apart : SameButFor r (s.run before).requests.length q x (s.run (before ++ .request id q opened :: after))
    ((s.rescued r).run ((before ++ .request id q opened :: after).map (Move.rescued r)))
  /-- The registrations are the same. -/
  table : ((s.rescued r).run ((before ++ .request id q opened :: after).map (Move.rescued r))).host.table =
    (s.run (before ++ .request id q opened :: after)).host.table
  /-- The calls of backends are the same. -/
  books : (s.run (before ++ .request id q opened :: after)).ledger.SameBooks
    ((s.rescued r).run ((before ++ .request id q opened :: after).map (Move.rescued r))).ledger
  /-- All other requests fare the same. -/
  others : ∀ k ≠ (s.run before).requests.length,
    ((s.rescued r).run ((before ++ .request id q opened :: after).map (Move.rescued r))).requests[k]? =
      (s.run (before ++ .request id q opened :: after)).requests[k]?
  caught : Caught (s.run before) id q opened p x after

/-- A panic of a backend is caught, and is no worse than an error. -/
theorem panic_noWorse (s : Hosting) (before : List Move) (hp : (s.run before).host.find? id = some p)
    (hx : (p.work (s.run before).ledger q).ending = .panicked x) (opened : Gates) (e : ErrorChain)
    (after : List Move) :
    NoWorse s before id q opened p x ⟨p.occasion (s.run before).ledger q, e⟩ after := by
  let r : Rescue := ⟨p.occasion (s.run before).ledger q, e⟩
  have hbefore : (s.rescued r).run (before.map (Move.rescued r)) = (s.run before).rescued r :=
    run_rescued (.inr (p.occasion_not_past _ q))
  have hrun : s.run (before ++ .request id q opened :: after) =
      ((s.run before).step (.request id q opened)).run after := by
    simp [run, List.foldl_append]
  have hother : (s.rescued r).run ((before ++ .request id q opened :: after).map (Move.rescued r)) =
      (((s.run before).rescued r).step (.request id q opened)).run (after.map (Move.rescued r)) := by
    rw [← hbefore]
    simp [run, List.foldl_append, Move.rescued]
  have hafter := (sameButFor_request hp hx (r := r) rfl opened).run (isPast_request hp hx rfl opened) after
  obtain ⟨d, d', -, hd', -⟩ := hafter.requests
  exact {
    alike := hbefore
    apart := by rw [hrun, hother]; exact hafter
    table := by rw [hrun, hother, hafter.host, Host.table_rescued]
    books := by rw [hrun, hother]; exact hafter.ledger.sameBooks
    others := fun k hk => by rw [hrun, hother, hd', List.getElem?_set_ne hk.symm]
    caught := caught hp hx opened after }

def brittle : List Move :=
  [.provide {} (Factory.register {} "scripted" (Scripted.constructors "scripted")),
    .request 0 (.construct .create "" "scripted" "\x7b\"sum\":\x7b\"gate\":\"g\",\"panic\":\"boom\"\x7d\x7d") []]

theorem panic_noWorse_brittle : ∃ p, (trials.run brittle).host.find? 0 = some p ∧
    (p.work (trials.run brittle).ledger (.computeSum (SequencerId.ofNat 0) 1 2)).ending = .panicked (.text "boom") ∧
      NoWorse trials brittle 0 (.computeSum (SequencerId.ofNat 0) 1 2) [] p (.text "boom")
        ⟨p.occasion (trials.run brittle).ledger (.computeSum (SequencerId.ofNat 0) 1 2), ⟨"out of order", []⟩⟩
        [.request 0 (.check (SequencerId.ofNat 0)) [], .resume 1 ["g"]] := by
  have hp : (trials.run brittle).host.find? 0 = some (((trials.run brittle).host.find? 0).get (by decide +kernel)) :=
    (Option.some_get _).symm
  have hx : ((((trials.run brittle).host.find? 0).get (by decide +kernel)).work (trials.run brittle).ledger
      (.computeSum (SequencerId.ofNat 0) 1 2)).ending = .panicked (.text "boom") :=
    Ending.panic?_eq_some.mp (by decide +kernel)
  exact ⟨_, hp, hx, panic_noWorse trials brittle hp hx [] ⟨"out of order", []⟩ _⟩

end Hosting
end SequencerHub

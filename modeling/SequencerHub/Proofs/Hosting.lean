import SequencerHub.Backend.Scripted
import SequencerHub.Proofs.LogFrame

/-! A host at work: its providers come and go, requests are dispatched to them, and providers and the whole host are
torn down. What has begun goes on alone up to where a backend call waits, and then anything may be next. -/
namespace SequencerHub
namespace Dispatch

theorem sameBooks_ofWork (providerId : UInt16) (op : Operation) (w : Work) (l : Ledger) :
    l.SameBooks (ofWork providerId op w l).2 := by
  cases w with
  | ended e =>
    cases e with
    | answered r => exact .refl l
    | panicked q => exact l.sameBooks_logged _
  | summing acts outcome => exact .refl l
  | destroying id acts outcome => exact .refl l

theorem sameBooks_resume (opened : Gates) (d : Dispatch) (l : Ledger) : l.SameBooks (d.resume opened l).2 := by
  cases d with
  | replied r => exact .refl l
  | running providerId op w => exact (w.sameBooks_resume opened providerId l).trans (sameBooks_ofWork ..)

end Dispatch

namespace Host

variable (h : Host)

theorem dispatch_of_find? {id : UInt16} {p : Provider} (hp : h.find? id = some p) (opened : Gates) (r : Request)
    (l : Ledger) : h.dispatch opened id r l = some (h.put (p.handle r l).1,
      Dispatch.ofWork id r.op ((p.handle r l).2.1.resume opened id (p.handle r l).2.2).1
        ((p.handle r l).2.1.resume opened id (p.handle r l).2.2).2) := by
  simp only [dispatch, hp]

theorem sameBooks_dispatch (p : Provider) (id : UInt16) (opened : Gates) (r : Request) (l : Ledger) :
    (p.handle r l).2.2.SameBooks (Dispatch.ofWork id r.op ((p.handle r l).2.1.resume opened id (p.handle r l).2.2).1
      ((p.handle r l).2.1.resume opened id (p.handle r l).2.2).2).2 :=
  ((p.handle r l).2.1.sameBooks_resume opened id _).trans (Dispatch.sameBooks_ofWork ..)

theorem sameBooks_deregister (id : UInt16) (l : Ledger) : l.SameBooks (h.deregister id l).2.2 := by
  simp only [deregister]
  split
  · exact .refl l
  · exact l.sameBooks_logged _

theorem sameBooks_requestShutdown (l : Ledger) : l.SameBooks (h.requestShutdown l).2 := by
  simp only [requestShutdown]
  split
  · exact .refl l
  · exact l.sameBooks_logged _

section Each

variable (f : Provider → Provider) (hf : ∀ p, (f p).id = p.id)

def each (f : Provider → Provider) (h : Host) : Host := { h with providers := h.providers.map f }

include hf

theorem find?_each (id : UInt16) : (h.each f).find? id = (h.find? id).map f := by
  have hc : (fun p : Provider => decide (p.id = id)) ∘ f = fun p => decide (p.id = id) := by
    funext p
    simp [hf]
  simp only [find?, each, List.find?_map, hc]

theorem insert_each (p : Provider) (ps : List Provider) : insert (f p) (ps.map f) = (insert p ps).map f := by
  induction ps with
  | nil => rfl
  | cons q ps ih =>
    simp only [List.map_cons, insert, hf, ih]
    split_ifs <;> rfl

theorem put_each (p : Provider) : (h.each f).put (f p) = (h.put p).each f := by
  simp [put, each, insert_each f hf]

theorem register_each (p : Provider) (l : Ledger) :
    (h.each f).register (f p) l = (h.register p l).map fun x => (x.1.each f, x.2) := by
  simp only [register, hf, h.find?_each f hf]
  cases h.find? p.id with
  | none =>
    simp only [Option.map_none, Except.map, h.put_each f hf]
    rfl
  | some q => rfl

theorem deregister_each (id : UInt16) (l : Ledger) : (h.each f).deregister id l =
    ((h.deregister id l).1.map f, (h.deregister id l).2.1.each f, (h.deregister id l).2.2) := by
  have hc : (fun p : Provider => decide (p.id ≠ id)) ∘ f = fun p => decide (p.id ≠ id) := by
    funext p
    simp [hf]
  simp only [deregister, h.find?_each f hf]
  cases h.find? id with
  | none => rfl
  | some p =>
    simp only [each, List.filter_map, Option.map_some, hc]

end Each
end Host

/-- A host and all that has begun at it, in the order in which it began. -/
structure Hosting where
  host : Host
  ledger : Ledger
  /-- Nothing stands for a request that named no provider. -/
  requests : List (Option Dispatch) := []
  teardowns : List Teardown := []

namespace Hosting

def trials : Hosting where
  host := { address := "local://trials" }
  ledger := { supply := SequencerId.ofNat }

inductive Move
  /-- A provider is made and registered, unless its id is taken. -/
  | provide (o : ProviderOptions) (f : Factory)
  | deregister (id : UInt16)
  | request (id : UInt16) (r : Request) (opened : Gates)
  | resume (n : Nat) (opened : Gates)
  /-- One provider is torn down and stays registered. -/
  | tearDownOne (id : UInt16) (opened : Gates)
  | tearDown (opened : Gates)
  | resumeTeardown (n : Nat) (opened : Gates)
  | requestShutdown

def step (s : Hosting) : Move → Hosting
  | .provide o f =>
    let l := s.ledger.logged (.providerCreated o)
    match s.host.register { options := o, factory := f } l with
    | .error _ => { s with ledger := l }
    | .ok (host, l) => { s with host, ledger := l }
  | .deregister id =>
    let gone := s.host.deregister id s.ledger
    { s with host := gone.2.1, ledger := gone.2.2 }
  | .request id r opened =>
    match s.host.dispatch opened id r s.ledger with
    | none => { s with requests := s.requests ++ [none] }
    | some (host, d, l) => { s with host, ledger := l, requests := s.requests ++ [some d] }
  | .resume n opened =>
    match s.requests[n]? with
    | some (some d) =>
      let resumed := d.resume opened s.ledger
      { s with ledger := resumed.2, requests := s.requests.set n (some resumed.1) }
    | _ => s
  | .tearDownOne id opened =>
    match s.host.find? id with
    | none => s
    | some p =>
      let begun := p.tearDown opened s.ledger
      { s with host := s.host.put begun.1, ledger := begun.2.2, teardowns := s.teardowns ++ [begun.2.1] }
  | .tearDown opened =>
    let begun := s.host.tearDown opened s.ledger
    { s with host := begun.1, ledger := begun.2.2, teardowns := s.teardowns ++ [begun.2.1] }
  | .resumeTeardown n opened =>
    match s.teardowns[n]? with
    | none => s
    | some t =>
      let resumed := t.resume opened s.ledger
      { s with ledger := resumed.2, teardowns := s.teardowns.set n resumed.1 }
  | .requestShutdown =>
    let asked := s.host.requestShutdown s.ledger
    { s with host := asked.1, ledger := asked.2 }

def run (s : Hosting) (ms : List Move) : Hosting := ms.foldl step s

theorem run_concat (s : Hosting) (ms : List Move) (m : Move) : s.run (ms ++ [m]) = (s.run ms).step m := by
  simp [run]

theorem host_resume (s : Hosting) (n : Nat) (opened : Gates) : (s.step (.resume n opened)).host = s.host := by
  simp only [step]
  split <;> rfl

theorem sameBooks_resume (s : Hosting) (n : Nat) (opened : Gates) :
    s.ledger.SameBooks (s.step (.resume n opened)).ledger := by
  simp only [step]
  split
  · rename_i d hd
    exact d.sameBooks_resume opened s.ledger
  · exact .refl _

def behind (s : Hosting) (earlier : List LogEvent) : Hosting := { s with ledger := s.ledger.behind earlier }

theorem step_behind (s : Hosting) (earlier : List LogEvent) (m : Move) :
    (s.behind earlier).step m = (s.step m).behind earlier := by
  cases m with
  | provide o f =>
    simp only [step, behind, Ledger.logged_behind, Host.register_behind]
    cases s.host.register { options := o, factory := f } (s.ledger.logged (.providerCreated o)) <;> rfl
  | deregister id => simp [step, behind]
  | request id r opened =>
    simp only [step, behind, Host.dispatch_behind]
    cases s.host.dispatch opened id r s.ledger <;> rfl
  | resume n opened =>
    simp only [step, behind]
    split <;> simp
  | tearDownOne id opened =>
    simp only [step, behind]
    split <;> simp
  | tearDown opened => simp [step, behind]
  | resumeTeardown n opened =>
    simp only [step, behind]
    split <;> simp
  | requestShutdown => simp [step, behind]

end Hosting
end SequencerHub

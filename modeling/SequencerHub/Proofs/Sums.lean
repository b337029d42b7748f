import SequencerHub.Proofs.Configurations
import SequencerHub.Proofs.Errands
import SequencerHub.Proofs.Origins
import SequencerHub.Server.Assembly

/-! Additions by dummy sequencers. Whatever path the operands and the sum take, the caller is told the sum of the
integers or that it does not fit, and no registry changes. -/
namespace SequencerHub

/-- What it means that a call gives the sum of two numbers, which is neither wrapped nor saturated. -/
structure ExactSum (x y : Int32) (r : Except CallError Int32) : Prop where
  fits : -2 ^ 31 ≤ x.toInt + y.toInt → x.toInt + y.toInt < 2 ^ 31 →
    r = .ok (x + y) ∧ (x + y).toInt = x.toInt + y.toInt
  overflows : ¬ (-2 ^ 31 ≤ x.toInt + y.toInt ∧ x.toInt + y.toInt < 2 ^ 31) → r = .error (.remote
    ⟨.backendOperation, s!"sum of {x.toInt} and {y.toInt} overflows a 32-bit integer"⟩)

namespace Dummy

theorem checkedSum_of_fits {x y : Int32} (hl : -2 ^ 31 ≤ x.toInt + y.toInt) (hr : x.toInt + y.toInt < 2 ^ 31) :
    checkedSum x y = some (x + y) ∧ (x + y).toInt = x.toInt + y.toInt := by
  have hadd : Int32.ofInt (x.toInt + y.toInt) = x + y := by rw [Int32.ofInt_add, Int32.ofInt_toInt, Int32.ofInt_toInt]
  have hsum : checkedSum x y = some (Int32.ofInt (x.toInt + y.toInt)) := if_pos ⟨hl, hr⟩
  refine ⟨hadd ▸ hsum, ?_⟩
  rw [← hadd, Int32.toInt_ofInt_of_le hl hr]

theorem exactSum_ending (x y : Int32) : ∃ t : Except RemoteError Int32,
    (Work.sumEnding (sum x y)).decision .computeSum = t.map .sum ∧ ExactSum x y (t.mapError .remote) := by
  by_cases h : -2 ^ 31 ≤ x.toInt + y.toInt ∧ x.toInt + y.toInt < 2 ^ 31
  · obtain ⟨hsum, hint⟩ := checkedSum_of_fits h.1 h.2
    refine ⟨.ok (x + y), by rw [sum, hsum]; rfl, fun _ _ => ⟨rfl, hint⟩, fun hnot => absurd h hnot⟩
  · have hsum : checkedSum x y = none := if_neg h
    exact ⟨.error _, by rw [sum, hsum]; rfl, fun hl hr => absurd ⟨hl, hr⟩ h, fun _ => rfl⟩

/-- Both constructors build the same, from whatever configuration. -/
theorem backend_of_made {i : Instance} {f : Factory} {l : Ledger} {b : Built} (h : i.ArisesFrom f l b)
    (hf : f.find? typeName = some constructors) (hb : b.sequencerType = typeName) : i.backend = backend := by
  obtain ⟨-, c, hc, hmade⟩ := h
  rw [hb, hf] at hc
  obtain rfl := Option.some.inj hc
  cases hhow : b.how <;> rw [hhow] at hmade <;> exact (Outcome.ok.inj hmade).symm

end Dummy

namespace Hub

/-- What it means that the handle of a sequencer leads to a host where it is live, and that it was created or opened
there as a dummy. -/
structure LeadsToDummy (h : Hub) (n : Nat) (s : Handle) (p : Provider) (i : Instance) (b : Built) : Prop where
  reaches : h.Reaches n s.endpoint.link
  provider : h.providerAt? n s.providerId = some p
  knows : p.factory.find? Dummy.typeName = some Dummy.constructors
  live : p.live.find? s.id = some i
  built : h.ledger.built[i.serial]? = some b
  dummy : b.sequencerType = Dummy.typeName

variable {h : Hub} {n : Nat} {s : Handle} {p : Provider} {i : Instance} {b : Built}

theorem LeadsToDummy.backend (hd : h.LeadsToDummy n s p i b) (hr : h.OnRecord) : i.backend = Dummy.backend := by
  obtain ⟨host, hhost, hfind⟩ := Option.bind_eq_some_iff.mp hd.provider
  obtain ⟨b', hb'⟩ := hr host (List.mem_of_getElem? hhost) p (List.mem_of_find?_eq_some hfind) _
    (Registry.mem_of_find? hd.live)
  obtain rfl : b = b' := Option.some.inj (hd.built.symm.trans hb'.1)
  exact Dummy.backend_of_made hb' hd.knows hd.dummy

/-- When the request to add leaves for a dummy, its reply is there at once, and every provider stays as it was. -/
theorem LeadsToDummy.send (hd : h.LeadsToDummy n s p i b) (hr : h.OnRecord) (x y : Int32) : ∃ reply,
    (h.send s.endpoint.link s.providerId (.computeSum s.id x y)).2 = .replied reply ∧
      ExactSum x y (settled .int32 reply) ∧
      ∀ m id, (h.send s.endpoint.link s.providerId (.computeSum s.id x y)).1.providerAt? m id = h.providerAt? m id := by
  obtain ⟨host, hhost, hfind⟩ := Option.bind_eq_some_iff.mp hd.provider
  have hwork : p.work h.ledger (.computeSum s.id x y) = .summing [] (Dummy.sum x y) := by
    simp only [Provider.work, Provider.serve, Provider.computeSum, hd.live, hd.backend hr, Dummy.backend]
  obtain ⟨t, ht, hexact⟩ := Dummy.exactSum_ending x y
  have hread : settled .int32 (.ok ((Work.sumEnding (Dummy.sum x y)).reply .computeSum)) = t.mapError .remote :=
    unwrap_reply Payload.int32_faithful (fun _ => rfl) (by decide) ht
  refine ⟨.ok ((Work.sumEnding (Dummy.sum x y)).reply .computeSum), ?_, hread ▸ hexact, fun m id => ?_⟩
  · rw [send_of_reaches hd.reaches, deliver]
    simp only [hhost, host.dispatch_of_find? hfind, Provider.handle_work, hwork]
    obtain ⟨-, hreply⟩ | ⟨hwaits, -⟩ := Task.ofDispatch_resume h.opened s.endpoint.link s.providerId s.providerId
      Operation.computeSum (.summing [] (Dummy.sum x y)) (p.handle (.computeSum s.id x y) h.ledger).2.2
      ((Work.summing [] (Dummy.sum x y)).resume h.opened s.providerId (p.handle (.computeSum s.id x y) h.ledger).2.2).2
    · exact hreply
    · obtain ⟨gate, hgate, -⟩ := hwaits
      exact absurd hgate List.not_mem_nil
  · rw [send_of_reaches hd.reaches, (deliver_served hd.provider _ _).2]
    split
    · rename_i hsame
      rw [← hsame.1, ← hsame.2, hd.provider]
      rfl
    · rfl

theorem OnRecord.settle (hr : h.OnRecord) : h.settle.OnRecord := hr.advanceAll _

/-- A reply that is there stays whatever happens. -/
theorem steps_reply? {k : Nat} {y : Except TransportError Json} (hy : h.reply? k = some y) (ms : List Move) :
    (h.steps ms).reply? k = some y := by
  refine List.foldlRecOn (motive := fun h' => h'.reply? k = some y) ms Hub.step hy fun h' hy m _ => ?_
  cases m with
  | openGate gate =>
    have hopen : reply? { h' with opened := gate :: h'.opened.filter (· ≠ gate) } k = some y := hy
    exact List.foldlRecOn (motive := fun h' => h'.reply? k = some y) _ Hub.advance hopen fun h' hy j _ =>
      h'.step_reply? (advance_single j) hy
  | _ => exact step_reply? (by simp) hy

end Hub

/-- What it means that the sums which a handle is asked for are exact, whichever of the calls is made. -/
structure Handle.SumsExactly (h : Hub) (s : Handle) (x y : Int32) : Prop where
  /-- The caller who waits and the one who comes back for the result are told the same. -/
  told : ∃ r, ExactSum x y r ∧ (s.computeSum h x y).2 = some r ∧
    (s.computeSumLater h x y).2.result? (s.computeSumLater h x y).1.settle = some r
  kept : ∀ m id, (s.computeSum h x y).1.providerAt? m id = h.settle.providerAt? m id
  issued : ∀ m id, (s.computeSumLater h x y).1.providerAt? m id = h.providerAt? m id
  /-- Whatever happens before the request leaves: if the dummy is live then, the result comes and stays. -/
  later : ∀ ms k n p i b, k = (s.computeSumLater h x y).2.task →
    ((s.computeSumLater h x y).1.steps ms).tasks[k]? =
      some (.sending s.endpoint.link s.providerId (.computeSum s.id x y)) →
    ((s.computeSumLater h x y).1.steps ms).LeadsToDummy n s p i b →
    (∃ r, ExactSum x y r ∧ ∀ more,
      (s.computeSumLater h x y).2.result? ((((s.computeSumLater h x y).1.steps ms).advance k).steps more) = some r) ∧
    ∀ m id, (((s.computeSumLater h x y).1.steps ms).advance k).providerAt? m id =
      ((s.computeSumLater h x y).1.steps ms).providerAt? m id

namespace Hub

variable {h : Hub} {n : Nat} {s : Handle} {p : Provider} {i : Instance} {b : Built}

theorem LeadsToDummy.sumsExactly (hd : h.settle.LeadsToDummy n s p i b) (hr : h.OnRecord) (x y : Int32) :
    s.SumsExactly h x y := by
  obtain ⟨reply, hreply, hexact, hkept⟩ := hd.send hr.settle x y
  have hforward := h.forward_eq s.endpoint.link s.providerId (.computeSum s.id x y)
  have hnow : (s.computeSum h x y).2 = some (settled .int32 reply) := by
    rw [Handle.computeSum, callAt, hforward, hreply]
    rfl
  refine ⟨⟨_, hexact, hnow, hnow⟩, fun m id => ?_, fun m id => rfl, ?_⟩
  · rw [← hkept m id, Handle.computeSum, callAt, hforward]
    rfl
  · rintro ms k n p i b rfl htask hd
    generalize hg : (s.computeSumLater h x y).1.steps ms = g at htask hd
    have hrecord : g.OnRecord := hg ▸ OnRecord.steps (show (s.computeSumLater h x y).1.OnRecord from hr) ms
    obtain ⟨reply, hreply, hexact, hkept⟩ := hd.send hrecord x y
    have hadvance := g.advance_eq _ htask
    rw [run] at hadvance
    have hthere : (g.advance (s.computeSumLater h x y).2.task).reply? (s.computeSumLater h x y).2.task =
        some reply := by
      rw [reply?, g.advance_self htask, run, hreply]
      rfl
    refine ⟨⟨_, hexact, fun more => ?_⟩, fun m id => ?_⟩
    · rw [Background.result?, steps_reply? hthere more]
      rfl
    · rw [← hkept m id, hadvance]
      rfl

/-- Whatever has happened between hosts and clients, a dummy sequencer that is live when the request to add is served
gives the exact sum, over any link that leads there. -/
theorem dummySums_exact (supply : Nat → SequencerId) (elsewhere : String → HttpRequest → Option HttpResponse)
    (ms : List Move) (hd : (steps { ledger := { supply }, elsewhere } ms).settle.LeadsToDummy n s p i b) (x y : Int32) :
    s.SumsExactly (steps { ledger := { supply }, elsewhere } ms) x y :=
  hd.sumsExactly (OnRecord.steps (fun _ hhost => absurd hhost List.not_mem_nil) ms) x y

def dummies : List Move :=
  [.addHost "local://trials", .bind 0, .listen 0 "127.0.0.1:8087", .connect true, .provide 0 {} Server.factory,
    .send (.named "local://trials") 0 (.construct .create "" "dummy" "\x7b\x7d"),
    .send (.http "http://127.0.0.1:8087") 0 (.construct .attach "" "dummy" "\x7b\"size\":7\x7d")]

def attended : Hub := steps { ledger := { supply := SequencerId.ofNat }, elsewhere := fun _ _ => none } dummies

def createdDummy : Handle := ⟨⟨"local://trials", .named "local://trials"⟩, 0, SequencerId.ofNat 0⟩
def openedDummy : Handle := ⟨⟨"http://127.0.0.1:8087", .http "http://127.0.0.1:8087"⟩, 0, SequencerId.ofNat 1⟩

def serialOf? (h : Hub) (n : Nat) (s : Handle) (name : String) : Option Nat := do
  let p ← h.providerAt? n s.providerId
  let i ← p.live.find? s.id
  let b ← h.ledger.built[i.serial]?
  if b.sequencerType = name then some i.serial else none

theorem leadsToDummy_of_serialOf? {k : Nat} (hr : h.Reaches n s.endpoint.link)
    (hp : h.providerAt? n s.providerId = some p) (hf : p.factory.find? Dummy.typeName = some Dummy.constructors)
    (hk : h.serialOf? n s Dummy.typeName = some k) : ∃ i b, h.LeadsToDummy n s p i b := by
  obtain ⟨q, hq, hk⟩ := Option.bind_eq_some_iff.mp hk
  obtain rfl : p = q := Option.some.inj (hp.symm.trans hq)
  obtain ⟨i, hi, hk⟩ := Option.bind_eq_some_iff.mp hk
  obtain ⟨b, hb, hk⟩ := Option.bind_eq_some_iff.mp hk
  exact ⟨i, b, hr, hp, hf, hi, hb, (Option.ite_none_right_eq_some.mp hk).1⟩

theorem dummySums_exact_dummies :
    (∃ p i b, attended.settle.LeadsToDummy 0 createdDummy p i b) ∧ createdDummy.SumsExactly attended 2147483647 1 ∧
      (∃ p i b, attended.settle.LeadsToDummy 0 openedDummy p i b) ∧
        openedDummy.SumsExactly attended (-2147483648) 2147483647 := by
  obtain ⟨p, hp, -, hf⟩ := advanceAll_keeps (show attended.providerAt? 0 0 = some _ from rfl) (List.range 2)
  have hknows : p.factory.find? Dummy.typeName = some Dummy.constructors := by
    rw [hf]
    rfl
  obtain ⟨hlocal, hserved, hcreated, hopened⟩ : attended.settle.hostAt? "local://trials" = some 0 ∧
      (attended.settle.online = true ∧ attended.settle.serverAt? "http://127.0.0.1:8087" = some (0, "")) ∧
      attended.settle.serialOf? 0 createdDummy Dummy.typeName = some 0 ∧
      attended.settle.serialOf? 0 openedDummy Dummy.typeName = some 1 := by decide +kernel
  have hlocal : attended.settle.Reaches 0 createdDummy.endpoint.link := hlocal
  have hserved : attended.settle.Reaches 0 openedDummy.endpoint.link := hserved
  obtain ⟨i, b, hd⟩ := leadsToDummy_of_serialOf? hlocal hp hknows hcreated
  obtain ⟨i', b', hd'⟩ := leadsToDummy_of_serialOf? hserved hp hknows hopened
  exact ⟨⟨p, i, b, hd⟩, dummySums_exact _ _ dummies hd _ _, ⟨p, i', b', hd'⟩, dummySums_exact _ _ dummies hd' _ _⟩

end Hub
end SequencerHub

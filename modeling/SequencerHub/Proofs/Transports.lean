import SequencerHub.Backend.Scripted
import SequencerHub.Client.Call
import SequencerHub.Proofs.Exchange

/-! All links to a host are worth the same. Whether requests reach it by its local address or over the wire, it does the
same, and the same comes back. -/
namespace SequencerHub

/-- The same task over two links. -/
inductive Task.Twin (a b : Link) : Task → Task → Prop
  | same (t : Task) : Twin a b t t
  | sending (providerId : UInt16) (r : Request) : Twin a b (.sending a providerId r) (.sending b providerId r)
  | serving (providerId id : UInt16) (op : Operation) (w : Work) :
      Twin a b (.serving a providerId (.running id op w)) (.serving b providerId (.running id op w))

namespace Hub

/-- What happens next where requests are sent over one link, while anything else may happen as well. -/
inductive Visit
  | send (providerId : UInt16) (r : Request)
  | shutdown
  | other (m : Move)

def visit (link : Link) (h : Hub) : Visit → Hub
  | .send providerId r => h.step (.send link providerId r)
  | .shutdown => (h.shutdownAt ⟨"", link⟩).1
  | .other m => h.step m

def visits (link : Link) (h : Hub) (vs : List Visit) : Hub := vs.foldl (visit link) h

/-- Two hubs that differ at most in the link over which some of the requests under way are sent. -/
structure Twins (a b : Link) (h h' : Hub) : Prop where
  rest : h' = { h with tasks := h'.tasks }
  tasks : List.Forall₂ (Task.Twin a b) h.tasks h'.tasks

section Lists

variable {α : Type} {R : α → α → Prop} {xs ys : List α}

theorem forall₂_getElem? (h : List.Forall₂ R xs ys) (k : Nat) :
    (xs[k]? = none ∧ ys[k]? = none) ∨ ∃ x y, xs[k]? = some x ∧ ys[k]? = some y ∧ R x y := by
  induction h generalizing k with
  | nil => exact .inl ⟨rfl, rfl⟩
  | @cons x y xs ys hxy _ ih =>
    cases k with
    | zero => exact .inr ⟨x, y, rfl, rfl, hxy⟩
    | succ k => exact ih k

theorem forall₂_set (h : List.Forall₂ R xs ys) {x y : α} (hxy : R x y) (k : Nat) :
    List.Forall₂ R (xs.set k x) (ys.set k y) := by
  induction h generalizing k with
  | nil => exact .nil
  | cons hxy' hs ih =>
    cases k with
    | zero => exact .cons hxy hs
    | succ k => exact .cons hxy' (ih k)

end Lists

section Twins

variable {a b : Link} {h h' : Hub} {n : Nat}

theorem Twins.refl (a b : Link) (h : Hub) : Twins a b h h :=
  ⟨rfl, List.forall₂_same.mpr fun t _ => .same t⟩

theorem ofDispatch_twin (providerId : UInt16) {d : Dispatch} (hd : d.Sound) :
    Task.Twin a b (.ofDispatch a providerId d) (.ofDispatch b providerId d) := by
  cases hd with
  | replied hc =>
    rw [Task.ofDispatch, Task.ofDispatch, a.receive_some providerId hc, b.receive_some providerId hc]
    exact .same _
  | running id op w => exact .serving providerId id op w

theorem deliver_twin (h : Hub) (n : Nat) (providerId : UInt16) (r : Request) :
    (h.deliver n b providerId r).1 = (h.deliver n a providerId r).1 ∧
      Task.Twin a b (h.deliver n a providerId r).2 (h.deliver n b providerId r).2 := by
  simp only [deliver, Link.receive_none]
  split
  · exact ⟨rfl, .same _⟩
  · split
    · exact ⟨rfl, .same _⟩
    · rename_i hd
      exact ⟨rfl, ofDispatch_twin providerId (Host.dispatch_sound hd)⟩

theorem run_twin (ha : h.Reaches n a) (hb : h.Reaches n b) {t t' : Task} (ht : Task.Twin a b t t') :
    (h.run t').1 = (h.run t).1 ∧ Task.Twin a b (h.run t).2 (h.run t').2 := by
  cases ht with
  | same => exact ⟨rfl, .same _⟩
  | sending providerId r =>
    simp only [run, send_of_reaches ha, send_of_reaches hb]
    exact h.deliver_twin n providerId r
  | serving providerId id op w => exact ⟨rfl, ofDispatch_twin providerId (Dispatch.ofWork_sound ..)⟩

theorem Twins.reaches (ht : Twins a b h h') {link : Link} (hr : h.Reaches n link) : h'.Reaches n link := by
  rw [ht.rest]
  exact hr.congr rfl rfl rfl

theorem Twins.advance (ht : Twins a b h h') (ha : h.Reaches n a) (hb : h.Reaches n b) (k : Nat) :
    Twins a b (h.advance k) (h'.advance k) := by
  obtain ⟨hrest, htasks⟩ := ht
  obtain ⟨hx, hy⟩ | ⟨t, t', hx, hy, htt⟩ := forall₂_getElem? htasks k
  · simp only [Hub.advance, hx, hy]
    exact ⟨hrest, htasks⟩
  · obtain ⟨hhub, htwin⟩ := run_twin ha hb htt
    have hrun : h'.run t' = ({ (h.run t').1 with tasks := h'.tasks }, (h.run t').2) := by
      rw [hrest]
      exact h.run_tasks t' h'.tasks
    rw [h.advance_eq t hx, h'.advance_eq t' hy, hrun]
    exact ⟨by rw [hhub], forall₂_set htasks htwin k⟩

theorem Twins.advanceAll (ht : Twins a b h h') (ha : h.Reaches n a) (hb : h.Reaches n b) (ks : List Nat) :
    Twins a b (ks.foldl Hub.advance h) (ks.foldl Hub.advance h') := by
  induction ks generalizing h h' with
  | nil => exact ht
  | cons k ks ih =>
    have hw := h.advance_within k
    exact ih (ht.advance ha hb k) (hw.reaches ha) (hw.reaches hb)

theorem Twins.settle (ht : Twins a b h h') (ha : h.Reaches n a) (hb : h.Reaches n b) :
    Twins a b h.settle h'.settle := by
  rw [Hub.settle, Hub.settle, ← ht.tasks.length_eq]
  exact ht.advanceAll ha hb _

theorem Twins.of_tasks {f : Hub → Hub} (hf : ∀ (h : Hub) ts, f { h with tasks := ts } = { f h with tasks := ts })
    (ht : Twins a b h h') : Twins a b (f h) (f h') := by
  have hkeep : (f h).tasks = h.tasks := by rw [show h = { h with tasks := h.tasks } from rfl, hf]
  have hfh' : f h' = { f h with tasks := h'.tasks } := by rw [ht.rest, hf]
  rw [hfh']
  exact ⟨rfl, by rw [hkeep]; exact ht.tasks⟩

theorem Twins.start (ht : Twins a b h h') {t t' : Task} (htt : Task.Twin a b t t') :
    Twins a b (h.start t).1 (h'.start t').1 := by
  refine ⟨?_, List.rel_append ht.tasks (.cons htt .nil)⟩
  rw [ht.rest]
  rfl

theorem Twins.openGate (ht : Twins a b h h') (ha : h.Reaches n a) (hb : h.Reaches n b) (gate : String) :
    Twins a b (h.openGate gate) (h'.openGate gate) := by
  have hopen : Twins a b { h with opened := gate :: h.opened.filter (· ≠ gate) }
      { h' with opened := gate :: h'.opened.filter (· ≠ gate) } :=
    ht.of_tasks (f := fun h => { h with opened := gate :: h.opened.filter (· ≠ gate) }) fun _ _ => rfl
  exact hopen.settle (ha.congr rfl rfl rfl) (hb.congr rfl rfl rfl)

theorem Twins.tearDown (ht : Twins a b h h') (n : Nat) : Twins a b (h.tearDown n) (h'.tearDown n) := by
  have hhosts : h'.hosts = h.hosts := by rw [ht.rest]
  have hledger : h'.ledger = h.ledger := by rw [ht.rest]
  have hopened : h'.opened = h.opened := by rw [ht.rest]
  simp only [Hub.tearDown, hhosts, hledger, hopened]
  cases h.hosts[n]? with
  | none => exact ht
  | some host =>
    dsimp only
    generalize host.tearDown h.opened h.ledger = torn
    have hset : Twins a b (h.setHost n torn.1 torn.2.2) (h'.setHost n torn.1 torn.2.2) :=
      ht.of_tasks (f := fun h => h.setHost n torn.1 torn.2.2) fun _ _ => rfl
    exact hset.start (.same (.tearing torn.2.1))

theorem Twins.step (ht : Twins a b h h') (ha : h.Reaches n a) (hb : h.Reaches n b) (m : Move) :
    Twins a b (h.step m) (h'.step m) := by
  have haside : ¬ m.Stirs → Twins a b (h.step m) (h'.step m) :=
    fun hm => ht.of_tasks (f := fun h => h.step m) (step_tasks hm)
  cases m with
  | tearDown n => exact ht.tearDown n
  | send link providerId r => exact ht.start (.same _)
  | advance k => exact ht.advance ha hb k
  | openGate gate => exact ht.openGate ha hb gate
  | _ => exact haside id

theorem shutdownAt_of_reaches {link : Link} (hr : h.Reaches n link) (address : String) :
    h.shutdownAt ⟨address, link⟩ = (h.stop n, .ok ()) := by
  cases link with
  | direct m =>
    obtain rfl : m = n := hr
    rfl
  | named address' =>
    have ha : h.hostAt? address' = some n := hr
    simp only [shutdownAt, ha]
  | http base =>
    obtain ⟨honline, hserver⟩ : h.online = true ∧ h.serverAt? base = some (n, "") := hr
    have htarget : ({ Http.shutdownRequest with target := "" ++ Http.shutdownRequest.target } : HttpRequest) =
        Http.shutdownRequest := by
      rw [String.empty_append]
    simp only [shutdownAt, honline, hserver, htarget, respond, Http.routed_shutdownRequest]
    rfl

theorem Twins.visit (ht : Twins a b h h') (ha : h.Reaches n a) (hb : h.Reaches n b) (v : Visit) :
    Twins a b (Hub.visit a h v) (Hub.visit b h' v) := by
  cases v with
  | send providerId r => exact ht.start (.sending providerId r)
  | shutdown =>
    simp only [Hub.visit, shutdownAt_of_reaches ha, shutdownAt_of_reaches (ht.reaches hb)]
    exact ht.of_tasks (f := fun h => h.stop n) fun h ts => h.stop_tasks n ts
  | other m => exact ht.step ha hb m

theorem Twins.visits (ht : Twins a b h h') {vs : List Visit}
    (hr : ∀ k ≤ vs.length, ∃ n, (Hub.visits a h (vs.take k)).Reaches n a ∧ (Hub.visits a h (vs.take k)).Reaches n b) :
    Twins a b (Hub.visits a h vs) (Hub.visits b h' vs) := by
  induction vs generalizing h h' with
  | nil => exact ht
  | cons v vs ih =>
    obtain ⟨n, ha, hb⟩ := hr 0 (Nat.zero_le _)
    refine ih (ht.visit ha hb v) fun k hk => ?_
    exact hr (k + 1) (Nat.succ_le_succ hk)

theorem Twins.reply? (ht : Twins a b h h') (k : Nat) : h'.reply? k = h.reply? k := by
  obtain ⟨hx, hy⟩ | ⟨t, t', hx, hy, htt⟩ := forall₂_getElem? ht.tasks k
  · simp [Hub.reply?, hx, hy]
  · cases htt <;> simp [Hub.reply?, hx, hy, Task.reply?]

theorem Twins.forward (ht : Twins a b h h') (ha : h.Reaches n a) (hb : h.Reaches n b) (providerId : UInt16)
    (r : Request) : Twins a b (h.forward a providerId r).1 (h'.forward b providerId r).1 ∧
      (h'.forward b providerId r).2 = (h.forward a providerId r).2 := by
  have hs : Twins a b (h.start (.sending a providerId r)).1.settle (h'.start (.sending b providerId r)).1.settle :=
    (ht.start (.sending providerId r)).settle (ha.congr rfl rfl rfl) (hb.congr rfl rfl rfl)
  refine ⟨hs, ?_⟩
  have hlen : (h'.start (.sending b providerId r)).2 = (h.start (.sending a providerId r)).2 := ht.tasks.length_eq.symm
  simp only [Hub.forward, hlen]
  exact hs.reply? _

end Twins

/-- What it means that two links are worth the same where two hubs have got to. -/
structure Agree (a b : Link) (h h' : Hub) : Prop where
  hosts : h'.hosts = h.hosts
  ledger : h'.ledger = h.ledger
  replies : ∀ k, h'.reply? k = h.reply? k
  forward : ∀ providerId r, (h'.forward b providerId r).2 = (h.forward a providerId r).2 ∧
    (h'.forward b providerId r).1.hosts = (h.forward a providerId r).1.hosts ∧
      (h'.forward b providerId r).1.ledger = (h.forward a providerId r).1.ledger
  shutdown : ∀ address, (h'.shutdownAt ⟨address, b⟩).2 = (h.shutdownAt ⟨address, a⟩).2 ∧
    (h'.shutdownAt ⟨address, b⟩).1.hosts = (h.shutdownAt ⟨address, a⟩).1.hosts ∧
      (h'.shutdownAt ⟨address, b⟩).1.ledger = (h.shutdownAt ⟨address, a⟩).1.ledger

/-- As long as both links reach a host, all that is sent over the one has the same effects and gets the same replies as
if it were sent over the other. -/
theorem links_agree (a b : Link) (h : Hub) (vs : List Visit)
    (hr : ∀ k ≤ vs.length, ∃ n, (visits a h (vs.take k)).Reaches n a ∧ (visits a h (vs.take k)).Reaches n b) :
    Agree a b (visits a h vs) (visits b h vs) := by
  have ht : Twins a b (visits a h vs) (visits b h vs) := (Twins.refl a b h).visits hr
  obtain ⟨n, ha, hb⟩ := hr vs.length (Nat.le_refl _)
  rw [List.take_length] at ha hb
  refine ⟨by rw [ht.rest], by rw [ht.rest], ht.reply?, fun providerId r => ?_, fun address => ?_⟩
  · obtain ⟨hf, he⟩ := ht.forward ha hb providerId r
    exact ⟨he, by rw [hf.rest], by rw [hf.rest]⟩
  · rw [shutdownAt_of_reaches ha, shutdownAt_of_reaches (ht.reaches hb), ht.rest, stop_tasks]
    exact ⟨rfl, rfl, rfl⟩

def madeAndStopped : List Visit :=
  [.other (.provide 0 {} (Factory.register {} "scripted" (Scripted.constructors "scripted"))),
    .send 0 (.construct .create "" "scripted" "{}"), .other (.advance 0), .shutdown]

theorem links_agree_madeAndStopped :
    (∀ k ≤ madeAndStopped.length, ∃ n,
      (visits (.named "local://trials") trials (madeAndStopped.take k)).Reaches n (.named "local://trials") ∧
        (visits (.named "local://trials") trials (madeAndStopped.take k)).Reaches n (.http "http://127.0.0.1:8087")) ∧
      Agree (.named "local://trials") (.http "http://127.0.0.1:8087")
        (visits (.named "local://trials") trials madeAndStopped)
        (visits (.http "http://127.0.0.1:8087") trials madeAndStopped) := by
  have hr : ∀ k ≤ madeAndStopped.length, ∃ n,
      (visits (.named "local://trials") trials (madeAndStopped.take k)).Reaches n (.named "local://trials") ∧
        (visits (.named "local://trials") trials (madeAndStopped.take k)).Reaches n
          (.http "http://127.0.0.1:8087") := by
    intro k hk
    refine ⟨0, ?_⟩
    have hk' : k ≤ 4 := hk
    interval_cases k
    · exact ⟨rfl, rfl, rfl⟩
    · exact ⟨rfl, rfl, rfl⟩
    · exact ⟨rfl, rfl, rfl⟩
    · exact ⟨rfl, rfl, rfl⟩
    · exact ⟨rfl, rfl, rfl⟩
  exact ⟨hr, links_agree _ _ trials madeAndStopped hr⟩

end Hub
end SequencerHub

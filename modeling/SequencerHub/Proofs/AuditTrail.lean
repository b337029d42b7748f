import SequencerHub.Proofs.AuditLog
import SequencerHub.Proofs.HubCustody
import SequencerHub.Proofs.Isolation

/-! The log of a provider as an audit trail. When nothing is under way, the sequencers that are live as far as the log
tells are those in the registry and those whose destruction has panicked. -/
namespace SequencerHub

/-- Where the sequencers are that have been constructed, and what the log tells of them. -/
structure Books where
  live : List SequencerId
  /-- A request destroys them, and the log will tell. -/
  owed : List SequencerId
  /-- A teardown is to destroy them. -/
  tearing : List SequencerId
  /-- A panic keeps their end out of the log. -/
  lost : List SequencerId
  told : Finset SequencerId

namespace Books

def due (b : Books) : List SequencerId := b.live ++ (b.tearing ++ b.lost)

def all (b : Books) : List SequencerId := b.owed ++ b.due

/-- Every sequencer is at one place. Those that a request destroys may have been cleared from the log before. -/
structure Balanced (b : Books) : Prop where
  once : b.all.Nodup
  told : ∀ id ∈ b.due, id ∈ b.told
  known : ∀ id ∈ b.told, id ∈ b.all

variable {b b' : Books}

/-- Sequencers come to other places, and some of them to their end, of which the log tells. -/
theorem Balanced.shift (h : b.Balanced) {gone : List SequencerId}
    (hall : ∀ id, b.all.count id = gone.count id + b'.all.count id)
    (hdue : ∀ id, b'.due.count id ≤ b.due.count id) (ht : ∀ id, id ∈ b'.told ↔ id ∈ b.told ∧ id ∉ gone) :
    b'.Balanced := by
  have hone : ∀ id, gone.count id + b'.all.count id ≤ 1 := fun id =>
    hall id ▸ List.nodup_iff_count_le_one.mp h.once id
  refine ⟨List.nodup_iff_count_le_one.mpr fun id => Nat.le_trans (Nat.le_add_left _ _) (hone id), ?_, ?_⟩
  · intro id hid
    have hpos : 0 < b'.due.count id := List.count_pos_iff.mpr hid
    have hdue : id ∈ b.due := List.count_pos_iff.mp (Nat.lt_of_lt_of_le hpos (hdue id))
    have hgone : gone.count id = 0 := by
      have hle := hone id
      rw [all, List.count_append] at hle
      omega
    exact (ht id).mpr ⟨h.told id hdue, List.count_eq_zero.mp hgone⟩
  · intro id hid
    obtain ⟨htold, hgone⟩ := (ht id).mp hid
    have hpos : 0 < b.all.count id := List.count_pos_iff.mpr (h.known id htold)
    rw [hall id, List.count_eq_zero.mpr hgone, Nat.zero_add] at hpos
    exact List.count_pos_iff.mp hpos

def enter (b : Books) (id : SequencerId) : Books := { b with live := b.live ++ [id], told := insert id b.told }

theorem all_enter (b : Books) (id : SequencerId) : (b.enter id).all.Perm (id :: b.all) := by
  refine List.perm_iff_count.mpr fun k => ?_
  simp only [all, due, enter, List.count_append, List.count_cons, List.count_nil]
  omega

theorem Balanced.enter (h : b.Balanced) {id : SequencerId} (hnew : id ∉ b.all) : (b.enter id).Balanced := by
  have hperm := b.all_enter id
  refine ⟨hperm.nodup_iff.mpr (List.nodup_cons.mpr ⟨hnew, h.once⟩), ?_, ?_⟩
  · intro k hk
    have hk' : k = id ∨ k ∈ b.due := by
      simp only [due, Books.enter, List.mem_append, List.mem_singleton] at hk ⊢
      tauto
    exact Finset.mem_insert.mpr (hk'.imp_right (h.told k))
  · intro k hk
    refine hperm.mem_iff.mpr (List.mem_cons.mpr ?_)
    exact (Finset.mem_insert.mp hk).imp_right (h.known k)

def clear (b : Books) : Books := { live := [], owed := b.owed, tearing := [], lost := [], told := ∅ }

theorem all_clear (b : Books) : b.clear.all = b.owed := by
  simp [all, due, clear]

theorem Balanced.clear (h : b.Balanced) : b.clear.Balanced where
  once := b.all_clear ▸ (List.nodup_append.mp h.once).1
  told := fun _ hid => absurd hid List.not_mem_nil
  known := fun _ hid => absurd hid (Finset.notMem_empty _)

/-- When nothing is under way, the log is wrong about what is lost, and about nothing else. -/
theorem Balanced.told_eq_iff (h : b.Balanced) (ho : b.owed = []) (ht : b.tearing = []) :
    b.told = b.live.toFinset ↔ b.lost = [] := by
  have hall : b.all = b.live ++ b.lost := by simp [all, due, ho, ht]
  have hdue : b.due = b.live ++ b.lost := by simp [due, ht]
  constructor
  · intro heq
    refine List.eq_nil_iff_forall_not_mem.mpr fun id hid => ?_
    have hlive : id ∈ b.live := by
      have htold := h.told id (hdue ▸ List.mem_append_right b.live hid)
      rwa [heq, List.mem_toFinset] at htold
    exact (List.nodup_append.mp (hall ▸ h.once)).2.2 id hlive id hid rfl
  · intro hlost
    ext id
    rw [List.mem_toFinset]
    have hlive : b.live = b.live ++ b.lost := by simp [hlost]
    exact ⟨fun hid => hlive ▸ hall ▸ h.known id hid, fun hid => h.told id (hdue ▸ hlive ▸ hid)⟩

end Books

namespace Dispatch

def owed : Dispatch → List SequencerId
  | running _ _ w => w.owed
  | replied _ => []

def Discreet : Dispatch → Prop
  | running _ _ w => w.Discreet
  | replied _ => True

theorem ofWork_reports (providerId : UInt16) (op : Operation) {w : Work} (h : w.Discreet) (l : Ledger) :
    l.Reports [] (ofWork providerId op w l).2 ∧ (ofWork providerId op w l).1.owed = w.owed ∧
      (ofWork providerId op w l).1.Discreet := by
  cases w with
  | ended e =>
    cases e with
    | answered r => exact ⟨.refl l, rfl, trivial⟩
    | panicked q => exact ⟨Ledger.reports_aside (fun _ => rfl) l, rfl, trivial⟩
  | summing acts outcome => exact ⟨.refl l, rfl, h⟩
  | destroying id acts outcome => exact ⟨.refl l, rfl, h⟩

/-- Work that goes on under a dispatch. -/
theorem ofWork_resume_reports (opened : Gates) (providerId : UInt16) (op : Operation) {w : Work} (h : w.Discreet)
    (l : Ledger) : ∃ gone,
      l.Reports gone (ofWork providerId op (w.resume opened providerId l).1 (w.resume opened providerId l).2).2 ∧
      w.owed = gone ++ (ofWork providerId op (w.resume opened providerId l).1 (w.resume opened providerId l).2).1.owed ∧
      (ofWork providerId op (w.resume opened providerId l).1 (w.resume opened providerId l).2).1.Discreet := by
  obtain ⟨gone, hl, howed, hd⟩ := w.resume_reports opened providerId h l
  obtain ⟨hl', howed', hd'⟩ := ofWork_reports providerId op hd (w.resume opened providerId l).2
  refine ⟨gone, ?_, by rw [howed', howed], hd'⟩
  have hall := hl.trans hl'
  rwa [List.append_nil] at hall

theorem resume_reports (opened : Gates) {d : Dispatch} (h : d.Discreet) (l : Ledger) :
    ∃ gone, l.Reports gone (d.resume opened l).2 ∧ d.owed = gone ++ (d.resume opened l).1.owed ∧
      (d.resume opened l).1.Discreet := by
  cases d with
  | replied r => exact ⟨[], .refl l, rfl, h⟩
  | running providerId op w => exact ofWork_resume_reports opened providerId op h l

end Dispatch

namespace Hosting

def sole (address : String) (supply : Nat → SequencerId) (o : ProviderOptions) (f : Factory) : Hosting :=
  (founded address supply).step (.provide o f)

/-- Whether a move leaves it to the host which providers there are: requests and teardowns do. -/
def Move.IsService : Move → Prop
  | .provide _ _ | .deregister _ => False
  | _ => True

instance (m : Move) : Decidable m.IsService := by
  unfold Move.IsService
  split <;> infer_instance

def live (s : Hosting) : List SequencerId := s.host.providers.flatMap (·.live.ids)

/-- Whether a panic comes of a move that keeps the end of sequencers out of the log: a destruction begins that will end
so, or a teardown ends so. -/
def Loses (s : Hosting) : Move → Prop
  | .request id r _ => ∃ p ∈ s.host.find? id, (p.handle r s.ledger).2.1.IsDoomed
  | .tearDownOne id opened => ∃ p ∈ s.host.find? id, (p.tearDown opened s.ledger).2.1.IsPanicked
  | .tearDown opened => (s.host.tearDown opened s.ledger).2.1.IsPanicked
  | .resumeTeardown n opened => ∃ t ∈ s.teardowns[n]?, ¬ t.IsPanicked ∧ (t.resume opened s.ledger).1.IsPanicked
  | _ => False

/-- Whether a move lets all live sequencers go, and logs it. -/
def Detaches (s : Hosting) : Move → Prop
  | .tearDownOne id _ => ∃ p ∈ s.host.find? id, p.options.teardown = .detach ∧ p.live ≠ []
  | .tearDown _ => ∃ p ∈ s.host.providers, p.options.teardown = .detach ∧ p.live ≠ []
  | _ => False

def owed (s : Hosting) : List SequencerId := s.requests.flatMap fun d => d.elim [] Dispatch.owed

def tearing (s : Hosting) : List SequencerId := s.teardowns.flatMap Teardown.ids

def books (s : Hosting) (lost : List SequencerId) : Books := ⟨s.live, s.owed, s.tearing, lost, s.ledger.told⟩

/-- There is one provider at most, and everything at it is discreet. -/
structure Alone (s : Hosting) : Prop where
  one : s.host.providers.length ≤ 1
  providers : ∀ p ∈ s.host.providers, p.Discreet
  detached : ∀ p ∈ s.host.providers, p.options.teardown = .detach → s.tearing = []
  requests : ∀ d, some d ∈ s.requests → d.Discreet
  teardowns : ∀ t ∈ s.teardowns, t.Discreet

/-- What holds of a host with one provider at all times, where some sequencers have been lost. -/
structure Trail (s : Hosting) (lost : List SequencerId) : Prop where
  alone : s.Alone
  balanced : (s.books lost).Balanced
  minted : ∀ id ∈ (s.books lost).all, ∃ a < s.ledger.minted, s.ledger.supply a = id

section Trail

variable {s s' : Hosting} {lost lost' : List SequencerId}

theorem Alone.eq_singleton (h : s.Alone) {p : Provider} (hp : p ∈ s.host.providers) : s.host.providers = [p] := by
  have hone := h.one
  generalize s.host.providers = ps at hp hone
  cases ps with
  | nil => exact absurd hp List.not_mem_nil
  | cons q ps =>
    obtain rfl : ps = [] := List.eq_nil_of_length_eq_zero (by simpa using hone)
    exact congrArg (fun x => [x]) (List.mem_singleton.mp hp).symm

/-- Nothing is constructed; what is at another place now may have been reported on the way. -/
theorem Trail.shift (h : s.Trail lost) (ha : s'.Alone) {gone : List SequencerId}
    (hl : s.ledger.Reports gone s'.ledger)
    (hall : ∀ id, (s.books lost).all.count id = gone.count id + (s'.books lost').all.count id)
    (hdue : ∀ id, (s'.books lost').due.count id ≤ (s.books lost).due.count id) : s'.Trail lost' where
  alone := ha
  balanced := h.balanced.shift hall hdue hl.told
  minted := fun id hid => by
    rw [hl.supply, hl.minted]
    have hpos : 0 < (s'.books lost').all.count id := List.count_pos_iff.mpr hid
    exact h.minted id (List.count_pos_iff.mp (by rw [hall id]; omega))

theorem Trail.nextId_not_mem (h : s.Trail lost) {l : Ledger} (hs : l.supply = s.ledger.supply)
    (hm : l.minted = s.ledger.minted + 1) (hd : l.Distinct) : s.ledger.nextId ∉ (s.books lost).all := by
  intro hid
  obtain ⟨a, ha, hsup⟩ := h.minted _ hid
  have heq : a = s.ledger.minted := hd a s.ledger.minted (by omega) (by omega) (by rw [hs, hsup, Ledger.nextId])
  omega

theorem Trail.enter (h : s.Trail lost) (ha : s'.Alone) (hb : s'.books lost = (s.books lost).enter s.ledger.nextId)
    (hs : s'.ledger.supply = s.ledger.supply) (hm : s'.ledger.minted = s.ledger.minted + 1) (hd : s'.ledger.Distinct) :
    s'.Trail lost where
  alone := ha
  balanced := hb ▸ h.balanced.enter (h.nextId_not_mem hs hm hd)
  minted := fun id hid => by
    rw [hs, hm]
    rw [hb, ((s.books lost).all_enter s.ledger.nextId).mem_iff] at hid
    obtain rfl | hid := List.mem_cons.mp hid
    · exact ⟨s.ledger.minted, Nat.lt_succ_self _, rfl⟩
    · obtain ⟨a, ha, hsup⟩ := h.minted id hid
      exact ⟨a, Nat.lt_succ_of_lt ha, hsup⟩

theorem Trail.clear (h : s.Trail lost) (ha : s'.Alone) (hb : s'.books [] = (s.books lost).clear)
    (hs : s'.ledger.supply = s.ledger.supply) (hm : s'.ledger.minted = s.ledger.minted) : s'.Trail [] where
  alone := ha
  balanced := hb ▸ h.balanced.clear
  minted := fun id hid => by
    rw [hs, hm]
    rw [hb, Books.all_clear] at hid
    exact h.minted id (List.mem_append_left _ hid)

/-- What a move makes of a trail: what is lost stays so until everything is let go. -/
def Continues (s : Hosting) (lost : List SequencerId) (m : Move) : Prop :=
  ∃ lost', (s.step m).Trail lost' ∧ (lost' = [] ↔ ¬ s.Loses m ∧ (s.Detaches m ∨ lost = []))

theorem Alone.live_eq {p : Provider} (hp : s.host.providers = [p]) : s.live = p.live.ids := by
  simp [live, hp]

theorem Alone.serve (h : s.Alone) {p q : Provider} {d : Dispatch} (hp : s.host.providers = [p])
    (ho : q.options = p.options) (hq : q.Discreet) (hd : d.Discreet) {l : Ledger} : Alone { s with
      host := { s.host with providers := [q] }, ledger := l, requests := s.requests ++ [some d] } where
  one := Nat.le_refl 1
  providers := fun x hx => List.mem_singleton.mp hx ▸ hq
  detached := fun x hx hdetach => by
    obtain rfl := List.mem_singleton.mp hx
    exact h.detached p (hp ▸ List.mem_singleton_self p) (ho ▸ hdetach)
  requests := fun d' hd' => by
    obtain hd' | hd' := List.mem_append.mp hd'
    · exact h.requests d' hd'
    · exact Option.some.inj (List.mem_singleton.mp hd') ▸ hd
  teardowns := h.teardowns

theorem Alone.step_request (h : s.Alone) {id : UInt16} {p : Provider} (hp : s.host.find? id = some p) (r : Request)
    (opened : Gates) : s.step (.request id r opened) =
      { s with
        host := { s.host with providers := [(p.handle r s.ledger).1] }
        ledger := (Dispatch.ofWork id r.op ((p.handle r s.ledger).2.1.resume opened id (p.handle r s.ledger).2.2).1
          ((p.handle r s.ledger).2.1.resume opened id (p.handle r s.ledger).2.2).2).2
        requests := s.requests ++
          [some (Dispatch.ofWork id r.op ((p.handle r s.ledger).2.1.resume opened id (p.handle r s.ledger).2.2).1
            ((p.handle r s.ledger).2.1.resume opened id (p.handle r s.ledger).2.2).2).1] } := by
  have hput : s.host.put (p.handle r s.ledger).1 = { s.host with providers := [(p.handle r s.ledger).1] } := by
    simp only [Host.put, h.eq_singleton (List.mem_of_find?_eq_some hp), Host.insert, p.handle_id, UInt16.lt_irrefl,
      if_false, if_true]
  simp only [step, s.host.dispatch_of_find? hp, hput]

theorem Trail.serve (h : s.Trail lost) {p : Provider} (hp : s.host.providers = [p])
    {out : Provider × Work × Ledger} (haudited : Provider.Audited p s.ledger out) {l : Ledger}
    {gone : List SequencerId} (hl : out.2.2.Reports gone l) {d : Dispatch} (howed : out.2.1.owed = gone ++ d.owed)
    (halone : Alone { s with
      host := { s.host with providers := [out.1] }, ledger := l, requests := s.requests ++ [some d] })
    (hd : l.Distinct) :
    ∃ lost', Trail { s with
        host := { s.host with providers := [out.1] }, ledger := l, requests := s.requests ++ [some d] } lost' ∧
      (lost' = [] ↔ ¬ out.2.1.IsDoomed ∧ lost = []) := by
  cases haudited with
  | entered i live nothing sound supply minted told =>
    obtain ⟨rfl, hnone⟩ : gone = [] ∧ d.owed = [] := List.append_eq_nil_iff.mp (howed ▸ nothing)
    have hs := hl.supply.trans supply
    have hm := hl.minted.trans minted
    have htold := hl.told_eq.trans told
    have hnew : p.live.find? s.ledger.nextId = none := by
      have hall := h.nextId_not_mem hs hm hd
      refine Registry.find?_eq_none.mpr fun hid => hall ?_
      rw [← Alone.live_eq hp] at hid
      exact List.mem_append_right _ (List.mem_append_left _ hid)
    have hids : out.1.live.ids = p.live.ids ++ [s.ledger.nextId] := by
      rw [live, Registry.insert_of_find?_none i hnew]
      simp [Registry.ids]
    refine ⟨lost, h.enter halone ?_ hs hm hd, by simp [sound]⟩
    simp [books, Books.enter, Hosting.live, owed, tearing, hp, hids, hnone, htold]
  | departed gone₁ lost₁ reports perm lost_iff =>
    refine ⟨lost ++ lost₁, h.shift halone (reports.trans hl) (fun k => ?_) fun k => ?_, ?_⟩
    · have hcount := perm.count_eq k
      simp only [books, Books.all, Books.due, live, owed, tearing, hp, howed, List.flatMap_append, List.flatMap_cons,
        List.flatMap_nil, List.count_append, Option.elim_some, List.count_nil] at hcount ⊢
      omega
    · have hcount := perm.count_eq k
      simp only [books, Books.due, live, tearing, hp, List.flatMap_cons, List.flatMap_nil, List.count_append,
        List.count_nil] at hcount ⊢
      omega
    · simp [lost_iff, and_comm]

theorem Trail.request (h : s.Trail lost) (id : UInt16) (r : Request) (opened : Gates)
    (hd : (s.step (.request id r opened)).ledger.Distinct) : s.Continues lost (.request id r opened) := by
  cases hp : s.host.find? id with
  | none =>
    have hnot : ¬ s.Loses (.request id r opened) := by simp [Loses, hp]
    refine ⟨lost, ?_, by simp [hnot, Detaches]⟩
    rw [step_request_none hp]
    refine h.shift ⟨h.alone.one, h.alone.providers, h.alone.detached, fun d hmem => ?_, h.alone.teardowns⟩ (.refl _)
      (fun k => ?_) fun k => Nat.le_refl _
    · exact h.alone.requests d (by simpa using hmem)
    · simp [books, Books.all, owed, Books.due, live, tearing]
  | some p =>
    have hmem : p ∈ s.host.providers := List.mem_of_find?_eq_some hp
    have hsole := h.alone.eq_singleton hmem
    have hnodup : p.live.ids.Nodup := by
      have hdue := (List.nodup_append.mp h.balanced.once).2.1
      exact Alone.live_eq hsole ▸ (List.nodup_append.mp hdue).1
    have hoptions : (p.handle r s.ledger).1.options = p.options := by rw [(p.handle_served r s.ledger).provider]
    have hloses : s.Loses (.request id r opened) ↔ (p.handle r s.ledger).2.1.IsDoomed := by simp [Loses, hp]
    obtain ⟨haudited, hprovider, hwork⟩ := Provider.handle_kept (h.alone.providers p hmem) hnodup r s.ledger
    obtain ⟨gone, hl, howed, hbegun⟩ := Dispatch.ofWork_resume_reports opened id r.op hwork (p.handle r s.ledger).2.2
    rw [h.alone.step_request hp] at hd
    obtain ⟨lost', ht, hl'⟩ := h.serve hsole haudited hl howed (h.alone.serve hsole hoptions hprovider hbegun) hd
    refine ⟨lost', ?_, ?_⟩
    · rw [h.alone.step_request hp]
      exact ht
    · rw [hl', hloses]
      simp [Detaches]

theorem Trail.resume (h : s.Trail lost) (n : Nat) (opened : Gates) : s.Continues lost (.resume n opened) := by
  refine ⟨lost, ?_, by simp [Loses, Detaches]⟩
  simp only [step]
  split
  · rename_i d hn
    have hd := h.alone.requests d (List.mem_of_getElem? hn)
    obtain ⟨gone, hl, howed, hdispatch⟩ := d.resume_reports opened hd s.ledger
    have hset : ∀ k, _ := Hub.count_flatMap_set hn (some (d.resume opened s.ledger).1) fun d => d.elim [] Dispatch.owed
    refine h.shift ⟨h.alone.one, h.alone.providers, h.alone.detached, fun d' hd' => ?_, h.alone.teardowns⟩ hl
      (fun k => ?_) fun k => Nat.le_refl _
    · obtain hd' | hd' := List.mem_or_eq_of_mem_set hd'
      · exact h.alone.requests d' hd'
      · exact Option.some.inj hd' ▸ hdispatch
    · have hcount := hset k
      simp only [books, Books.all, Books.due, live, owed, tearing, howed, Option.elim_some,
        List.count_append] at hcount ⊢
      omega
  · exact h

theorem Alone.tearDown (h : s.Alone) {p : Provider} (hp : s.host.providers = [p]) {t : Teardown} (ht : t.Discreet)
    (hdetach : p.options.teardown = .detach → t.ids = []) {l : Ledger} {host : Host}
    (hhost : host.providers = [] ∨ host.providers = [{ p with live := [] }]) :
    Alone { s with host, ledger := l, teardowns := s.teardowns ++ [t] } := by
  have hprovider : ∀ x ∈ host.providers, x = { p with live := [] } := by
    intro x hx
    obtain hnone | hone := hhost
    · exact absurd hx (by simp [hnone])
    · exact List.mem_singleton.mp (hone ▸ hx)
  have hmem : p ∈ s.host.providers := hp ▸ List.mem_singleton_self p
  refine ⟨?_, fun x hx => ?_, fun x hx hpolicy => ?_, h.requests, fun t' ht' => ?_⟩
  · obtain hnone | hone := hhost
    · simp [hnone]
    · simp [hone]
  · obtain rfl := hprovider x hx
    exact ⟨(h.providers p hmem).factory, fun y hy => absurd hy List.not_mem_nil⟩
  · obtain rfl := hprovider x hx
    have hbefore : s.teardowns.flatMap Teardown.ids = [] := h.detached p hmem hpolicy
    simp [tearing, hbefore, hdetach hpolicy]
  · obtain ht' | ht' := List.mem_append.mp ht'
    · exact h.teardowns t' ht'
    · exact List.mem_singleton.mp ht' ▸ ht

/-- A teardown begins: it takes everything out of the registry, to destroy it or to let it go. -/
theorem Trail.tearDown (h : s.Trail lost) {p : Provider} (hp : s.host.providers = [p]) (opened : Gates) {l : Ledger}
    (hl : s.ledger.Reports [] l) (host : Host)
    (hhost : host.providers = [] ∨ host.providers = [{ p with live := [] }]) :
    ∃ lost', Trail { s with
        host, ledger := (p.tearDown opened l).2.2, teardowns := s.teardowns ++ [(p.tearDown opened l).2.1] } lost' ∧
      (lost' = [] ↔ ¬ (p.tearDown opened l).2.1.IsPanicked ∧
        ((p.options.teardown = .detach ∧ p.live ≠ []) ∨ lost = [])) := by
  have hmem : p ∈ s.host.providers := hp ▸ List.mem_singleton_self p
  have hlive : s.live = p.live.ids := Alone.live_eq hp
  have hempty : host.providers.flatMap (fun q => q.live.ids) = [] := by
    obtain hnone | hone := hhost
    · simp [hnone]
    · simp [hone, Registry.ids]
  cases hpolicy : p.options.teardown with
  | destroy =>
    obtain ⟨⟨gone, lost₁, hr, hids, hstopped⟩, ht⟩ :=
      Teardown.tearDown_tells opened (h.alone.providers p hmem) hpolicy l
    have halone := h.alone.tearDown hp ht (by simp [hpolicy]) (l := (p.tearDown opened l).2.2) hhost
    refine ⟨lost ++ lost₁, h.shift halone (hl.trans hr) (fun k => ?_) fun k => ?_, ?_⟩
    · simp only [books, Books.all, Books.due, hlive, hids]
      simp only [live, owed, tearing, hempty, List.flatMap_append, List.flatMap_cons, List.flatMap_nil,
        List.count_append, List.count_nil]
      omega
    · simp only [books, Books.due, hlive, hids]
      simp only [live, tearing, hempty, List.flatMap_append, List.flatMap_cons, List.flatMap_nil,
        List.count_append, List.count_nil]
      omega
    · simp [hstopped, and_comm]
  | detach =>
    have hbefore : s.teardowns.flatMap Teardown.ids = [] := h.alone.detached p hmem hpolicy
    have halone : ∀ l', Alone { s with host, ledger := l', teardowns := s.teardowns ++ [.finished] } :=
      fun l' => h.alone.tearDown hp (t := .finished) trivial (fun _ => rfl) hhost
    have hnot : ¬ Teardown.finished.IsPanicked := not_false
    by_cases hnone : p.live = []
    · have hdown : (p.tearDown opened l).2 = (.finished, l) := by simp [Teardown.tearDown_detach opened hpolicy, hnone]
      have hnobody : s.host.providers.flatMap (fun q => q.live.ids) = [] := hlive.trans (by rw [hnone]; rfl)
      rw [hdown]
      refine ⟨lost, h.shift (halone l) hl (fun k => ?_) fun k => ?_, by simp [hnot, hnone]⟩
      all_goals simp [books, Books.all, Books.due, live, owed, tearing, hempty, hnobody, Teardown.ids]
    · have hdown : (p.tearDown opened l).2 =
          (.finished, l.logged (.detachedAll p.options.providerId p.live.length)) := by
        simp [Teardown.tearDown_detach opened hpolicy, hnone]
      rw [hdown]
      refine ⟨[], h.clear (halone _) ?_ hl.supply hl.minted, by simp [hnot, hnone]⟩
      simp [books, Books.clear, live, owed, tearing, hempty, hbefore, Teardown.ids, Ledger.told_logged, LogEvent.audit]

/-- A teardown that goes on destroys what it still has to, or lets go of it in a panic. -/
theorem Trail.resumeTeardown (h : s.Trail lost) (n : Nat) (opened : Gates) :
    s.Continues lost (.resumeTeardown n opened) := by
  unfold Continues
  simp only [step, Loses, Detaches]
  cases hn : s.teardowns[n]? with
  | none => exact ⟨lost, h, by simp⟩
  | some t =>
    obtain ⟨⟨gone, lost₁, hr, hids, hstopped⟩, ht⟩ :=
      Teardown.resume_tells opened (h.alone.teardowns t (List.mem_of_getElem? hn)) s.ledger
    have hset : ∀ k, _ := Hub.count_flatMap_set hn (t.resume opened s.ledger).1 Teardown.ids
    refine ⟨lost ++ lost₁, h.shift ⟨h.alone.one, h.alone.providers, fun p hp hpolicy => ?_, h.alone.requests,
      fun t' ht' => ?_⟩ hr (fun k => ?_) fun k => ?_, ?_⟩
    · have hbefore := List.flatMap_eq_nil_iff.mp (h.alone.detached p hp hpolicy)
      have hnone : gone = [] ∧ lost₁ = [] ∧ (t.resume opened s.ledger).1.ids = [] := by
        simpa [hids] using hbefore t (List.mem_of_getElem? hn)
      refine List.flatMap_eq_nil_iff.mpr fun t' ht' => ?_
      obtain ht' | rfl := List.mem_or_eq_of_mem_set ht'
      · exact hbefore t' ht'
      · exact hnone.2.2
    · obtain ht' | rfl := List.mem_or_eq_of_mem_set ht'
      · exact h.alone.teardowns t' ht'
      · exact ht
    · have hcount := hset k
      simp only [books, Books.all, Books.due, live, owed, tearing, hids, List.count_append] at hcount ⊢
      omega
    · have hcount := hset k
      simp only [books, Books.due, live, tearing, hids, List.count_append] at hcount ⊢
      omega
    · simp [hstopped, and_comm]

theorem Trail.tearDownOne (h : s.Trail lost) (id : UInt16) (opened : Gates) :
    s.Continues lost (.tearDownOne id opened) := by
  unfold Continues
  simp only [Hosting.step, Loses, Detaches]
  cases hp : s.host.find? id with
  | none => exact ⟨lost, h, by simp⟩
  | some p =>
    have hsole := h.alone.eq_singleton (List.mem_of_find?_eq_some hp)
    obtain ⟨lost', ht, hl⟩ := h.tearDown hsole opened (.refl s.ledger) (s.host.put (p.tearDown opened s.ledger).1)
      (.inr (by simp [Host.put, hsole, Host.insert, Provider.tearDown, Provider.id]))
    exact ⟨lost', ht, by simpa using hl⟩

/-- A host without a provider has nothing to tear down, and the teardown of one provider is that of its host. -/
theorem Trail.tearDownHost (h : s.Trail lost) (opened : Gates) : s.Continues lost (.tearDown opened) := by
  unfold Continues
  simp only [Hosting.step, Loses, Detaches, Host.tearDown]
  cases hproviders : s.host.providers with
  | nil =>
    have hnobody : ∀ {P : Provider → Prop}, ∀ p ∈ ([] : List Provider), P p := fun p hp => absurd hp List.not_mem_nil
    refine ⟨lost, h.shift ⟨Nat.zero_le 1, hnobody, hnobody, h.alone.requests, fun t ht => ?_⟩ (.refl _)
      (fun k => ?_) fun k => ?_, ?_⟩
    · obtain ht | ht := List.mem_append.mp ht
      · exact h.alone.teardowns t ht
      · exact List.mem_singleton.mp ht ▸ trivial
    · simp [books, Books.all, Books.due, live, owed, tearing, hproviders, Teardown.all, Teardown.ids]
    · simp [books, Books.due, live, tearing, hproviders, Teardown.all, Teardown.ids]
    · have hnot : ¬ Teardown.finished.IsPanicked := not_false
      simp [Teardown.all, hnot]
  | cons p ps =>
    have hsole := h.alone.eq_singleton (hproviders ▸ List.mem_cons_self (a := p))
    obtain rfl : ps = [] := (List.cons.inj (hproviders.symm.trans hsole)).2
    have hlogged : s.ledger.Reports [] (s.ledger.logged (.tearingDown p.id)) :=
      Ledger.reports_aside (fun _ => rfl) s.ledger
    obtain ⟨lost', ht, hl⟩ := h.tearDown hsole opened hlogged { s.host with providers := [] } (.inl rfl)
    rw [Teardown.all_alone]
    exact ⟨lost', ht, by simpa using hl⟩

theorem Trail.requestShutdown (h : s.Trail lost) : s.Continues lost .requestShutdown := by
  have hl : s.ledger.Reports [] (s.host.requestShutdown s.ledger).2 := by
    simp only [Host.requestShutdown]
    split
    · exact .refl _
    · exact Ledger.reports_aside (fun _ => rfl) _
  refine ⟨lost, ?_, by simp [Loses, Detaches]⟩
  exact h.shift ⟨h.alone.one, h.alone.providers, h.alone.detached, h.alone.requests, h.alone.teardowns⟩ hl
    (fun k => (Nat.zero_add _).symm) fun k => Nat.le_refl _

theorem Trail.step (h : s.Trail lost) {m : Move} (hm : m.IsService) (hd : (s.step m).ledger.Distinct) :
    s.Continues lost m := by
  cases m with
  | provide o f => exact hm.elim
  | deregister id => exact hm.elim
  | request id r opened => exact h.request id r opened hd
  | resume n opened => exact h.resume n opened
  | tearDownOne id opened => exact h.tearDownOne id opened
  | tearDown opened => exact h.tearDownHost opened
  | resumeTeardown n opened => exact h.resumeTeardown n opened
  | requestShutdown => exact h.requestShutdown

end Trail

end Hosting
end SequencerHub

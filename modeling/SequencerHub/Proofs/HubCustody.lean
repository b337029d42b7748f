import SequencerHub.Proofs.Custody
import SequencerHub.Proofs.Exchange
import SequencerHub.Proofs.Hosting
import SequencerHub.Proofs.Tables

/-! Where the instances of all hosts are: in one registry of one provider, with a teardown that is to destroy them, or
under destruction. Whatever happens between hosts and clients, no instance is in two of these places. -/
namespace SequencerHub

theorem Registry.serials_erase_sublist (r : Registry) (id : SequencerId) :
    (r.erase id).serials.Sublist r.serials := List.filter_sublist.map _

theorem Registry.count_erase {r : Registry} {id : SequencerId} {i : Instance} (h : r.find? id = some i) (k : Nat) :
    (r.erase id).serials.count k + [i.serial].count k ≤ r.serials.count k := by
  induction r with
  | nil => simp [find?_nil] at h
  | cons x r ih =>
    rw [find?_cons] at h
    split_ifs at h with hx
    · obtain rfl := Option.some.inj h
      have he : erase (x :: r) id = erase r id := by simp [erase, hx]
      have hs := (serials_erase_sublist r id).count_le k
      rw [he]
      simp only [serials, List.map_cons, List.count_cons, List.count_nil] at hs ⊢
      omega
    · have he : erase (x :: r) id = x :: erase r id := by simp [erase, hx]
      have hr := ih h
      rw [he]
      simp only [serials, List.map_cons, List.count_cons, List.count_nil] at hr ⊢
      omega

namespace Provider

variable {p : Provider} {q : Request} {l : Ledger} {out : Provider × Work × Ledger}

theorem begins_destroy (p : Provider) (q : Request) (l : Ledger) :
    (∃ token id i, q = .destroy token id ∧ p.access? q l = some (.remove id) ∧ p.live.find? id = some i ∧
        p.begins q l = [(i.serial, .destroy)]) ∨
      (p.begins q l).filter (·.2 = .destroy) = [] := by
  cases q with
  | destroy token id =>
    by_cases ht : p.admits token = true
    · cases hf : p.live.find? id with
      | none => exact .inr (by simp [begins, access?, ht, Access.finds, Access.target?, hf])
      | some i =>
        refine .inl ⟨token, id, i, rfl, by simp [access?, ht], hf, ?_⟩
        simp [begins, access?, ht, Access.finds, Access.target?, hf, Request.call?]
    · exact .inr (by simp [begins, access?, ht])
  | _ =>
    refine .inr ?_
    unfold begins
    split
    · rename_i hcall
      cases hcall
      all_goals rfl
    · rfl

/-- Only what is constructed comes into the registry. -/
theorem Served.count_live (h : Served p q l out) (k : Nat) : out.1.live.serials.count k ≤
    p.live.serials.count k + ((p.constructed? q l).toList.map Instance.serial).count k := by
  rw [h.provider]
  cases ha : p.access? q l with
  | none => exact Nat.le_add_right _ _
  | some a =>
    obtain hasks | ⟨i, hi, rfl⟩ := access?_cases ha
    · have hs : (a.on p.live).serials.Sublist p.live.serials := by
        cases q <;> cases hasks
        all_goals first | exact List.Sublist.refl _ | exact Registry.serials_erase_sublist ..
      exact Nat.le_trans (hs.count_le k) (Nat.le_add_right _ _)
    · have hs := (Registry.serials_erase_sublist p.live l.nextId).count_le k
      simp only [Option.elim_some, Access.on, Registry.insert, hi, Option.toList_some, Registry.serials,
        List.map_append, List.map_cons, List.map_nil, List.count_append] at hs ⊢
      omega

theorem Served.count (h : Served p q l out) (k : Nat) :
    out.1.live.serials.count k + out.2.2.destroyed.count k ≤ p.live.serials.count k + l.destroyed.count k +
      ((p.constructed? q l).toList.map Instance.serial).count k := by
  rw [Ledger.destroyed_of_calls h.calls, List.count_append]
  obtain ⟨token, id, i, rfl, ha, hi, hb⟩ | hb := p.begins_destroy q l
  · have he := Registry.count_erase hi k
    simp only [h.provider, ha, Option.elim_some, Access.on, hb]
    simp only [List.filter_cons, List.filter_nil, decide_true, if_true, List.map_cons, List.map_nil]
    omega
  · have hl := h.count_live k
    simp only [hb, List.map_nil, List.count_nil]
    omega

end Provider

namespace Host

def serials (h : Host) : List Nat := h.providers.flatMap fun p => p.live.serials

/-- Every provider id is taken once, and the providers stand in the order of their ids. -/
def Ordered (h : Host) : Prop := h.providers.Pairwise fun p q => p.id < q.id

theorem mem_insert {p x : Provider} {ps : List Provider} (h : x ∈ insert p ps) : x = p ∨ x ∈ ps :=
  (insert_putsInOrder p).mem h

theorem ordered_put {h : Host} (ho : h.Ordered) (p : Provider) : (h.put p).Ordered := (insert_putsInOrder p).pairwise ho

theorem exists_insert {ps : List Provider} (ho : ps.Pairwise fun p q => p.id < q.id) {p p' : Provider}
    (hp : ps.find? (·.id = p'.id) = some p) :
    ∃ before after, ps = before ++ p :: after ∧ insert p' ps = before ++ p' :: after := by
  induction ps with
  | nil => cases hp
  | cons q ps ih =>
    obtain ⟨hq, hps⟩ := List.pairwise_cons.mp ho
    by_cases hid : q.id = p'.id
    · obtain rfl : q = p := by simpa [hid] using hp
      refine ⟨[], ps, rfl, ?_⟩
      simp [insert, hid]
    · have hfind : ps.find? (·.id = p'.id) = some p := by simpa [hid] using hp
      have hlt : q.id < p'.id := by
        have hpid : p.id = p'.id := by simpa using List.find?_some hfind
        exact hpid ▸ hq p (List.mem_of_find?_eq_some hfind)
      obtain ⟨before, after, hps', hins⟩ := ih hps hfind
      refine ⟨q :: before, after, by rw [hps']; rfl, ?_⟩
      rw [insert, if_neg (UInt16.lt_asymm hlt), if_neg (Ne.symm hid), hins]
      rfl

theorem count_put {h : Host} (ho : h.Ordered) {p p' : Provider} (hp : h.find? p'.id = some p) (k : Nat) :
    (h.put p').serials.count k + p.live.serials.count k = h.serials.count k + p'.live.serials.count k := by
  obtain ⟨before, after, hps, hins⟩ := exists_insert ho hp
  have hput : (h.put p').providers = before ++ p' :: after := hins
  simp only [serials, hput, hps, List.flatMap_append, List.flatMap_cons, List.count_append]
  omega

theorem count_put_le (h : Host) (p : Provider) (k : Nat) :
    (h.put p).serials.count k ≤ h.serials.count k + p.live.serials.count k := by
  obtain ⟨address, ps, stopping⟩ := h
  simp only [serials, put]
  induction ps with
  | nil => simp [insert]
  | cons q ps ih =>
    simp only [insert]
    split_ifs <;> simp only [List.flatMap_cons, List.count_append] <;> omega

end Host

/-- One for an instance that is constructed between two ledgers. -/
def Ledger.news (l l' : Ledger) (k : Nat) : Nat := if l.built.length ≤ k ∧ k < l'.built.length then 1 else 0

namespace Task

def awaited : Task → List Nat
  | tearing t => t.pending.map Instance.serial
  | _ => []

def IsTearing : Task → Prop
  | tearing _ => True
  | _ => False

theorem awaited_of_not_isTearing {t : Task} (h : ¬ t.IsTearing) : t.awaited = [] := by
  cases t with
  | tearing t => exact absurd trivial h
  | _ => rfl

theorem not_isTearing_ofDispatch (link : Link) (providerId : UInt16) (d : Dispatch) :
    ¬ (Task.ofDispatch link providerId d).IsTearing := by
  cases d <;> exact not_false

end Task

namespace Hub

variable (h : Hub)

def registered : List Nat := h.hosts.flatMap Host.serials

/-- Every instance that is registered, waits for its turn in a teardown or is under destruction. -/
def tally : List Nat := h.registered ++ (h.tasks.flatMap Task.awaited ++ h.ledger.destroyed)

/-- What is true of all hosts at all times. -/
structure Sound : Prop where
  ordered : ∀ host ∈ h.hosts, host.Ordered
  once : h.tally.Nodup
  built : ∀ k ∈ h.tally, k < h.ledger.built.length

/-- What can become of the instances: nothing that has been called is taken back, and only those that have just been
constructed are new to the tally. -/
structure Conserves (h h' : Hub) : Prop where
  ordered : ∀ host ∈ h'.hosts, host.Ordered
  grows : h.ledger.Grows h'.ledger
  count : ∀ k, h'.tally.count k ≤ h.tally.count k + h.ledger.news h'.ledger k

section Conserves

variable {h} {h' h'' : Hub}

theorem Sound.of_conserves (hs : h.Sound) (hc : Conserves h h') : h'.Sound := by
  have hold : ∀ k, h.ledger.built.length ≤ k → h.tally.count k = 0 := fun k hk =>
    List.count_eq_zero.mpr fun hmem => Nat.not_lt.mpr hk (hs.built k hmem)
  refine ⟨hc.ordered, List.nodup_iff_count_le_one.mpr fun k => ?_, fun k hk => ?_⟩
  · have hcount := hc.count k
    have honce := List.nodup_iff_count_le_one.mp hs.once k
    have hk := hold k
    unfold Ledger.news at hcount
    split_ifs at hcount <;> omega
  · have hcount := hc.count k
    have hpos : 0 < h'.tally.count k := List.count_pos_iff.mpr hk
    have hgrows := hc.grows.built
    by_cases hmem : k ∈ h.tally
    · exact Nat.lt_of_lt_of_le (hs.built k hmem) hgrows
    · rw [List.count_eq_zero.mpr hmem, Ledger.news] at hcount
      split_ifs at hcount <;> omega

theorem Conserves.refl (hs : h.Sound) : Conserves h h :=
  ⟨hs.ordered, .refl _, fun _ => Nat.le_add_right _ _⟩

theorem Conserves.trans (a : Conserves h h') (b : Conserves h' h'') : Conserves h h'' := by
  refine ⟨b.ordered, a.grows.trans b.grows, fun k => ?_⟩
  have ha := a.count k
  have hb := b.count k
  have hga := a.grows.built
  have hgb := b.grows.built
  unfold Ledger.news at *
  split_ifs at * <;> omega

/-- What leaves all instances where they are. -/
theorem Conserves.of_eq (hs : h.Sound) (hh : h'.hosts = h.hosts) (ht : h'.tasks = h.tasks)
    (hl : h.ledger.SameBooks h'.ledger) : Conserves h h' := by
  refine ⟨hh ▸ hs.ordered, hl.grows, fun k => ?_⟩
  simp only [tally, registered, hh, ht, hl.destroyed]
  exact Nat.le_add_right _ _

end Conserves

section Set

variable {h} {n : Nat} {host : Host}

theorem count_flatMap_set {α β : Type} [DecidableEq β] {xs : List α} {x : α} (hx : xs[n]? = some x) (y : α)
    (f : α → List β) (k : β) :
    ((xs.set n y).flatMap f).count k + (f x).count k = (xs.flatMap f).count k + (f y).count k := by
  obtain ⟨before, after, hb, hset⟩ := Traffic.exists_set hx
  rw [hset y]
  simp only [hb, List.flatMap_append, List.flatMap_cons, List.count_append]
  omega

/-- One host takes the place of another, and what is in its registries has been there before, or has just been
constructed. -/
theorem Conserves.setHost (hs : h.Sound) (hn : h.hosts[n]? = some host) {host' : Host} (ho : host'.Ordered) {l : Ledger}
    (hg : h.ledger.Grows l) (hc : ∀ k, host'.serials.count k + l.destroyed.count k ≤
      host.serials.count k + h.ledger.destroyed.count k + h.ledger.news l k) :
    Conserves h (h.setHost n host' l) := by
  refine ⟨fun x hx => ?_, hg, fun k => ?_⟩
  · rcases List.mem_or_eq_of_mem_set hx with hx | rfl
    · exact hs.ordered x hx
    · exact ho
  · have hcount := count_flatMap_set hn host' Host.serials k
    have hle := hc k
    simp only [tally, registered, Hub.setHost, List.count_append] at hcount ⊢
    omega

theorem Conserves.setHost_of_eq (hs : h.Sound) (hn : h.hosts[n]? = some host) {host' : Host}
    (hp : host'.providers = host.providers) {l : Ledger} (hl : h.ledger.SameBooks l) :
    Conserves h (h.setHost n host' l) := by
  have ho : host.Ordered := hs.ordered _ (List.mem_of_getElem? hn)
  refine .setHost hs hn (by rwa [Host.Ordered, hp]) hl.grows fun k => ?_
  simp only [Host.serials, hp, hl.destroyed]
  exact Nat.le_add_right _ _

end Set

section Task

variable {h}

/-- What comes of a task that goes on: the instances stay where they are, a provider serves a request, or a teardown
goes on. -/
inductive Ran (h : Hub) (t : Task) : Hub × Task → Prop
  | aside {l : Ledger} {t' : Task} (hl : h.ledger.SameBooks l) (ht : ¬ t.IsTearing) (ht' : ¬ t'.IsTearing) :
      Ran h t ({ h with ledger := l }, t')
  | served {n : Nat} {host : Host} {id : UInt16} {p : Provider} {q : Request} {l : Ledger} {t' : Task}
      (hn : h.hosts[n]? = some host) (hp : host.find? id = some p) (hl : (p.handle q h.ledger).2.2.SameBooks l)
      (ht : ¬ t.IsTearing) (ht' : ¬ t'.IsTearing) : Ran h t (h.setHost n (host.put (p.handle q h.ledger).1) l, t')
  | torn (t₀ : Teardown) (ht : t = .tearing t₀) : Ran h t
      ({ h with ledger := (t₀.resume h.opened h.ledger).2 }, .tearing (t₀.resume h.opened h.ledger).1)

theorem deliver_ran {t : Task} (ht : ¬ t.IsTearing) (n : Nat) (link : Link) (providerId : UInt16) (q : Request) :
    Ran h t (h.deliver n link providerId q) := by
  simp only [deliver]
  split
  · exact .aside (.refl _) ht not_false
  · rename_i host hn
    cases hp : host.find? providerId with
    | none =>
      have hd : host.dispatch h.opened providerId q h.ledger = none := by simp only [Host.dispatch, hp]
      simp only [hd]
      exact .aside (.refl _) ht not_false
    | some p =>
      simp only [host.dispatch_of_find? hp h.opened q h.ledger]
      exact .served hn hp (Host.sameBooks_dispatch p providerId h.opened q h.ledger) ht
        (Task.not_isTearing_ofDispatch _ _ _)

theorem send_ran {t : Task} (ht : ¬ t.IsTearing) (link : Link) (providerId : UInt16) (q : Request) :
    Ran h t (h.send link providerId q) := by
  cases link with
  | direct n => exact deliver_ran ht ..
  | named address =>
    simp only [send]
    split
    · exact deliver_ran ht ..
    · exact .aside (.refl _) ht not_false
  | http base =>
    simp only [send, sendHttp]
    split
    · split
      · exact .aside (.refl _) ht not_false
      · exact deliver_ran ht ..
      · exact .aside (.refl _) ht not_false
    · exact .aside (.refl _) ht not_false

theorem run_ran (t : Task) : Ran h t (h.run t) := by
  cases t with
  | sending link providerId q => exact send_ran (t := .sending link providerId q) not_false link providerId q
  | serving link providerId d =>
    exact .aside (d.sameBooks_resume h.opened h.ledger) not_false (Task.not_isTearing_ofDispatch _ _ _)
  | replied r => exact .aside (.refl _) not_false not_false
  | tearing t₀ => exact .torn t₀ rfl

theorem Conserves.setTask {n : Nat} {t : Task} (hn : h.tasks[n]? = some t) (h' : Hub) (ht : h'.tasks = h.tasks)
    (t' : Task) (ho : ∀ host ∈ h'.hosts, host.Ordered) (hg : h.ledger.Grows h'.ledger)
    (hc : ∀ k, h'.tally.count k + t'.awaited.count k ≤
      h.tally.count k + t.awaited.count k + h.ledger.news h'.ledger k) :
    Conserves h { h' with tasks := h.tasks.set n t' } := by
  refine ⟨ho, hg, fun k => ?_⟩
  have hcount := count_flatMap_set hn t' Task.awaited k
  have hle := hc k
  simp only [tally, registered, ht, List.count_append] at hcount hle ⊢
  omega

theorem Conserves.served (hs : h.Sound) {n : Nat} {host : Host} {id : UInt16} {p : Provider} {q : Request} {l : Ledger}
    (hn : h.hosts[n]? = some host) (hp : host.find? id = some p) (hl : (p.handle q h.ledger).2.2.SameBooks l) :
    Conserves h (h.setHost n (host.put (p.handle q h.ledger).1) l) := by
  have ho : host.Ordered := hs.ordered _ (List.mem_of_getElem? hn)
  have hserved := p.handle_served q h.ledger
  have hid : (p.handle q h.ledger).1.id = id := by
    have hp' : p.id = id := by simpa using List.find?_some hp
    rw [p.handle_id, hp']
  refine .setHost hs hn (Host.ordered_put ho _) (hserved.grows.trans hl.grows) fun k => ?_
  have hput := Host.count_put ho (hid.symm ▸ hp) k
  have hcount := hserved.count k
  have hnew : ((p.constructed? q h.ledger).toList.map Instance.serial).count k ≤ h.ledger.news l k := by
    have hbuilt := hl.built ▸ hserved.built
    cases hc : p.constructed? q h.ledger with
    | none => exact Nat.zero_le _
    | some i =>
      rw [hc] at hbuilt
      simp only [Option.toList_some, List.map_cons, List.map_nil, List.length_singleton, List.count_singleton,
        Provider.constructed?_serial hc, beq_iff_eq, Ledger.news] at hbuilt ⊢
      split_ifs <;> omega
  rw [hl.destroyed]
  omega

theorem Sound.advance (hs : h.Sound) (k : Nat) : Conserves h (h.advance k) := by
  cases hk : h.tasks[k]? with
  | none =>
    simp only [Hub.advance, hk]
    exact .refl hs
  | some t =>
    rw [h.advance_eq t hk]
    have hran := run_ran (h := h) t
    generalize h.run t = out at hran
    cases hran with
    | @aside l t' hl ht ht' =>
      refine .setTask hk { h with ledger := l } rfl t' hs.ordered hl.grows fun k => ?_
      simp only [tally, registered, hl.destroyed, Task.awaited_of_not_isTearing ht, Task.awaited_of_not_isTearing ht']
      exact Nat.le_add_right _ _
    | @served n host id p q l t' hn hp hl ht ht' =>
      have hc := Conserves.served hs hn hp hl
      refine .setTask hk (h.setHost n (host.put (p.handle q h.ledger).1) l) rfl t' hc.ordered hc.grows fun k => ?_
      have hcount := hc.count k
      rw [Task.awaited_of_not_isTearing ht, Task.awaited_of_not_isTearing ht']
      omega
    | torn t₀ ht =>
      obtain ⟨done, lost, hd, ho, -⟩ := Teardown.resume_discharges h.opened t₀ h.ledger
      refine .setTask hk { h with ledger := (t₀.resume h.opened h.ledger).2 } rfl _ hs.ordered hd.grows fun k => ?_
      simp only [tally, registered, hd.destroyed, ht, Task.awaited, ho, List.map_append, List.count_append]
      omega

theorem Sound.advanceAll (hs : h.Sound) (ks : List Nat) : Conserves h (ks.foldl Hub.advance h) :=
  List.foldlRecOn ks Hub.advance (.refl hs) fun _ hc k _ => hc.trans ((hs.of_conserves hc).advance k)

end Task

section Step

variable {h}

theorem count_doomed_le (ps : List Provider) (k : Nat) : ((ps.flatMap Provider.doomed).map Instance.serial).count k ≤
    (ps.flatMap fun p => p.live.serials).count k := by
  induction ps with
  | nil => exact Nat.le_refl _
  | cons p ps ih =>
    have hp : (p.doomed.map Instance.serial).count k ≤ p.live.serials.count k := by
      unfold Provider.doomed Registry.serials
      cases p.options.teardown with
      | destroy => exact Nat.le_of_eq (by rw [List.map_map]; rfl)
      | detach => exact Nat.zero_le _
    simp only [List.flatMap_cons, List.map_append, List.count_append]
    exact Nat.add_le_add hp ih

/-- What comes of one thing that happens: the hosts and tasks stay as they are, there is a new host or a new task, one
host is asked to stop or has other providers, or tasks go on. -/
inductive Stepped (h : Hub) : Move → Hub → Prop
  | kept {m : Move} {h' : Hub} (hh : h'.hosts = h.hosts) (ht : h'.tasks = h.tasks) (hl : h.ledger.SameBooks h'.ledger) :
      Stepped h m h'
  | added (address : String) : Stepped h (.addHost address) (h.addHost address).1
  | asked {m : Move} {n : Nat} {host : Host} {l : Ledger} (hn : h.hosts[n]? = some host) (hl : h.ledger.SameBooks l) :
      Stepped h m (h.setHost n { host with stopping := true } l)
  | provided {n : Nat} {o : ProviderOptions} {f : Factory} {host : Host} {l : Ledger} (hn : h.hosts[n]? = some host)
      (hl : h.ledger.SameBooks l) : Stepped h (.provide n o f) (h.setHost n (host.put { options := o, factory := f }) l)
  | thinned {n : Nat} {id : UInt16} {host : Host} {l : Ledger} (hn : h.hosts[n]? = some host)
      (hl : h.ledger.SameBooks l) : Stepped h (.deregister n id)
        (h.setHost n { host with providers := host.providers.filter (·.id ≠ id) } l)
  | emptied {n : Nat} {host : Host} {t : Teardown} {l : Ledger} (hn : h.hosts[n]? = some host)
      (ht : Teardown.all h.opened host.providers h.ledger = (t, l)) :
      Stepped h (.tearDown n) ((h.setHost n { host with providers := [] } l).start (.tearing t)).1
  | sent (link : Link) (providerId : UInt16) (q : Request) :
      Stepped h (.send link providerId q) (h.start (.sending link providerId q)).1
  | advanced (k : Nat) : Stepped h (.advance k) (h.advance k)
  | opened (gate : String) : Stepped h (.openGate gate) (h.openGate gate)

theorem provide_stepped (n : Nat) (o : ProviderOptions) (f : Factory) :
    Stepped h (.provide n o f) (h.provide n o f) := by
  have hl := h.ledger.sameBooks_logged (.providerCreated o)
  simp only [provide]
  split
  · exact .kept rfl rfl hl
  · rename_i host hn
    simp only [Host.register]
    cases host.find? (Provider.id { options := o, factory := f }) with
    | some p => exact .kept rfl rfl hl
    | none => exact .provided hn (hl.trans (Ledger.sameBooks_logged _ _))

theorem deregister_stepped (n : Nat) (providerId : UInt16) :
    Stepped h (.deregister n providerId) (h.deregister n providerId) := by
  simp only [deregister]
  split
  · exact .kept rfl rfl (.refl _)
  · rename_i host hn
    simp only [Host.deregister]
    split
    · obtain ⟨hlt, hhost⟩ := List.getElem?_eq_some_iff.mp hn
      have hsame : h.hosts.set n host = h.hosts := by rw [← hhost, List.set_getElem_self]
      exact .kept hsame rfl (.refl _)
    · exact .thinned hn (h.ledger.sameBooks_logged _)

theorem step_stepped (h : Hub) (m : Move) : Stepped h m (h.step m) := by
  have hlogged : ∀ e, h.ledger.SameBooks (h.ledger.logged e) := h.ledger.sameBooks_logged
  cases m with
  | addHost address => exact .added address
  | bind n =>
    simp only [step, bind]
    split
    · exact .kept rfl rfl (.refl _)
    · exact .kept rfl rfl (hlogged _)
  | unbind address => exact .kept rfl rfl (.refl _)
  | listen n listener =>
    simp only [step, listen]
    split
    · exact .kept rfl rfl (.refl _)
    · exact .kept rfl rfl (hlogged _)
  | stopServing n => exact .kept rfl rfl (hlogged _)
  | connect online => exact .kept rfl rfl (.refl _)
  | cancel n =>
    simp only [step, cancel]
    split
    · exact .kept rfl rfl (.refl _)
    · rename_i hn
      exact .asked hn (.refl _)
  | stop n =>
    simp only [step, stop]
    split
    · exact .kept rfl rfl (.refl _)
    · rename_i host hn
      exact .asked hn (host.sameBooks_requestShutdown h.ledger)
  | provide n o f => exact provide_stepped n o f
  | deregister n providerId => exact deregister_stepped n providerId
  | tearDown n =>
    simp only [step, tearDown]
    split
    · exact .kept rfl rfl (.refl _)
    · rename_i hn
      exact .emptied hn rfl
  | send link providerId q => exact .sent link providerId q
  | advance k => exact .advanced k
  | openGate gate => exact .opened gate
  | closeGate gate => exact .kept rfl rfl (.refl _)
  | log e => exact .kept rfl rfl (hlogged e)

theorem Conserves.provided (hs : h.Sound) {n : Nat} {host : Host} (hn : h.hosts[n]? = some host) {l : Ledger}
    (hl : h.ledger.SameBooks l) (o : ProviderOptions) (f : Factory) :
    Conserves h (h.setHost n (host.put { options := o, factory := f }) l) := by
  have ho : host.Ordered := hs.ordered _ (List.mem_of_getElem? hn)
  refine .setHost hs hn (Host.ordered_put ho _) hl.grows fun k => ?_
  have hput := host.count_put_le { options := o, factory := f } k
  have hnone : (Provider.live { options := o, factory := f }).serials.count k = 0 := rfl
  rw [hl.destroyed]
  omega

/-- The instances of a provider that is taken out are registered nowhere. -/
theorem Conserves.thinned (hs : h.Sound) {n : Nat} {host : Host} (hn : h.hosts[n]? = some host) {l : Ledger}
    (hl : h.ledger.SameBooks l) (id : UInt16) :
    Conserves h (h.setHost n { host with providers := host.providers.filter (·.id ≠ id) } l) := by
  have ho : host.Ordered := hs.ordered _ (List.mem_of_getElem? hn)
  have ho' : Host.Ordered { host with providers := host.providers.filter (·.id ≠ id) } := List.Pairwise.filter _ ho
  refine .setHost hs hn ho' hl.grows fun k => ?_
  have hle : ((host.providers.filter (·.id ≠ id)).flatMap fun p => p.live.serials).count k ≤ host.serials.count k :=
    (List.filter_sublist.flatMap _).count_le k
  rw [hl.destroyed]
  exact Nat.le_trans (Nat.add_le_add_right hle _) (Nat.le_add_right _ _)

section TearDown

variable {n : Nat} {host : Host} {order : List Provider} {t : Teardown} {l : Ledger}

/-- Nothing of a host that is torn down counts any more but what is to be destroyed. -/
theorem count_emptied (hn : h.hosts[n]? = some host) (ht : Teardown.all h.opened order h.ledger = (t, l)) (k : Nat) :
    ((h.setHost n { host with providers := [] } l).start (.tearing t)).1.tally.count k + host.serials.count k ≤
      h.tally.count k + ((order.flatMap Provider.doomed).map Instance.serial).count k := by
  obtain ⟨done, lost, hd, hsplit, -⟩ := Teardown.all_discharges h.opened order h.ledger
  rw [ht] at hd hsplit
  have hcount := count_flatMap_set hn { host with providers := [] } Host.serials k
  have hnone : (Host.serials { host with providers := [] }).count k = 0 := rfl
  rw [hsplit]
  simp only [tally, registered, Hub.setHost, start, hd.destroyed, List.map_append, List.flatMap_append,
    List.flatMap_cons, List.flatMap_nil, Task.awaited, List.count_append, List.count_nil] at *
  omega

theorem Conserves.emptied (hs : h.Sound) (hn : h.hosts[n]? = some host)
    (howed : ∀ k, ((order.flatMap Provider.doomed).map Instance.serial).count k ≤ host.serials.count k)
    (ht : Teardown.all h.opened order h.ledger = (t, l)) :
    Conserves h ((h.setHost n { host with providers := [] } l).start (.tearing t)).1 := by
  obtain ⟨done, lost, hd, -, -⟩ := Teardown.all_discharges h.opened order h.ledger
  rw [ht] at hd
  refine ⟨fun x hx => ?_, hd.grows, fun k => ?_⟩
  · rcases List.mem_or_eq_of_mem_set hx with hx | rfl
    · exact hs.ordered x hx
    · exact List.Pairwise.nil
  · have hcount := count_emptied hn ht k
    have hle := howed k
    omega

end TearDown

theorem Sound.step (hs : h.Sound) (m : Move) : Conserves h (h.step m) := by
  have hstepped := h.step_stepped m
  generalize h.step m = h' at hstepped
  cases hstepped with
  | kept hh ht hl => exact .of_eq hs hh ht hl
  | added address =>
    refine ⟨fun x hx => ?_, .refl _, fun k => ?_⟩
    · rcases List.mem_append.mp hx with hx | hx
      · exact hs.ordered x hx
      · obtain rfl := List.mem_singleton.mp hx
        exact List.Pairwise.nil
    · simp [addHost, tally, registered, Host.serials]
  | @asked _ n host l hn hl =>
    exact .setHost_of_eq hs hn (rfl : ({ host with stopping := true } : Host).providers = host.providers) hl
  | provided hn hl => exact .provided hs hn hl _ _
  | thinned hn hl => exact .thinned hs hn hl _
  | emptied hn ht => exact .emptied hs hn (count_doomed_le _) ht
  | sent link providerId q =>
    refine ⟨hs.ordered, .refl _, fun k => ?_⟩
    simp [start, tally, registered, Task.awaited]
  | advanced k => exact hs.advance k
  | opened gate =>
    have hopen : Conserves h { h with opened := gate :: h.opened.filter (· ≠ gate) } := .of_eq hs rfl rfl (.refl _)
    exact hopen.trans ((hs.of_conserves hopen).advanceAll _)

/-- Whatever happens between hosts and clients, no instance gets to two places. -/
theorem Sound.steps (hs : h.Sound) (ms : List Move) : Conserves h (h.steps ms) :=
  List.foldlRecOn ms Hub.step (.refl hs) fun _ hc m _ => hc.trans ((hs.of_conserves hc).step m)

/-- What has been destroyed is never destroyed again, nor registered. -/
theorem Conserves.destroyed_once {h' : Hub} (hs : h.Sound) (hc : Conserves h h') {k : Nat}
    (hk : k ∈ h.ledger.destroyed) : h'.ledger.destroyed.count k = 1 ∧ k ∉ h'.registered := by
  have hmem : k ∈ h'.ledger.destroyed := by
    obtain ⟨more, hmore⟩ := hc.grows.calls
    rw [Ledger.destroyed_of_calls hmore.symm]
    exact List.mem_append_left _ hk
  have ht := (hs.of_conserves hc).once
  rw [tally, ← List.append_assoc] at ht
  obtain ⟨-, honce, hdisjoint⟩ := List.nodup_append.mp ht
  exact ⟨List.count_eq_one_of_mem honce hmem, fun hr => hdisjoint k (List.mem_append_left _ hr) k hmem rfl⟩

end Step

def reached? (h : Hub) : Link → Option Nat
  | .direct n => some n
  | .named address => h.hostAt? address
  | .http base =>
    if h.online then (h.serverAt? base).bind fun server => if server.2 = "" then some server.1 else none else none

theorem reaches_of_reached? {h : Hub} {link : Link} {n : Nat} (hr : h.reached? link = some n) : h.Reaches n link := by
  cases link with
  | direct m => exact Option.some.inj hr
  | named address => exact hr
  | http base =>
    obtain ⟨honline, hserver⟩ := Option.ite_none_right_eq_some.mp hr
    obtain ⟨server, hserver, hpath⟩ := Option.bind_eq_some_iff.mp hserver
    obtain ⟨hpath, hn⟩ := Option.ite_none_right_eq_some.mp hpath
    exact ⟨honline, hserver.trans (congrArg some (Prod.ext (Option.some.inj hn) hpath))⟩

/-- The instance that a request to destroy a sequencer takes out of a registry as soon as the task of a number goes
on. -/
def unregisters? (h : Hub) (k : Nat) : Option Instance :=
  match h.tasks[k]? with
  | some (.sending link id (.destroy token sid)) =>
    (h.reached? link).bind fun n => (h.providerAt? n id).bind fun p =>
      if p.admits token then p.live.find? sid else none
  | _ => none

section Unregisters

variable {h : Hub} {k : Nat} {i : Instance}

theorem unregisters?_eq_some (hu : h.unregisters? k = some i) : ∃ link n id token sid p,
    h.tasks[k]? = some (.sending link id (.destroy token sid)) ∧ h.Reaches n link ∧ h.providerAt? n id = some p ∧
      p.admits token = true ∧ p.live.find? sid = some i := by
  unfold unregisters? at hu
  split at hu
  · rename_i link id token sid hk
    obtain ⟨n, hn, hu⟩ := Option.bind_eq_some_iff.mp hu
    obtain ⟨p, hp, hu⟩ := Option.bind_eq_some_iff.mp hu
    obtain ⟨ht, hi⟩ := Option.ite_none_right_eq_some.mp hu
    exact ⟨link, n, id, token, sid, p, hk, reaches_of_reached? hn, hp, ht, hi⟩
  · cases hu

theorem destroyed_of_unregisters? (hu : h.unregisters? k = some i) : i.serial ∈ (h.advance k).ledger.destroyed := by
  obtain ⟨link, n, id, token, sid, p, hk, hr, hp, ht, hi⟩ := unregisters?_eq_some hu
  obtain ⟨host, hn, hp⟩ := Option.bind_eq_some_iff.mp hp
  have hd := host.dispatch_of_find? hp h.opened (.destroy token sid) h.ledger
  have hb := Host.sameBooks_dispatch p id h.opened (.destroy token sid) h.ledger
  have hserved := p.handle_served (.destroy token sid) h.ledger
  have hbegins : p.begins (.destroy token sid) h.ledger = [(i.serial, .destroy)] := by
    simp [Provider.begins, Provider.access?, ht, Access.finds, Access.target?, hi, Request.call?]
  rw [h.advance_eq _ hk]
  simp only [run, send_of_reaches hr, deliver, hn, hd, setHost]
  rw [hb.destroyed, Ledger.destroyed_of_calls hserved.calls, hbegins]
  simp

end Unregisters
end Hub
end SequencerHub

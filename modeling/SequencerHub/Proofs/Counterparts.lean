import SequencerHub.Proofs.Replies
import SequencerHub.Proofs.Hosting

/-! Two hosts that know the same sequencer, one of them among others and one alone. A request for the sequencer does the
same at both, and a request for another one does nothing to it. -/
namespace SequencerHub

/-- The sequencer that a request is aimed at. A request that constructs one is aimed at none yet. -/
def Request.target? (q : Request) : Option SequencerId := q.asks.bind Access.target?

/-- Backends depend on nothing but the arguments of their constructors and their own calls: it makes no difference how
many have been constructed before. -/
def Factory.Uniform (f : Factory) : Prop :=
  ∀ name c, f.find? name = some c → ∀ how nth nth' args, Constructors.pick c how nth args = c.pick how nth' args

theorem Ledger.history_of_called {l : Ledger} {k : Nat} (h : ∀ c ∈ l.calls, c.1 < k) : l.history k = [] := by
  have hk : l.calls.filter (·.1 = k) = [] := by
    refine List.filter_eq_nil_iff.mpr fun c hc he => ?_
    have hlt := h c hc
    simp only [decide_eq_true_eq] at he
    omega
  rw [history, hk, List.map_nil]

section Work

variable (opened : Gates)

theorem runActs_fst (acts : List Act) (l l' : Ledger) : (runActs opened acts l').1 = (runActs opened acts l).1 := by
  induction acts generalizing l l' with
  | nil => rfl
  | cons a acts ih =>
    cases a with
    | effect e => exact ih _ _
    | await g =>
      simp only [runActs]
      split
      · exact ih _ _
      · rfl

/-- How far a request gets depends on its backend and on the gates only. -/
theorem Work.resume_fst (providerId : UInt16) (w : Work) (l l' : Ledger) :
    (w.resume opened providerId l').1 = (w.resume opened providerId l).1 := by
  have hran : ∀ acts, ∃ left l₁ l₁', runActs opened acts l = (left, l₁) ∧ runActs opened acts l' = (left, l₁') :=
    fun acts => ⟨_, _, (runActs opened acts l').2, rfl, Prod.ext (runActs_fst opened acts l l') rfl⟩
  cases w with
  | ended e => rfl
  | summing acts outcome =>
    obtain ⟨left, l₁, l₁', h, h'⟩ := hran acts
    simp only [resume, h, h']
    cases left <;> rfl
  | destroying id acts outcome =>
    obtain ⟨left, l₁, l₁', h, h'⟩ := hran acts
    simp only [resume, h, h']
    cases left <;> rfl

theorem Work.eq_answered_of_minted? {w : Work} {id : SequencerId} (h : w.minted? = some id) :
    w = .answered (.id id) := by
  unfold minted? at h
  split at h
  · rw [Option.some.inj h]
    rfl
  · cases h

theorem Dispatch.ofWork_fst (providerId : UInt16) (op : Operation) (w : Work) (l l' : Ledger) :
    (ofWork providerId op w l').1 = (ofWork providerId op w l).1 := by
  cases w with
  | ended e => cases e <;> rfl
  | summing acts outcome => rfl
  | destroying id acts outcome => rfl

theorem Dispatch.resume_fst (d : Dispatch) (l l' : Ledger) : (d.resume opened l').1 = (d.resume opened l).1 := by
  cases d with
  | replied reply => rfl
  | running providerId op w =>
    simp only [resume, w.resume_fst opened providerId l l']
    exact ofWork_fst ..

end Work

/-- An instance in the one run and the same in the other, where it has a number of its own. -/
structure Instance.Copy (own : List Nat) (i i' : Instance) : Prop where
  backend : i'.backend = i.backend
  serial : own[i'.serial]? = some i.serial

/-- A provider in the one run and the same in the other, as far as one sequencer is concerned. -/
structure Provider.Counterpart (sid : SequencerId) (own : List Nat) (p p' : Provider) : Prop where
  options : p'.options = p.options
  factory : p'.factory = p.factory
  uniform : p.factory.Uniform
  live : Option.Rel (Instance.Copy own) (p.live.find? sid) (p'.live.find? sid)

namespace Provider

variable {sid : SequencerId} {own : List Nat} {p p' : Provider} {q : Request} {l l' : Ledger}

theorem Counterpart.admits (h : Counterpart sid own p p') (token : String) : p'.admits token = p.admits token := by
  simp only [Provider.admits, isProtected, h.options]

/-- What the one constructs, the other constructs. -/
theorem Counterpart.constructed? (h : Counterpart sid own p p') (q : Request) (l l' : Ledger) :
    p'.constructed? q l' = (p.constructed? q l).map fun i => ⟨l'.built.length, i.backend⟩ := by
  cases q with
  | construct how token sequencerType config =>
    have hid : p'.id = p.id := by simp only [Provider.id, h.options]
    simp only [Provider.constructed?, h.admits, h.factory, hid]
    split
    · cases hf : p.factory.find? sequencerType with
      | none => rfl
      | some c =>
        cases (parseConfig config).toOption with
        | none => rfl
        | some j =>
          have hu := h.uniform sequencerType c hf how l'.built.length l.built.length ⟨p.id, j⟩
          simp only [Option.bind_eq_bind, Option.bind_some, hu]
          cases (c.pick how l.built.length ⟨p.id, j⟩).outcome <;> rfl
    · rfl
  | _ => rfl

theorem Counterpart.cases (h : Counterpart sid own p p') :
    (p.live.find? sid = none ∧ p'.live.find? sid = none) ∨
      ∃ i i', p.live.find? sid = some i ∧ p'.live.find? sid = some i' ∧ Instance.Copy own i i' := by
  have hlive := h.live
  generalize p.live.find? sid = o at hlive ⊢
  generalize p'.live.find? sid = o' at hlive ⊢
  cases hlive with
  | none => exact .inl ⟨rfl, rfl⟩
  | some hc => exact .inr ⟨_, _, rfl, rfl, hc⟩

/-- A request that is aimed at the sequencer does the same in both. -/
theorem Counterpart.work (h : Counterpart sid own p p') (hq : q.target? = some sid)
    (hl : ∀ i i', Instance.Copy own i i' → l'.history i'.serial = l.history i.serial) :
    p'.work l' q = p.work l q := by
  obtain ⟨hn, hn'⟩ | ⟨i, i', hi, hi', hc⟩ := h.cases
  · cases q with
    | construct how token sequencerType config => cases hq
    | close token id =>
      obtain rfl : id = sid := Option.some.inj hq
      simp only [Provider.work, serve, close, h.admits, hn, hn']
      split <;> rfl
    | destroy token id =>
      obtain rfl : id = sid := Option.some.inj hq
      simp only [Provider.work, serve, destroy, h.admits, hn, hn']
      split <;> rfl
    | check id =>
      obtain rfl : id = sid := Option.some.inj hq
      simp only [Provider.work, serve, check, hn, hn']
    | sayHello id =>
      obtain rfl : id = sid := Option.some.inj hq
      simp only [Provider.work, serve, sayHello, hn, hn']
    | computeSum id x y =>
      obtain rfl : id = sid := Option.some.inj hq
      simp only [Provider.work, serve, computeSum, hn, hn']
  · have hh := hl i i' hc
    cases q with
    | construct how token sequencerType config => cases hq
    | close token id =>
      obtain rfl : id = sid := Option.some.inj hq
      simp only [Provider.work, serve, close, h.admits, hi, hi']
      split <;> rfl
    | destroy token id =>
      obtain rfl : id = sid := Option.some.inj hq
      simp only [Provider.work, serve, destroy, h.admits, hi, hi', hc.backend, hh]
      split <;> rfl
    | check id =>
      obtain rfl : id = sid := Option.some.inj hq
      simp only [Provider.work, serve, check, hi, hi']
    | sayHello id =>
      obtain rfl : id = sid := Option.some.inj hq
      simp only [Provider.work, serve, sayHello, hi, hi', hc.backend, hh]
      split <;> rfl
    | computeSum id x y =>
      obtain rfl : id = sid := Option.some.inj hq
      simp only [Provider.work, serve, computeSum, hi, hi', hc.backend, hh]

theorem work_of_constructed {i : Instance} (h : p.constructed? q l = some i) : p.work l q = .answered (.id l.nextId) := by
  have hn : (p.work l q).minted? = some l.nextId := by
    rw [work, (p.serve_served q l).named, h]
    rfl
  exact Work.eq_answered_of_minted? hn

theorem built_of_target {id : SequencerId} (h : q.target? = some id) : (p.handle q l).2.2.built = l.built := by
  have hs : ∀ l : Ledger, (p.serve q l).2.2.built = l.built := by
    intro l
    cases q with
    | construct how token sequencerType config => cases h
    | close token id =>
      simp only [serve, close]
      split
      · split <;> rfl
      · rfl
    | destroy token id =>
      simp only [serve, destroy]
      split
      · split <;> rfl
      · rfl
    | check id => rfl
    | sayHello id =>
      simp only [serve, sayHello]
      split
      · rfl
      · split <;> exact (Ledger.sameBooks_recordedAll _ _).built
    | computeSum id x y =>
      simp only [serve, computeSum]
      split <;> rfl
  exact ((Ledger.sameBooks_loggedAll _ _).built).trans (hs _)

theorem built_of_constructed {i : Instance} (h : p.constructed? q l = some i) :
    (p.handle q l).2.2.built.length = l.built.length + 1 := by
  cases q with
  | construct how token sequencerType config =>
    obtain ⟨ht, hc⟩ := Option.ite_none_right_eq_some.mp h
    obtain ⟨c, hf, hc⟩ := Option.bind_eq_some_iff.mp hc
    obtain ⟨j, hj, -⟩ := Option.bind_eq_some_iff.mp hc
    have hconf : parseConfig config = .ok j := by
      cases hp : parseConfig config <;> simp_all [Except.toOption]
    have hs : ∀ l : Ledger, (p.serve (.construct how token sequencerType config) l).2.2.built.length =
        l.built.length + 1 := by
      intro l
      simp only [serve, construct, ht, if_true, hf, hconf]
      exact length_built_build ..
    exact (congrArg List.length (Ledger.sameBooks_loggedAll _ _).built).trans (hs _)
  | _ => cases h

theorem Served.mem_live {out : Provider × Work × Ledger} (h : Served p q l out) {x : SequencerId × Instance}
    (hx : x ∈ out.1.live) : x ∈ p.live ∨ ∃ i, p.constructed? q l = some i ∧ x = (l.nextId, i) := by
  rw [h.provider] at hx
  cases ha : p.access? q l with
  | none => exact .inl (by simpa [ha] using hx)
  | some a =>
    rw [ha] at hx
    obtain hq | ⟨i, hc, rfl⟩ := access?_cases ha
    · cases q <;> cases hq
      · exact .inl (Registry.mem_erase.mp hx).1
      · exact .inl (Registry.mem_erase.mp hx).1
      · exact .inl hx
      · exact .inl hx
      · exact .inl hx
    · rcases Registry.mem_insert.mp hx with hx | rfl
      · exact .inl hx.1
      · exact .inr ⟨i, hc, rfl⟩

theorem Served.find?_put {out : Provider × Work × Ledger} (h : Served p q l out) {host : Host} {id : UInt16}
    (hp : host.find? id = some p) (id' : UInt16) :
    (host.put out.1).find? id' = if id = id' then some out.1 else host.find? id' := by
  have hid : out.1.id = id := by
    have hpid : p.id = id := by simpa using List.find?_some hp
    rw [h.provider]
    exact hpid
  rw [Host.find?, Host.put, Host.find?_insert, hid]
  rfl

/-- A request that is neither aimed at a sequencer nor constructs it leaves it where it is. -/
theorem Served.find?_live {out : Provider × Work × Ledger} (h : Served p q l out) (hq : q.target? ≠ some sid)
    (hc : ¬ (l.nextId = sid ∧ (p.constructed? q l).isSome)) : out.1.live.find? sid = p.live.find? sid := by
  rw [h.provider]
  cases ha : p.access? q l with
  | none => rfl
  | some a =>
    refine (congrFun (a.find?_on p.live) sid).trans ?_
    obtain hasks | ⟨i, hi, rfl⟩ := access?_cases ha
    · refine Access.apply_ne ?_ ?_ _
      · cases q <;> cases hasks <;> simp_all [Access.Removes, Request.target?, Request.asks, Access.target?]
      · cases q <;> cases hasks <;> exact not_false
    · have hins : ¬ (Access.insert l.nextId i).Inserts sid := fun hn => hc ⟨hn, by rw [hi]; rfl⟩
      have hrem : ¬ (Access.insert l.nextId i).Removes sid := fun hr => hr
      exact Access.apply_ne hrem hins _

theorem Served.find?_constructed {out : Provider × Work × Ledger} (h : Served p q l out) {i : Instance}
    (hi : p.constructed? q l = some i) (hn : l.nextId = sid) : out.1.live.find? sid = some i := by
  have ha : p.access? q l = some (.insert l.nextId i) := by
    cases q with
    | construct how token sequencerType config => rw [access?, hi]; rfl
    | _ => cases hi
  rw [h.provider, ha]
  simp [Access.on, Registry.find?_insert, hn]

theorem begins_of_constructed {i : Instance} (h : p.constructed? q l = some i) : p.begins q l = [] := by
  cases q with
  | construct how token sequencerType config =>
    unfold begins
    split
    · rename_i hcall
      cases hcall
    · rfl
  | _ => cases h

theorem mem_begins {c : Nat × Call} (h : c ∈ p.begins q l) :
    ∃ id i, q.target? = some id ∧ p.live.find? id = some i ∧ c.1 = i.serial := by
  unfold begins at h
  split at h
  · rename_i i call hi hcall
    obtain rfl := List.mem_singleton.mp h
    obtain ⟨a, ha, hf⟩ := Option.bind_eq_some_iff.mp hi
    obtain ⟨id, hid, hfind⟩ := Option.bind_eq_some_iff.mp hf
    obtain hasks | ⟨i', -, rfl⟩ := access?_cases ha
    · exact ⟨id, i, by rw [Request.target?, hasks]; exact hid, hfind, rfl⟩
    · cases hid
  · cases h

theorem constructed?_of_target {id : SequencerId} (h : q.target? = some id) (l : Ledger) :
    p.constructed? q l = none := by
  cases q with
  | construct how token sequencerType config => cases h
  | _ => rfl

theorem Counterpart.access? (h : Counterpart sid own p p') (hq : q.target? = some sid) (l l' : Ledger) :
    p'.access? q l' = p.access? q l := by
  cases q <;> cases hq <;> simp only [Provider.access?, h.admits]

theorem access?_of_target (hq : q.target? = some sid) {a : Access} (ha : p.access? q l = some a) :
    a = .lookup sid ∨ a = .remove sid := by
  obtain hasks | ⟨i, hi, -⟩ := access?_cases ha
  · cases q <;> cases hq <;> cases hasks <;> simp
  · rw [constructed?_of_target hq] at hi
    cases hi

theorem Counterpart.served {out out' : Provider × Work × Ledger} (h : Counterpart sid own p p')
    (hs : Served p q l out) (hs' : Served p' q l' out') (hq : q.target? = some sid) :
    Counterpart sid own out.1 out'.1 := by
  rw [hs.provider, hs'.provider, h.access? hq l l']
  refine ⟨h.options, h.factory, h.uniform, ?_⟩
  cases ha : p.access? q l with
  | none => exact h.live
  | some a =>
    obtain rfl | rfl := access?_of_target hq ha
    · exact h.live
    · simp only [Option.elim_some, Access.on, Registry.find?_erase, if_true]
      exact .none

theorem Counterpart.begins (h : Counterpart sid own p p') (hq : q.target? = some sid) (l l' : Ledger) :
    (p.begins q l = [] ∧ p'.begins q l' = []) ∨ ∃ i i' c, Instance.Copy own i i' ∧ p.live.find? sid = some i ∧
      p.begins q l = [(i.serial, c)] ∧ p'.begins q l' = [(i'.serial, c)] := by
  simp only [Provider.begins, h.access? hq l l']
  cases ha : p.access? q l with
  | none => exact .inl ⟨rfl, rfl⟩
  | some a =>
    have hf : ∀ m : AtomicMap, a.finds m = m sid := by
      obtain rfl | rfl := access?_of_target hq ha <;> exact fun _ => rfl
    simp only [Option.bind_some, hf]
    obtain ⟨hn, hn'⟩ | ⟨i, i', hi, hi', hc⟩ := h.cases
    · rw [hn, hn']
      exact .inl ⟨rfl, rfl⟩
    · rw [hi, hi']
      cases q.call? with
      | none => exact .inl ⟨rfl, rfl⟩
      | some c => exact .inr ⟨i, i', c, hc, rfl, rfl, rfl⟩

end Provider

/-- A host in the one run and in the other, as far as one sequencer is concerned: `own` are the numbers of its
instances, in the order in which they have been constructed. -/
structure Standing (pid : UInt16) (sid : SequencerId) (own : List Nat) (h h' : Host) (l l' : Ledger) : Prop where
  supply : ∀ n, l'.supply n = sid
  built : own.length = l'.built.length
  below : ∀ k ∈ own, k < l.built.length
  nodup : own.Nodup
  called : ∀ c ∈ l.calls, c.1 < l.built.length
  called' : ∀ c ∈ l'.calls, c.1 < l'.built.length
  histories : ∀ j k, own[j]? = some k → l'.history j = l.history k
  others : ∀ id p, h.find? id = some p → ∀ x ∈ p.live,
    x.2.serial < l.built.length ∧ (x.2.serial ∈ own → id = pid ∧ x.1 = sid)
  provider : Option.Rel (Provider.Counterpart sid own) (h.find? pid) (h'.find? pid)

namespace Standing

variable {pid : UInt16} {sid : SequencerId} {own : List Nat} {h h' : Host} {l l' : Ledger}

theorem sameBooks (hst : Standing pid sid own h h' l l') {l₁ l₁' : Ledger} (hl : l.SameBooks l₁)
    (hl' : l'.SameBooks l₁') : Standing pid sid own h h' l₁ l₁' where
  supply := by rw [hl'.supply]; exact hst.supply
  built := by rw [hl'.built]; exact hst.built
  below := by rw [hl.built]; exact hst.below
  nodup := hst.nodup
  called := by rw [hl.calls, hl.built]; exact hst.called
  called' := by rw [hl'.calls, hl'.built]; exact hst.called'
  histories := fun j k hj => by
    rw [Ledger.history_congr hl.calls, Ledger.history_congr hl'.calls]
    exact hst.histories j k hj
  others := by rw [hl.built]; exact hst.others
  provider := hst.provider

theorem rehost (hst : Standing pid sid own h h' l l') {h₁ h₁' : Host}
    (hf : ∀ id p, h₁.find? id = some p → h.find? id = some p ∨ p.live = [])
    (hp : Option.Rel (Provider.Counterpart sid own) (h₁.find? pid) (h₁'.find? pid)) :
    Standing pid sid own h₁ h₁' l l' where
  supply := hst.supply
  built := hst.built
  below := hst.below
  nodup := hst.nodup
  called := hst.called
  called' := hst.called'
  histories := hst.histories
  others := fun id p hid x hx => by
    obtain hold | hnew := hf id p hid
    · exact hst.others id p hold x hx
    · rw [hnew] at hx
      cases hx
  provider := hp

section Served

variable {id : UInt16} {p p' : Provider} {q : Request} {out out' : Provider × Work × Ledger}

theorem others_served (hst : Standing pid sid own h h' l l') (hp : h.find? id = some p)
    (hs : Provider.Served p q l out) {own' : List Nat} (hown : ∀ k ∈ own', k ∈ own ∨ k = l.built.length)
    (hnew : l.built.length ∈ own' → id = pid ∧ l.nextId = sid) :
    ∀ id' p', (h.put out.1).find? id' = some p' → ∀ x ∈ p'.live,
      x.2.serial < out.2.2.built.length ∧ (x.2.serial ∈ own' → id' = pid ∧ x.1 = sid) := by
  intro id' p' hp' x hx
  have hbuilt := hs.built
  have hold : ∀ p₀, h.find? id' = some p₀ → x ∈ p₀.live →
      x.2.serial < out.2.2.built.length ∧ (x.2.serial ∈ own' → id' = pid ∧ x.1 = sid) := by
    intro p₀ hp₀ hx₀
    obtain ⟨hlt, hmem⟩ := hst.others id' p₀ hp₀ x hx₀
    refine ⟨by omega, fun hk => ?_⟩
    obtain hk | hk := hown _ hk
    · exact hmem hk
    · omega
  rw [hs.find?_put hp] at hp'
  split_ifs at hp' with he
  · obtain rfl := Option.some.inj hp'
    subst he
    obtain hx | ⟨i, hi, rfl⟩ := hs.mem_live hx
    · exact hold p hp hx
    · have hserial := Provider.constructed?_serial hi
      rw [hi] at hbuilt
      simp only [Option.toList_some, List.length_singleton] at hbuilt
      exact ⟨by rw [hserial]; omega, fun hk => hnew (hserial ▸ hk)⟩
  · exact hold p' hp' hx

theorem called_served (hst : Standing pid sid own h h' l l') (hp : h.find? id = some p)
    (hs : Provider.Served p q l out) : ∀ c ∈ out.2.2.calls, c.1 < out.2.2.built.length := by
  intro c hc
  have hbuilt := hs.built
  rw [hs.calls, List.mem_append] at hc
  obtain hc | hc := hc
  · have := hst.called c hc
    omega
  · obtain ⟨id', i, -, hi, he⟩ := Provider.mem_begins hc
    have hlt : i.serial < l.built.length := (hst.others id p hp _ (Registry.mem_of_find? hi)).1
    omega

/-- A request that has nothing to do with the sequencer is made in the one run only. -/
theorem aside (hst : Standing pid sid own h h' l l') (hp : h.find? id = some p) (hs : Provider.Served p q l out)
    (hq : ¬ (id = pid ∧ q.target? = some sid))
    (hc : ¬ (id = pid ∧ l.nextId = sid ∧ (p.constructed? q l).isSome)) :
    Standing pid sid own (h.put out.1) h' out.2.2 l' where
  supply := hst.supply
  built := hst.built
  below := fun k hk => Nat.lt_of_lt_of_le (hst.below k hk) (Nat.le_trans (Nat.le_add_right _ _) hs.built)
  nodup := hst.nodup
  called := hst.called_served hp hs
  called' := hst.called'
  histories := fun j k hj => by
    have hk : (p.begins q l).filter (·.1 = k) = [] := by
      refine List.filter_eq_nil_iff.mpr fun c hcb hck => ?_
      obtain ⟨id', i, hid', hi, he⟩ := Provider.mem_begins hcb
      have hserial : i.serial = k := he.symm.trans (by simpa using hck)
      obtain ⟨hpid, hsid⟩ := (hst.others id p hp _ (Registry.mem_of_find? hi)).2
        (hserial ▸ List.mem_of_getElem? hj)
      exact hq ⟨hpid, hid'.trans (congrArg some hsid)⟩
    rw [hst.histories j k hj, Ledger.history, Ledger.history, hs.calls, List.filter_append, hk, List.append_nil]
  others := hst.others_served hp hs (fun k hk => .inl hk) fun hk => absurd (hst.below _ hk) (Nat.lt_irrefl _)
  provider := by
    have hprov := hst.provider
    rw [hs.find?_put hp]
    split_ifs with he
    · subst he
      rw [hp] at hprov
      generalize h'.find? id = o at hprov ⊢
      cases hprov with
      | some hcp =>
        have hlive := hs.find?_live (fun hn => hq ⟨rfl, hn⟩) fun hn => hc ⟨rfl, hn⟩
        refine .some ⟨?_, ?_, ?_, hlive ▸ hcp.live⟩
        · rw [hs.provider]; exact hcp.options
        · rw [hs.provider]; exact hcp.factory
        · rw [hs.provider]; exact hcp.uniform
    · exact hprov

/-- A request that is aimed at the sequencer is made in both runs. -/
theorem aimed (hst : Standing pid sid own h h' l l') (hp : h.find? pid = some p) (hp' : h'.find? pid = some p')
    (hs : Provider.Served p q l out) (hs' : Provider.Served p' q l' out') (hq : q.target? = some sid)
    (hb : out.2.2.built = l.built) (hb' : out'.2.2.built = l'.built) :
    Standing pid sid own (h.put out.1) (h'.put out'.1) out.2.2 out'.2.2 := by
  have hcp : Provider.Counterpart sid own p p' := by simpa [hp, hp'] using hst.provider
  exact {
    supply := by rw [hs'.supply]; exact hst.supply
    built := by rw [hb']; exact hst.built
    below := by rw [hb]; exact hst.below
    nodup := hst.nodup
    called := hst.called_served hp hs
    called' := fun c hc => by
      rw [hs'.calls, List.mem_append] at hc
      rw [hb']
      obtain hc | hc := hc
      · exact hst.called' c hc
      · obtain ⟨-, hn⟩ | ⟨i, i', call, hi, -, -, hbegins⟩ := hcp.begins hq l l'
        · simp [hn] at hc
        · obtain rfl : c = (i'.serial, call) := by simpa [hbegins] using hc
          exact hst.built ▸ (List.getElem?_eq_some_iff.mp hi.serial).1
    histories := fun j k hj => by
      simp only [Ledger.history, hs.calls, hs'.calls, List.filter_append, List.map_append]
      congr 1
      · exact hst.histories j k hj
      · obtain ⟨hn, hn'⟩ | ⟨i, i', call, hi, -, hbegins, hbegins'⟩ := hcp.begins hq l l'
        · rw [hn, hn']; rfl
        · have hiff : i'.serial = j ↔ i.serial = k := by
            refine ⟨fun he => ?_, fun he => ?_⟩
            · rw [← he, hi.serial] at hj
              exact Option.some.inj hj
            · have hlt := (List.getElem?_eq_some_iff.mp hi.serial).1
              exact (List.getElem?_inj hlt hst.nodup).mp (by rw [hi.serial, hj, he])
          simp only [hbegins, hbegins', List.filter_cons, List.filter_nil, hiff]
          split <;> rfl
    others := hst.others_served hp hs (fun k hk => .inl hk) fun hk => absurd (hst.below _ hk) (Nat.lt_irrefl _)
    provider := by
      rw [hs.find?_put hp, hs'.find?_put hp', if_pos rfl, if_pos rfl]
      exact .some (hcp.served hs hs' hq) }

/-- A request that constructs the sequencer is made in both runs. -/
theorem created (hst : Standing pid sid own h h' l l') (hp : h.find? pid = some p) (hp' : h'.find? pid = some p')
    (hs : Provider.Served p q l out) (hs' : Provider.Served p' q l' out') {i : Instance}
    (hi : p.constructed? q l = some i) (hn : l.nextId = sid)
    (hb : out.2.2.built.length = l.built.length + 1) (hb' : out'.2.2.built.length = l'.built.length + 1) :
    Standing pid sid (own ++ [l.built.length]) (h.put out.1) (h'.put out'.1) out.2.2 out'.2.2 := by
  have hcp : Provider.Counterpart sid own p p' := by simpa [hp, hp'] using hst.provider
  have hi' : p'.constructed? q l' = some ⟨l'.built.length, i.backend⟩ := by rw [hcp.constructed? q l l', hi]; rfl
  have hn' : l'.nextId = sid := hst.supply _
  have hcalls : out.2.2.calls = l.calls := by rw [hs.calls, Provider.begins_of_constructed hi, List.append_nil]
  have hcalls' : out'.2.2.calls = l'.calls := by rw [hs'.calls, Provider.begins_of_constructed hi', List.append_nil]
  exact {
    supply := by rw [hs'.supply]; exact hst.supply
    built := by rw [hb', ← hst.built]; simp
    below := fun k hk => by
      rw [hb]
      obtain hk | hk := List.mem_append.mp hk
      · exact Nat.lt_succ_of_lt (hst.below k hk)
      · rw [List.mem_singleton.mp hk]; exact Nat.lt_succ_self _
    nodup := by
      refine hst.nodup.append (List.nodup_singleton _) fun k hk hk' => ?_
      exact Nat.lt_irrefl _ (List.mem_singleton.mp hk' ▸ hst.below k hk)
    called := hst.called_served hp hs
    called' := fun c hc => by
      rw [hcalls'] at hc
      rw [hb']
      exact Nat.lt_succ_of_lt (hst.called' c hc)
    histories := fun j k hj => by
      rw [Ledger.history_congr hcalls, Ledger.history_congr hcalls']
      rw [List.getElem?_append] at hj
      split_ifs at hj with hlt
      · exact hst.histories j k hj
      · obtain ⟨hz, hk⟩ := List.getElem?_eq_some_iff.mp hj
        have hj' : j = l'.built.length := by
          have hlen := hst.built
          simp only [List.length_singleton] at hz
          omega
        have hk' : k = l.built.length := by
          simp only [List.getElem_singleton] at hk
          exact hk.symm
        rw [hj', hk', Ledger.history_of_called hst.called, Ledger.history_of_called hst.called']
    others := hst.others_served hp hs (fun k hk => by simpa using hk) fun _ => ⟨rfl, hn⟩
    provider := by
      rw [hs.find?_put hp, hs'.find?_put hp', if_pos rfl, if_pos rfl]
      have hc : Instance.Copy (own ++ [l.built.length]) i ⟨l'.built.length, i.backend⟩ :=
        ⟨rfl, by rw [Provider.constructed?_serial hi, ← hst.built]; simp⟩
      refine .some ⟨?_, ?_, ?_, ?_⟩
      · rw [hs.provider, hs'.provider]; exact hcp.options
      · rw [hs.provider, hs'.provider]; exact hcp.factory
      · rw [hs.provider]; exact hcp.uniform
      · rw [hs.find?_constructed hi hn, hs'.find?_constructed hi' hn']
        exact .some hc }

end Served
end Standing

end SequencerHub

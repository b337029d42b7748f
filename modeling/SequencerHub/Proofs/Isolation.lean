import SequencerHub.Proofs.Counterparts
import SequencerHub.Proofs.Purge

/-! Sequencers do not disturb each other. If all requests that have nothing to do with one sequencer are deleted from a
run, those that are left get the same replies, and its backend has the same calls. -/
namespace SequencerHub
namespace Hosting

def founded (address : String) (supply : Nat → SequencerId) : Hosting where
  host := { address }
  ledger := { supply }

/-- Whether a move has to do with requests, or with what providers there are. No provider is torn down, and backends
depend only on the arguments of their constructors and their own calls. -/
def Move.IsTraffic : Move → Prop
  | .provide _ f => f.Uniform
  | .tearDownOne _ _ | .tearDown _ | .resumeTeardown _ _ => False
  | _ => True

def Creates (s : Hosting) (pid : UInt16) (sid : SequencerId) (id : UInt16) (q : Request) : Prop :=
  id = pid ∧ s.ledger.nextId = sid ∧ ((s.host.find? id).bind (·.constructed? q s.ledger)).isSome

instance (s : Hosting) (pid : UInt16) (sid : SequencerId) (id : UInt16) (q : Request) :
    Decidable (s.Creates pid sid id q) := by
  unfold Creates
  infer_instance

/-- A run, and what of it has to do with one sequencer. -/
structure Excerpt where
  whole : Hosting
  kept : List Bool := []
  own : List Nat := []
  moves : List Move := []

/-- One move is made, and kept if it has to do with the sequencer or with no request. Requests that stay are counted
anew. -/
def Excerpt.step (pid : UInt16) (sid : SequencerId) (x : Excerpt) (m : Move) : Excerpt :=
  let whole := x.whole.step m
  match m with
  | .request id q _ =>
    if id = pid ∧ q.target? = some sid then { x with whole, kept := x.kept ++ [true], moves := x.moves ++ [m] }
    else if x.whole.Creates pid sid id q then
      { whole, kept := x.kept ++ [true], own := x.own ++ [x.whole.ledger.built.length], moves := x.moves ++ [m] }
    else { x with whole, kept := x.kept ++ [false] }
  | .resume n opened =>
    if x.kept[n]? = some true then { x with whole, moves := x.moves ++ [.resume (place x.kept n) opened] }
    else { x with whole }
  | _ => { x with whole, moves := x.moves ++ [m] }

def excerpt (s : Hosting) (pid : UInt16) (sid : SequencerId) (ms : List Move) : Excerpt :=
  ms.foldl (Excerpt.step pid sid) { whole := s }

/-- What it means that a sequencer fares the same with and without all other requests. -/
structure Isolated (pid : UInt16) (sid : SequencerId) (x : Excerpt) (alone : Hosting) : Prop where
  /-- The requests that stay get the same replies, and get as far. -/
  replies : alone.requests = sift x.kept x.whole.requests
  /-- Its backend has the same calls. -/
  calls : ∀ j k, x.own[j]? = some k → alone.ledger.history j = x.whole.ledger.history k
  /-- No other backend has any. -/
  others : ∀ c ∈ alone.ledger.calls, c.1 < x.own.length
  registered : ∀ p i, x.whole.host.find? pid = some p → p.live.find? sid = some i → i.serial ∈ x.own

theorem find?_provide (s : Hosting) (o : ProviderOptions) (f : Factory) (id : UInt16) :
    (s.step (.provide o f)).host.find? id =
      (s.host.find? id).or (if o.providerId = id then some { options := o, factory := f } else none) := by
  have hid : (Provider.id { options := o, factory := f }) = o.providerId := rfl
  simp only [step, Host.register, hid]
  cases hp : s.host.find? o.providerId with
  | some p =>
    simp only
    split_ifs with he
    · subst he
      rw [hp]; rfl
    · simp
  | none =>
    simp only [Host.find?, Host.put, Host.find?_insert, hid]
    split_ifs with he
    · subst he
      rw [Host.find?] at hp
      rw [hp]; rfl
    · simp

theorem find?_deregister (s : Hosting) (id id' : UInt16) :
    (s.step (.deregister id)).host.find? id' = if id' = id then none else s.host.find? id' := by
  simp only [step, Host.deregister]
  cases hp : s.host.find? id with
  | none =>
    split_ifs with he
    · rw [he, hp]
    · rfl
  | some p =>
    simp only [Host.find?, List.find?_filter]
    split_ifs with he
    · subst he
      simp
    · congr 1
      funext q
      by_cases hq : q.id = id' <;> simp [hq, he]

theorem step_request {s : Hosting} {id : UInt16} {p : Provider} (hp : s.host.find? id = some p) (q : Request)
    (opened : Gates) : ∃ l, (p.handle q s.ledger).2.2.SameBooks l ∧ ∀ l₀, s.step (.request id q opened) =
      { s with
        host := s.host.put (p.handle q s.ledger).1
        ledger := l
        requests := s.requests ++
          [some (Dispatch.ofWork id q.op ((p.work s.ledger q).resume opened id l₀).1 l₀).1] } := by
  refine ⟨_, Host.sameBooks_dispatch p id opened q s.ledger, fun l₀ => ?_⟩
  have hw := (p.work s.ledger q).resume_fst opened id l₀ (p.handle q s.ledger).2.2
  have hd := Dispatch.ofWork_fst id q.op ((p.work s.ledger q).resume opened id l₀).1 l₀
    ((p.work s.ledger q).resume opened id (p.handle q s.ledger).2.2).2
  simp only [step, s.host.dispatch_of_find? hp, p.handle_work s.ledger q, hw, hd]

theorem step_request_none {s : Hosting} {id : UInt16} (hp : s.host.find? id = none) (q : Request) (opened : Gates) :
    s.step (.request id q opened) = { s with requests := s.requests ++ [none] } := by
  simp only [step, Host.dispatch, hp]

/-- The run, and what is left of it, after the same moves. -/
structure Excerpt.Faithful (pid : UInt16) (sid : SequencerId) (start : Hosting) (x : Excerpt) : Prop where
  standing : Standing pid sid x.own x.whole.host (start.run x.moves).host x.whole.ledger (start.run x.moves).ledger
  requests : (start.run x.moves).requests = sift x.kept x.whole.requests
  length : x.kept.length = x.whole.requests.length

namespace Excerpt.Faithful

variable {pid : UInt16} {sid : SequencerId} {start : Hosting} {x : Excerpt}

theorem provide (h : x.Faithful pid sid start) (o : ProviderOptions) {f : Factory} (hf : f.Uniform) :
    (x.step pid sid (.provide o f)).Faithful pid sid start := by
  have hrun : start.run (x.moves ++ [.provide o f]) = (start.run x.moves).step (.provide o f) := start.run_concat ..
  have hb : ∀ s : Hosting, s.ledger.SameBooks (s.step (.provide o f)).ledger ∧
      (s.step (.provide o f)).requests = s.requests := by
    intro s
    have hl := s.ledger.sameBooks_logged (.providerCreated o)
    simp only [Hosting.step, Host.register]
    cases s.host.find? (Provider.id { options := o, factory := f }) with
    | some q => exact ⟨hl, rfl⟩
    | none => exact ⟨hl.trans (Ledger.sameBooks_logged _ _), rfl⟩
  refine ⟨?_, ?_, ?_⟩ <;> simp only [Excerpt.step, hrun]
  · refine (h.standing.rehost (fun id p hid => ?_) ?_).sameBooks (hb _).1 (hb _).1
    · rw [find?_provide] at hid
      cases hp : x.whole.host.find? id with
      | some p₀ =>
        rw [hp] at hid
        exact .inl hid
      | none =>
        rw [hp, Option.none_or] at hid
        split_ifs at hid
        obtain rfl := Option.some.inj hid
        exact .inr rfl
    · have hprov := h.standing.provider
      rw [find?_provide, find?_provide]
      generalize x.whole.host.find? pid = p at hprov ⊢
      generalize (start.run x.moves).host.find? pid = p' at hprov ⊢
      cases hprov with
      | some hc => exact .some hc
      | none =>
        simp only [Option.none_or]
        split_ifs
        · exact .some ⟨rfl, rfl, hf, .none⟩
        · exact .none
  · rw [(hb _).2, (hb _).2, h.requests]
  · rw [(hb _).2, h.length]

theorem deregister (h : x.Faithful pid sid start) (id : UInt16) :
    (x.step pid sid (.deregister id)).Faithful pid sid start := by
  have hrun : start.run (x.moves ++ [.deregister id]) = (start.run x.moves).step (.deregister id) := start.run_concat ..
  have hb : ∀ s : Hosting, s.ledger.SameBooks (s.step (.deregister id)).ledger := fun s =>
    s.host.sameBooks_deregister id s.ledger
  refine ⟨?_, ?_, ?_⟩ <;> simp only [Excerpt.step, hrun]
  · refine (h.standing.rehost (fun id' p hid => ?_) ?_).sameBooks (hb _) (hb _)
    · rw [find?_deregister] at hid
      split_ifs at hid
      exact .inl hid
    · rw [find?_deregister, find?_deregister]
      split_ifs
      · exact .none
      · exact h.standing.provider
  · exact h.requests
  · exact h.length

theorem requestShutdown (h : x.Faithful pid sid start) :
    (x.step pid sid .requestShutdown).Faithful pid sid start := by
  have hrun : start.run (x.moves ++ [.requestShutdown]) = (start.run x.moves).step .requestShutdown :=
    start.run_concat ..
  have hb : ∀ s : Hosting, s.ledger.SameBooks (s.step .requestShutdown).ledger := fun s =>
    s.host.sameBooks_requestShutdown s.ledger
  refine ⟨?_, ?_, ?_⟩ <;> simp only [Excerpt.step, hrun]
  · have hst := h.standing.sameBooks (hb _) (hb _)
    exact hst.rehost (fun id p hid => .inl hid) hst.provider
  · exact h.requests
  · exact h.length

theorem resume (h : x.Faithful pid sid start) (n : Nat) (opened : Gates) :
    (x.step pid sid (.resume n opened)).Faithful pid sid start := by
  by_cases hn : x.kept[n]? = some true
  · have hrun : start.run (x.moves ++ [.resume (place x.kept n) opened]) =
        (start.run x.moves).step (.resume (place x.kept n) opened) := start.run_concat ..
    have hlookup : (start.run x.moves).requests[place x.kept n]? = x.whole.requests[n]? := by
      rw [h.requests, getElem?_sift hn]
    refine ⟨?_, ?_, ?_⟩ <;> simp only [Excerpt.step, hn, if_true, hrun]
    · rw [host_resume, host_resume]
      exact h.standing.sameBooks (sameBooks_resume ..) (sameBooks_resume ..)
    · simp only [Hosting.step, hlookup]
      split
      · rename_i d hd
        rw [h.requests, d.resume_fst opened x.whole.ledger, sift_set hn]
      · exact h.requests
    · simp only [Hosting.step]
      split
      · rw [List.length_set, h.length]
      · exact h.length
  · refine ⟨?_, ?_, ?_⟩ <;> simp only [Excerpt.step, hn, if_false]
    · rw [host_resume]
      exact h.standing.sameBooks (sameBooks_resume ..) (.refl _)
    · simp only [Hosting.step]
      split
      · rw [sift_set_of_ne hn, h.requests]
      · exact h.requests
    · simp only [Hosting.step]
      split
      · rw [List.length_set, h.length]
      · exact h.length

theorem counterpart (h : x.Faithful pid sid start) {p : Provider} (hp : x.whole.host.find? pid = some p) :
    ∃ p', (start.run x.moves).host.find? pid = some p' ∧ Provider.Counterpart sid x.own p p' := by
  have hprov := h.standing.provider
  rw [hp] at hprov
  generalize (start.run x.moves).host.find? pid = o at hprov ⊢
  cases hprov with
  | some hcp => exact ⟨_, rfl, hcp⟩

theorem counterpart_none (h : x.Faithful pid sid start) (hp : x.whole.host.find? pid = none) :
    (start.run x.moves).host.find? pid = none := by
  have hprov := h.standing.provider
  rw [hp] at hprov
  generalize (start.run x.moves).host.find? pid = o at hprov ⊢
  cases hprov
  rfl

/-- A request for the sequencer begins in both runs, and does the same. -/
theorem aimed (h : x.Faithful pid sid start) {id : UInt16} {q : Request} (hid : id = pid)
    (hq : q.target? = some sid) (opened : Gates) : (x.step pid sid (.request id q opened)).Faithful pid sid start := by
  subst hid
  have hrun : start.run (x.moves ++ [.request id q opened]) = (start.run x.moves).step (.request id q opened) :=
    start.run_concat ..
  have hstep : x.step id sid (.request id q opened) = { x with
      whole := x.whole.step (.request id q opened), kept := x.kept ++ [true]
      moves := x.moves ++ [.request id q opened] } := by
    simp only [Excerpt.step, hq, and_self, if_true]
  rw [hstep]
  cases hp : x.whole.host.find? id with
  | none =>
    have hp' := h.counterpart_none hp
    refine ⟨?_, ?_, ?_⟩ <;> simp only [hrun, step_request_none hp, step_request_none hp']
    · exact h.standing
    · rw [sift_append h.length, h.requests]
      rfl
    · simp [h.length]
  | some p =>
    obtain ⟨p', hp', hcp⟩ := h.counterpart hp
    obtain ⟨l, hl, hs⟩ := step_request hp q opened
    obtain ⟨l', hl', hs'⟩ := step_request hp' q opened
    have hw : p'.work (start.run x.moves).ledger q = p.work x.whole.ledger q :=
      hcp.work hq fun i i' hi => h.standing.histories _ _ hi.serial
    refine ⟨?_, ?_, ?_⟩ <;> simp only [hrun, hs x.whole.ledger, hs' x.whole.ledger, hw]
    · exact (h.standing.aimed hp hp' (p.handle_served q _) (p'.handle_served q _) hq (Provider.built_of_target hq)
        (Provider.built_of_target hq)).sameBooks hl hl'
    · rw [sift_append h.length, h.requests]
      rfl
    · simp [h.length]

/-- The request that constructs the sequencer begins in both runs. -/
theorem created (h : x.Faithful pid sid start) {id : UInt16} {q : Request}
    (hq : ¬ (id = pid ∧ q.target? = some sid)) (hc : x.whole.Creates pid sid id q) (opened : Gates) :
    (x.step pid sid (.request id q opened)).Faithful pid sid start := by
  have hrun : start.run (x.moves ++ [.request id q opened]) = (start.run x.moves).step (.request id q opened) :=
    start.run_concat ..
  have hstep : x.step pid sid (.request id q opened) = {
      whole := x.whole.step (.request id q opened), kept := x.kept ++ [true]
      own := x.own ++ [x.whole.ledger.built.length], moves := x.moves ++ [.request id q opened] } := by
    simp only [Excerpt.step, hq, if_false, hc, if_true]
  obtain ⟨rfl, hn, hsome⟩ := hc
  obtain ⟨i, hi⟩ := Option.isSome_iff_exists.mp hsome
  obtain ⟨p, hp, hi⟩ := Option.bind_eq_some_iff.mp hi
  obtain ⟨p', hp', hcp⟩ := h.counterpart hp
  have hi' : p'.constructed? q (start.run x.moves).ledger =
      some ⟨(start.run x.moves).ledger.built.length, i.backend⟩ := by
    rw [hcp.constructed? q x.whole.ledger, hi]
    rfl
  have hw : p'.work (start.run x.moves).ledger q = p.work x.whole.ledger q := by
    have hn' : (start.run x.moves).ledger.nextId = sid := h.standing.supply _
    rw [Provider.work_of_constructed hi, Provider.work_of_constructed hi', hn, hn']
  obtain ⟨l, hl, hs⟩ := step_request hp q opened
  obtain ⟨l', hl', hs'⟩ := step_request hp' q opened
  rw [hstep]
  refine ⟨?_, ?_, ?_⟩ <;> simp only [hrun, hs x.whole.ledger, hs' x.whole.ledger, hw]
  · exact (h.standing.created hp hp' (p.handle_served q _) (p'.handle_served q _) hi hn
      (Provider.built_of_constructed hi) (Provider.built_of_constructed hi')).sameBooks hl hl'
  · rw [sift_append h.length, h.requests]
    rfl
  · simp [h.length]

/-- Any other request begins in the one run only. -/
theorem aside (h : x.Faithful pid sid start) {id : UInt16} {q : Request}
    (hq : ¬ (id = pid ∧ q.target? = some sid)) (hc : ¬ x.whole.Creates pid sid id q) (opened : Gates) :
    (x.step pid sid (.request id q opened)).Faithful pid sid start := by
  have hstep : x.step pid sid (.request id q opened) = { x with
      whole := x.whole.step (.request id q opened), kept := x.kept ++ [false] } := by
    simp only [Excerpt.step, hq, if_false, hc]
  rw [hstep]
  cases hp : x.whole.host.find? id with
  | none =>
    refine ⟨?_, ?_, ?_⟩ <;> simp only [step_request_none hp]
    · exact h.standing
    · rw [sift_append h.length, h.requests]
      simp
    · simp [h.length]
  | some p =>
    obtain ⟨l, hl, hs⟩ := step_request hp q opened
    have hc' : ¬ (id = pid ∧ x.whole.ledger.nextId = sid ∧ (p.constructed? q x.whole.ledger).isSome) := by
      rintro ⟨hid, hn, hi⟩
      exact hc ⟨hid, hn, by rw [hp]; exact hi⟩
    refine ⟨?_, ?_, ?_⟩ <;> simp only [hs x.whole.ledger]
    · exact (h.standing.aside hp (p.handle_served q _) hq hc').sameBooks hl (.refl _)
    · rw [sift_append h.length, h.requests]
      simp
    · simp [h.length]

theorem request (h : x.Faithful pid sid start) (id : UInt16) (q : Request) (opened : Gates) :
    (x.step pid sid (.request id q opened)).Faithful pid sid start := by
  by_cases hq : id = pid ∧ q.target? = some sid
  · exact h.aimed hq.1 hq.2 opened
  · by_cases hc : x.whole.Creates pid sid id q
    · exact h.created hq hc opened
    · exact h.aside hq hc opened

theorem step (h : x.Faithful pid sid start) {m : Move} (hm : m.IsTraffic) : (x.step pid sid m).Faithful pid sid start := by
  cases m with
  | provide o f => exact h.provide o hm
  | deregister id => exact h.deregister id
  | request id q opened => exact h.request id q opened
  | resume n opened => exact h.resume n opened
  | tearDownOne id opened => exact hm.elim
  | tearDown opened => exact hm.elim
  | resumeTeardown n opened => exact hm.elim
  | requestShutdown => exact h.requestShutdown

theorem run (h : x.Faithful pid sid start) {ms : List Move} (hms : ∀ m ∈ ms, m.IsTraffic) :
    (ms.foldl (Excerpt.step pid sid) x).Faithful pid sid start := by
  induction ms generalizing x with
  | nil => exact h
  | cons m ms ih =>
    exact ih (h.step (hms m List.mem_cons_self)) fun m' hm' => hms m' (List.mem_cons_of_mem m hm')

theorem registered (h : x.Faithful pid sid start) {p : Provider} {i : Instance}
    (hp : x.whole.host.find? pid = some p) (hi : p.live.find? sid = some i) : i.serial ∈ x.own := by
  obtain ⟨p', -, hcp⟩ := h.counterpart hp
  obtain ⟨hn, -⟩ | ⟨i₀, i', hi₀, -, hc⟩ := hcp.cases
  · rw [hn] at hi
    cases hi
  · obtain rfl : i₀ = i := Option.some.inj (hi₀.symm.trans hi)
    exact List.mem_of_getElem? hc.serial

end Excerpt.Faithful

theorem excerpt_whole (s : Hosting) (pid : UInt16) (sid : SequencerId) (ms : List Move) :
    (s.excerpt pid sid ms).whole = s.run ms := by
  have hstep : ∀ (x : Excerpt) m, (x.step pid sid m).whole = x.whole.step m := by
    intro x m
    cases m with
    | request id q opened =>
      simp only [Excerpt.step]
      split_ifs <;> rfl
    | resume n opened =>
      simp only [Excerpt.step]
      split_ifs <;> rfl
    | _ => rfl
  have hrun : ∀ x : Excerpt, (ms.foldl (Excerpt.step pid sid) x).whole = x.whole.run ms := by
    induction ms with
    | nil => exact fun _ => rfl
    | cons m ms ih =>
      intro x
      rw [List.foldl_cons, ih, hstep]
      rfl
  exact hrun _

theorem faithful_founded (address : String) (supply : Nat → SequencerId) (pid : UInt16) (sid : SequencerId) :
    ({ whole := founded address supply } : Excerpt).Faithful pid sid (founded address fun _ => sid) where
  standing := {
    supply := fun _ => rfl
    built := rfl
    below := fun k hk => absurd hk List.not_mem_nil
    nodup := List.nodup_nil
    called := fun c hc => absurd hc List.not_mem_nil
    called' := fun c hc => absurd hc List.not_mem_nil
    histories := fun j k hj => by simp at hj
    others := fun id p hp => by cases hp
    provider := .none }
  requests := rfl
  length := rfl

/-- A sequencer fares the same when all requests that have nothing to do with it are deleted from a run, whatever
becomes of those and whenever they go on. -/
theorem isolated (address : String) (supply : Nat → SequencerId) (pid : UInt16) (sid : SequencerId) {ms : List Move}
    (hms : ∀ m ∈ ms, m.IsTraffic) :
    ((founded address supply).excerpt pid sid ms).whole = (founded address supply).run ms ∧
      Isolated pid sid ((founded address supply).excerpt pid sid ms)
        ((founded address fun _ => sid).run ((founded address supply).excerpt pid sid ms).moves) := by
  have h := (faithful_founded address supply pid sid).run hms
  exact ⟨excerpt_whole .., {
    replies := h.requests
    calls := h.standing.histories
    others := fun c hc => h.standing.built ▸ h.standing.called' c hc
    registered := fun p i hp hi => h.registered hp hi }⟩

/-- Two sequencers: the second is asked for a sum that waits, and fails, while the first is asked for one too. -/
def crossed : List Move :=
  [.provide {} (Factory.register {} "scripted" (Scripted.constructors "scripted")),
    .request 0 (.construct .create "" "scripted" "{}") [],
    .request 0 (.construct .create "" "scripted" "\x7b\"sum\":\x7b\"gate\":\"g\",\"fail\":\"no\"\x7d\x7d") [],
    .request 0 (.computeSum (SequencerId.ofNat 1) 1 2) [], .request 0 (.computeSum (SequencerId.ofNat 0) 3 4) [],
    .request 7 (.check (SequencerId.ofNat 0)) [], .request 0 (.destroy "" (SequencerId.ofNat 0)) []]

theorem uniform_scripted : (Factory.register {} "scripted" (Scripted.constructors "scripted")).Uniform := by
  intro name c hc how nth nth' args
  obtain ⟨x, hx, rfl⟩ := Option.map_eq_some_iff.mp hc
  obtain rfl := List.mem_singleton.mp (List.mem_of_find?_eq_some hx)
  cases how <;> rfl

theorem isolated_crossed : (∀ m ∈ crossed, m.IsTraffic) ∧
    ((founded "local://trials" SequencerId.ofNat).excerpt 0 (SequencerId.ofNat 0) crossed).kept =
      [true, false, false, true, false, true] ∧
    ((founded "local://trials" SequencerId.ofNat).excerpt 0 (SequencerId.ofNat 0) crossed).whole =
        (founded "local://trials" SequencerId.ofNat).run crossed ∧
      Isolated 0 (SequencerId.ofNat 0)
        ((founded "local://trials" SequencerId.ofNat).excerpt 0 (SequencerId.ofNat 0) crossed)
        ((founded "local://trials" fun _ => SequencerId.ofNat 0).run
          ((founded "local://trials" SequencerId.ofNat).excerpt 0 (SequencerId.ofNat 0) crossed).moves) := by
  have hms : ∀ m ∈ crossed, m.IsTraffic := by
    intro m hm
    simp only [crossed, List.mem_cons, List.not_mem_nil, or_false] at hm
    rcases hm with rfl | rfl | rfl | rfl | rfl | rfl | rfl
    · exact uniform_scripted
    all_goals trivial
  exact ⟨hms, by decide +kernel, isolated _ _ 0 (SequencerId.ofNat 0) hms⟩

end Hosting
end SequencerHub

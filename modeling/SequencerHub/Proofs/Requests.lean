import SequencerHub.Proofs.Registry

/-! What serving a request does to the registry and to the ledger. A request accesses the registry at most once;
what is left of it afterwards reaches neither the registry nor the list of calls. -/
namespace SequencerHub
namespace Ledger

/-- Two ledgers that differ at most in what was noted and logged. -/
structure SameBooks (l l' : Ledger) : Prop where
  supply : l'.supply = l.supply
  minted : l'.minted = l.minted
  built : l'.built = l.built
  calls : l'.calls = l.calls

namespace SameBooks

theorem refl (l : Ledger) : SameBooks l l := ⟨rfl, rfl, rfl, rfl⟩

theorem trans {l l' l'' : Ledger} (h : SameBooks l l') (h' : SameBooks l' l'') : SameBooks l l'' :=
  ⟨h'.supply.trans h.supply, h'.minted.trans h.minted, h'.built.trans h.built, h'.calls.trans h.calls⟩

end SameBooks

theorem sameBooks_logged (l : Ledger) (e : LogEvent) : SameBooks l (l.logged e) := ⟨rfl, rfl, rfl, rfl⟩

theorem sameBooks_recorded (l : Ledger) (e : Effect) : SameBooks l (l.recorded e) := by
  cases e <;> exact ⟨rfl, rfl, rfl, rfl⟩

theorem sameBooks_foldl {α : Type} {f : Ledger → α → Ledger} (hf : ∀ l x, SameBooks l (f l x))
    (xs : List α) (l : Ledger) : SameBooks l (xs.foldl f l) := by
  induction xs generalizing l with
  | nil => exact .refl l
  | cons x xs ih => exact (hf l x).trans (ih _)

theorem sameBooks_recordedAll (l : Ledger) (effects : List Effect) : SameBooks l (l.recordedAll effects) :=
  sameBooks_foldl sameBooks_recorded effects l

theorem sameBooks_loggedAll (l : Ledger) (events : List LogEvent) : SameBooks l (events.foldl logged l) :=
  sameBooks_foldl sameBooks_logged events l

theorem history_congr {l l' : Ledger} (h : l'.calls = l.calls) (serial : Nat) :
    l'.history serial = l.history serial := by
  rw [history, history, h]

end Ledger

theorem sameBooks_runActs (opened : Gates) (acts : List Act) (l : Ledger) :
    l.SameBooks (runActs opened acts l).2 := by
  induction acts generalizing l with
  | nil => exact .refl l
  | cons a acts ih =>
    cases a with
    | effect e => exact (l.sameBooks_recorded e).trans (ih _)
    | await g =>
      simp only [runActs]
      split
      · exact ih l
      · exact .refl l

def Access.finds (a : Access) (m : AtomicMap) : Option Instance := a.target?.bind m

def Outcome.value? {α : Type} : Outcome α → Option α
  | .ok v => some v
  | _ => none

namespace Request

def token? : Request → Option String
  | construct _ token _ _ => some token
  | close token _ => some token
  | destroy token _ => some token
  | _ => none

/-- What a request asks of the registry, if it is aimed at one sequencer. -/
def asks : Request → Option Access
  | construct .. => none
  | close _ id => some (.remove id)
  | destroy _ id => some (.remove id)
  | check id => some (.lookup id)
  | sayHello id => some (.lookup id)
  | computeSum id _ _ => some (.lookup id)

def call? : Request → Option Call
  | destroy _ _ => some .destroy
  | sayHello _ => some .hello
  | computeSum _ x y => some (.sum x y)
  | _ => none

/-- Whether a request that is served so far has taken a sequencer out of the registry. -/
def HasRemoved : Request → Work → Prop
  | close _ _, .ended (.answered (.ok _)) => True
  | destroy _ _, .destroying _ _ _ => True
  | _, _ => False

instance (r : Request) (w : Work) : Decidable (r.HasRemoved w) := by
  unfold HasRemoved
  split <;> infer_instance

end Request

namespace Work

def IsMissing : Work → Prop
  | ended (.answered (.error e)) => e.kind = .notFound
  | _ => False

instance (w : Work) : Decidable w.IsMissing := by
  unfold IsMissing
  split <;> infer_instance

def minted? : Work → Option SequencerId
  | ended (.answered (.ok (.id id))) => some id
  | _ => none

theorem sameBooks_resume (opened : Gates) (providerId : UInt16) (w : Work) (l : Ledger) :
    l.SameBooks (w.resume opened providerId l).2 := by
  cases w with
  | ended e => exact .refl l
  | summing acts outcome =>
    have h := sameBooks_runActs opened acts l
    simp only [resume]
    split <;> simp_all
  | destroying id acts outcome =>
    have h := sameBooks_runActs opened acts l
    simp only [resume]
    split
    · rename_i l' heq
      rw [heq] at h
      exact h.trans (l'.sameBooks_loggedAll _)
    · simp_all

/-- What a request comes to that goes on: its backend still waits, or it ends with the outcome that it has had all
along. -/
inductive Resumed : Work → Work → Prop
  | ended (e : Ending) : Resumed (ended e) (ended e)
  | summed (acts : List Act) (o : Outcome Int32) : Resumed (summing acts o) (ended (sumEnding o))
  | summing (acts left : List Act) (o : Outcome Int32) : Resumed (summing acts o) (summing left o)
  | destroyed (id : SequencerId) (acts : List Act) (o : Outcome Bool) :
      Resumed (destroying id acts o) (ended (destroyEnding o))
  | destroying (id : SequencerId) (acts left : List Act) (o : Outcome Bool) :
      Resumed (destroying id acts o) (destroying id left o)

theorem resume_resumed (opened : Gates) (providerId : UInt16) (w : Work) (l : Ledger) :
    Resumed w (w.resume opened providerId l).1 := by
  cases w with
  | ended e => exact .ended e
  | summing acts o =>
    simp only [resume]
    split
    · exact .summed acts o
    · exact .summing acts _ o
  | destroying id acts o =>
    simp only [resume]
    split
    · exact .destroyed id acts o
    · exact .destroying id acts _ o

theorem sumEnding_not_missing (o : Outcome Int32) : ¬ (ended (sumEnding o)).IsMissing := by
  cases o <;> simp [sumEnding, IsMissing, backendFailure]

theorem destroyEnding_not_missing (o : Outcome Bool) : ¬ (ended (destroyEnding o)).IsMissing := by
  cases o <;> simp [destroyEnding, IsMissing, backendFailure]

/-- What the registry has decided, the rest of a request does not change. -/
theorem resume_isMissing (opened : Gates) (providerId : UInt16) (w : Work) (l : Ledger) :
    (w.resume opened providerId l).1.IsMissing ↔ w.IsMissing := by
  have h := resume_resumed opened providerId w l
  generalize (w.resume opened providerId l).1 = w' at h
  cases h with
  | summed acts o => exact iff_of_false (sumEnding_not_missing o) not_false
  | destroyed id acts o => exact iff_of_false (destroyEnding_not_missing o) not_false
  | _ => rfl

theorem resume_minted? (opened : Gates) (providerId : UInt16) (w : Work) (l : Ledger) :
    (w.resume opened providerId l).1.minted? = w.minted? := by
  have h := resume_resumed opened providerId w l
  generalize (w.resume opened providerId l).1 = w' at h
  cases h with
  | summed acts o => cases o <;> rfl
  | destroyed id acts o => cases o <;> rfl
  | _ => rfl

end Work

namespace Provider

def Accepts (p : Provider) (r : Request) : Prop := ∀ token ∈ r.token?, p.admits token = true

/-- The instance that a request has built: its token is accepted, its type is known, its configuration is an object,
and the constructor succeeds. -/
def constructed? (p : Provider) (r : Request) (l : Ledger) : Option Instance :=
  match r with
  | .construct how token sequencerType config =>
    if p.admits token then do
      let c ← p.factory.find? sequencerType
      let config ← (parseConfig config).toOption
      (c.pick how l.built.length ⟨p.id, config⟩).outcome.value?.map (⟨l.built.length, ·⟩)
    else none
  | _ => none

theorem constructed?_serial {p : Provider} {r : Request} {l : Ledger} {i : Instance}
    (h : p.constructed? r l = some i) : i.serial = l.built.length := by
  cases r with
  | construct how token sequencerType config =>
    have hc := (Option.ite_none_right_eq_some.mp h).2
    obtain ⟨c, -, hc⟩ := Option.bind_eq_some_iff.mp hc
    obtain ⟨j, -, hc⟩ := Option.bind_eq_some_iff.mp hc
    obtain ⟨b, -, rfl⟩ := Option.map_eq_some_iff.mp hc
    rfl
  | _ => cases h

/-- The one access to the registry that a request makes. -/
def access? (p : Provider) (r : Request) (l : Ledger) : Option Access :=
  match r with
  | .construct .. => (p.constructed? r l).map (.insert l.nextId)
  | .close token id => if p.admits token then some (.remove id) else none
  | .destroy token id => if p.admits token then some (.remove id) else none
  | .check id => some (.lookup id)
  | .sayHello id => some (.lookup id)
  | .computeSum id _ _ => some (.lookup id)

theorem access?_of_asks {p : Provider} {r : Request} {a : Access} (h : r.asks = some a) (hp : p.Accepts r)
    (l : Ledger) : p.access? r l = some a := by
  cases r <;> simp_all [Request.asks, access?, Accepts, Request.token?]

theorem accepts_of_access? {p : Provider} {r : Request} {l : Ledger} {a : Access}
    (h : p.access? r l = some a) : p.Accepts r := by
  cases r with
  | construct how token sequencerType config =>
    obtain ⟨i, hi, -⟩ := Option.map_eq_some_iff.mp h
    have ht : p.admits token = true := (Option.ite_none_right_eq_some.mp hi).1
    simpa [Accepts, Request.token?] using ht
  | _ => simp_all [access?, Accepts, Request.token?]

/-- A request accesses the registry as it asks to, or it registers what it has constructed. -/
theorem access?_cases {p : Provider} {r : Request} {l : Ledger} {a : Access} (h : p.access? r l = some a) :
    r.asks = some a ∨ ∃ i, p.constructed? r l = some i ∧ a = .insert l.nextId i := by
  cases r with
  | construct how token sequencerType config =>
    obtain ⟨i, hi, rfl⟩ := Option.map_eq_some_iff.mp h
    exact .inr ⟨i, hi, rfl⟩
  | _ => simp_all [access?, Request.asks]

/-- The call of a backend that a request begins. -/
def begins (p : Provider) (r : Request) (l : Ledger) : List (Nat × Call) :=
  match (p.access? r l).bind (·.finds p.live.find?), r.call? with
  | some i, some c => [(i.serial, c)]
  | _, _ => []

/-- What it means that a request has been served up to where its backend call would first wait. -/
structure Served (p : Provider) (r : Request) (l : Ledger) (out : Provider × Work × Ledger) : Prop where
  provider : out.1 = { p with live := (p.access? r l).elim p.live (·.on p.live) }
  supply : out.2.2.supply = l.supply
  minted : out.2.2.minted = l.minted + (p.constructed? r l).toList.length
  built : l.built.length + (p.constructed? r l).toList.length ≤ out.2.2.built.length
  calls : out.2.2.calls = l.calls ++ p.begins r l
  missing : out.2.1.IsMissing ↔ ∃ a ∈ p.access? r l, ∃ id, a.target? = some id ∧ p.live.find? id = none
  named : out.2.1.minted? = (p.constructed? r l).map fun _ => l.nextId
  removed : r.HasRemoved out.2.1 ↔ ∃ id i, p.access? r l = some (.remove id) ∧ p.live.find? id = some i

theorem Served.sameBooks {p : Provider} {r : Request} {l l₀ l' : Ledger} {q : Provider} {w : Work}
    (h : Served p r l₀ (q, w, l')) (h₀ : l.SameBooks l₀) {l₁ : Ledger} (h₁ : l'.SameBooks l₁) :
    Served p r l (q, w, l₁) := by
  have hc : p.constructed? r l₀ = p.constructed? r l := by
    cases r <;> simp only [constructed?, h₀.built]
  have hn : l₀.nextId = l.nextId := by simp only [Ledger.nextId, h₀.supply, h₀.minted]
  have ha : p.access? r l₀ = p.access? r l := by
    cases r <;> simp only [access?, hc, hn]
  have hb : p.begins r l₀ = p.begins r l := by simp only [begins, ha]
  obtain ⟨hp, hs, hm, hbu, hca, hmi, hna, hre⟩ := h
  rw [ha] at hp hmi hre
  rw [hc] at hm hbu hna
  exact ⟨hp, h₁.supply.trans (hs.trans h₀.supply), by rw [h₁.minted, hm, h₀.minted],
    by rw [h₁.built, ← h₀.built]; exact hbu, by rw [h₁.calls, hca, h₀.calls, hb], hmi, hn ▸ hna, hre⟩

theorem parseConfig_kind {text : String} {e : RemoteError} (h : parseConfig text = .error e) :
    e.kind = .configParse := by
  unfold parseConfig at h
  split at h
  · cases h; rfl
  · split at h
    · cases h
    · cases h; rfl

theorem notFound_isMissing (id : SequencerId) : (Work.refused (notFound id)).IsMissing := rfl

theorem served_aside {p : Provider} {r : Request} {l l₀ l' : Ledger} {w : Work}
    (hc : p.constructed? r l = none) (ha : p.access? r l = none) (hw : ¬ w.IsMissing) (hn : w.minted? = none)
    (hr : ¬ r.HasRemoved w) (hl : l₀ = l ∨ ∃ b, l₀ = l.constructed b) (h : l₀.SameBooks l') :
    Served p r l (p, w, l') where
  provider := by simp [ha]
  supply := by rcases hl with rfl | ⟨b, rfl⟩ <;> exact h.supply
  minted := by rcases hl with rfl | ⟨b, rfl⟩ <;> simp [hc, h.minted, Ledger.constructed]
  built := by rcases hl with rfl | ⟨b, rfl⟩ <;> simp [hc, h.built, Ledger.constructed]
  calls := by rcases hl with rfl | ⟨b, rfl⟩ <;> simp [begins, ha, h.calls, Ledger.constructed]
  missing := by simp [ha, hw]
  named := by simp [hc, hn]
  removed := by simp [ha, hr]

theorem served_refused {p : Provider} {r : Request} {l l' : Ledger} {e : RemoteError}
    (hc : p.constructed? r l = none) (ha : p.access? r l = none) (he : e.kind ≠ .notFound)
    (h : l.SameBooks l') : Served p r l (p, .refused e, l') :=
  served_aside hc ha he rfl (by cases r <;> simp [Work.refused, Request.HasRemoved]) (.inl rfl) h

/-- What comes of a construction is up to the constructor. The rest of the books is as when it was called. -/
theorem build_cases (p : Provider) (how : Construction) (sequencerType : String) (c : Constructors) (config : Json)
    (l : Ledger) : ∃ l', (l.constructed ⟨how, sequencerType, ⟨p.id, config⟩⟩).SameBooks l' ∧
      p.build how sequencerType c config l = match (c.pick how l.built.length ⟨p.id, config⟩).outcome with
        | .ok b => p.enlist how sequencerType ⟨l.built.length, b⟩ l'
        | .failed e => (p, .refused (notConstructed sequencerType e), l')
        | .panicked q => (p, .ended (.panicked q), l') := by
  refine ⟨_, Ledger.sameBooks_recordedAll _ (c.pick how l.built.length ⟨p.id, config⟩).effects, ?_⟩
  cases ho : (c.pick how l.built.length ⟨p.id, config⟩).outcome <;> simp only [build, ho]

theorem length_built_build (p : Provider) (how : Construction) (sequencerType : String) (c : Constructors) (config : Json)
    (l : Ledger) : (p.build how sequencerType c config l).2.2.built.length = l.built.length + 1 := by
  obtain ⟨l', hl, hbuild⟩ := build_cases p how sequencerType c config l
  have hb : l'.built.length = l.built.length + 1 := by simp [hl.built, Ledger.constructed]
  rw [hbuild]
  cases (c.pick how l.built.length ⟨p.id, config⟩).outcome <;> exact hb

/-- A constructor is called, and what it builds is registered. -/
theorem build_served {p : Provider} {how : Construction} {token sequencerType config : String} {c : Constructors}
    {j : Json} {l : Ledger}
    (hm : p.constructed? (.construct how token sequencerType config) l =
      (c.pick how l.built.length ⟨p.id, j⟩).outcome.value?.map (⟨l.built.length, ·⟩)) :
    Served p (.construct how token sequencerType config) l (p.build how sequencerType c j l) := by
  obtain ⟨l₁, hl, hbuild⟩ := build_cases p how sequencerType c j l
  have hb : l₁.built.length = l.built.length + 1 := by simp [hl.built, Ledger.constructed]
  have ha : p.access? (.construct how token sequencerType config) l =
      ((c.pick how l.built.length ⟨p.id, j⟩).outcome.value?.map (⟨l.built.length, ·⟩)).map (.insert l.nextId) := by
    rw [access?, hm]
  rw [hbuild]
  cases ho : (c.pick how l.built.length ⟨p.id, j⟩).outcome with
  | ok b =>
    have hn : l₁.nextId = l.nextId := by simp [Ledger.nextId, hl.supply, hl.minted, Ledger.constructed]
    simp only [ho, Outcome.value?, Option.map_some] at hm ha
    exact {
      provider := by simp [ha, Access.on, enlist, hn]
      supply := by simp [enlist, Ledger.logged, Ledger.mint, hl.supply, Ledger.constructed]
      minted := by simp [enlist, Ledger.logged, Ledger.mint, hl.minted, Ledger.constructed, hm]
      built := by simp [enlist, Ledger.logged, Ledger.mint, hb, hm]
      calls := by simp [enlist, Ledger.logged, Ledger.mint, hl.calls, Ledger.constructed, begins, Request.call?]
      missing := by simp [ha, Access.target?, enlist, Work.answered, Work.IsMissing]
      named := by simp [hm, enlist, Work.answered, Work.minted?, hn]
      removed := by simp [ha, Request.HasRemoved] }
  | failed e =>
    simp only [ho, Outcome.value?, Option.map_none] at hm ha
    exact served_aside hm ha (by simp [Work.refused, Work.IsMissing, notConstructed]) rfl not_false
      (.inr ⟨_, rfl⟩) hl
  | panicked q =>
    simp only [ho, Outcome.value?, Option.map_none] at hm ha
    exact served_aside hm ha not_false rfl not_false (.inr ⟨_, rfl⟩) hl

theorem construct_served (p : Provider) (how : Construction) (token sequencerType config : String) (l : Ledger) :
    Served p (.construct how token sequencerType config) l (p.construct how token sequencerType config l) := by
  unfold construct
  split
  · rename_i ht
    split
    · rename_i hf
      exact served_refused (by simp [constructed?, hf]) (by simp [access?, constructed?, hf]) (by simp [unknownType])
        (.refl l)
    · rename_i c hf
      split
      · rename_i e hc
        have he : e.kind ≠ .notFound := by simp [parseConfig_kind hc]
        have hn : p.constructed? (.construct how token sequencerType config) l = none := by
          simp [constructed?, ht, hf, hc, Except.toOption]
        exact served_refused hn (by simp [access?, hn]) he (.refl l)
      · rename_i j hc
        have hm : p.constructed? (.construct how token sequencerType config) l =
            (c.pick how l.built.length ⟨p.id, j⟩).outcome.value?.map (⟨l.built.length, ·⟩) := by
          simp only [constructed?, ht, if_true, hf, hc, Except.toOption]
          rfl
        exact build_served hm
  · rename_i ht
    exact served_refused (by simp [constructed?, ht]) (by simp [access?, constructed?, ht]) (by simp [invalidToken])
      (l.sameBooks_logged _)

theorem served_missing {p : Provider} {r : Request} {l : Ledger} {a : Access} {id : SequencerId}
    (hc : p.constructed? r l = none) (ha : p.access? r l = some a) (ht : a = .lookup id ∨ a = .remove id)
    (hf : p.live.find? id = none) : Served p r l (p, .refused (notFound id), l) where
  provider := by
    rcases ht with rfl | rfl <;> simp [ha, Access.on, Registry.erase_of_find?_none hf]
  supply := rfl
  minted := by simp [hc]
  built := by simp [hc]
  calls := by rcases ht with rfl | rfl <;> simp [begins, ha, Access.finds, Access.target?, hf]
  missing := by
    rcases ht with rfl | rfl <;> simp [ha, Access.target?, hf, notFound_isMissing]
  named := by simp [hc, Work.refused, Work.minted?]
  removed := by
    rcases ht with rfl | rfl <;> cases r <;> simp [ha, hf, Work.refused, Request.HasRemoved]

theorem served_found {p : Provider} {r : Request} {l l₀ l' : Ledger} {a : Access} {id : SequencerId} {i : Instance}
    {w : Work} (hc : p.constructed? r l = none) (ha : p.access? r l = some a) (ht : a = .lookup id ∨ a = .remove id)
    (hf : p.live.find? id = some i) (hw : ¬ w.IsMissing) (hn : w.minted? = none)
    (hr : r.HasRemoved w ↔ a = .remove id)
    (hl : l₀ = r.call?.elim l (l.called i.serial)) (h : l₀.SameBooks l') :
    Served p r l ({ p with live := a.on p.live }, w, l') where
  provider := by simp [ha]
  supply := by rw [h.supply, hl]; cases r.call? <;> rfl
  minted := by rw [h.minted, hl]; cases r.call? <;> simp [hc, Ledger.called]
  built := by
    have hb : l'.built = l.built := by rw [h.built, hl]; cases r.call? <;> rfl
    simp [hc, hb]
  calls := by
    have hi : (p.access? r l).bind (·.finds p.live.find?) = some i := by
      rcases ht with rfl | rfl <;> simp [ha, Access.finds, Access.target?, hf]
    have hb : p.begins r l = (r.call?.map (i.serial, ·)).toList := by
      simp only [begins, hi]
      cases r.call? <;> rfl
    rw [h.calls, hl, hb]
    cases r.call? <;> simp [Ledger.called]
  missing := by rcases ht with rfl | rfl <;> simp [ha, Access.target?, hf, hw]
  named := by simp [hc, hn]
  removed := by
    rw [hr, ha]
    rcases ht with rfl | rfl <;> simp [hf]

theorem close_served (p : Provider) (token : String) (id : SequencerId) (l : Ledger) :
    Served p (.close token id) l (p.close token id l) := by
  unfold close
  split
  · rename_i ht
    have ha : p.access? (.close token id) l = some (.remove id) := by simp [access?, ht]
    split
    · rename_i hf
      exact served_missing rfl ha (.inr rfl) hf
    · rename_i i hf
      exact served_found rfl ha (.inr rfl) hf not_false rfl (iff_of_true trivial rfl) rfl (l.sameBooks_logged _)
  · rename_i ht
    exact served_refused rfl (by simp [access?, ht]) (by simp [invalidToken]) (l.sameBooks_logged _)

theorem destroy_served (p : Provider) (token : String) (id : SequencerId) (l : Ledger) :
    Served p (.destroy token id) l (p.destroy token id l) := by
  unfold destroy
  split
  · rename_i ht
    have ha : p.access? (.destroy token id) l = some (.remove id) := by simp [access?, ht]
    split
    · rename_i hf
      exact served_missing rfl ha (.inr rfl) hf
    · rename_i i hf
      exact served_found rfl ha (.inr rfl) hf not_false rfl (iff_of_true trivial rfl) rfl (.refl _)
  · rename_i ht
    exact served_refused rfl (by simp [access?, ht]) (by simp [invalidToken]) (l.sameBooks_logged _)

theorem check_served (p : Provider) (id : SequencerId) (l : Ledger) :
    Served p (.check id) l (p, p.check id, l) := by
  unfold check
  split
  · rename_i hf
    exact served_missing rfl rfl (.inl rfl) hf
  · rename_i i hf
    exact served_found rfl rfl (.inl rfl) hf not_false rfl (iff_of_false not_false nofun) rfl (.refl _)

theorem sayHello_served (p : Provider) (id : SequencerId) (l : Ledger) :
    Served p (.sayHello id) l (p, p.sayHello id l) := by
  unfold sayHello
  split
  · rename_i hf
    exact served_missing rfl rfl (.inl rfl) hf
  · rename_i i hf
    have hl := (l.called i.serial .hello).sameBooks_recordedAll (i.backend.sayHello (l.history i.serial)).effects
    dsimp only
    split
    · exact served_found rfl rfl (.inl rfl) hf not_false rfl (iff_of_false not_false nofun) rfl hl
    · exact served_found rfl rfl (.inl rfl) hf not_false rfl (iff_of_false not_false nofun) rfl hl

theorem computeSum_served (p : Provider) (id : SequencerId) (x y : Int32) (l : Ledger) :
    Served p (.computeSum id x y) l (p, p.computeSum id x y l) := by
  unfold computeSum
  split
  · rename_i hf
    exact served_missing rfl rfl (.inl rfl) hf
  · rename_i i hf
    exact served_found rfl rfl (.inl rfl) hf not_false rfl (iff_of_false not_false nofun) rfl (.refl _)

theorem serve_served (p : Provider) (r : Request) (l : Ledger) : Served p r l (p.serve r l) := by
  cases r with
  | construct how token sequencerType config => exact construct_served p how token sequencerType config l
  | close token id => exact close_served p token id l
  | destroy token id => exact destroy_served p token id l
  | check id => exact check_served p id l
  | sayHello id => exact sayHello_served p id l
  | computeSum id x y => exact computeSum_served p id x y l

theorem handle_served (p : Provider) (r : Request) (l : Ledger) : Served p r l (p.handle r l) :=
  (serve_served p r (l.logged (.handling p.id r.op))).sameBooks (l.sameBooks_logged _)
    (Ledger.sameBooks_loggedAll _ _)

theorem handle_id (p : Provider) (r : Request) (l : Ledger) : (p.handle r l).1.id = p.id := by
  rw [(p.handle_served r l).provider]
  rfl

end Provider
end SequencerHub

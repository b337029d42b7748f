import Mathlib.Data.Finset.Insert
import SequencerHub.Proofs.Decisions
import SequencerHub.Proofs.Registry
import SequencerHub.Proofs.Teardown

/-! What the log of a provider tells of its registry. A sequencer is live, as far as the log tells, from the event of
its construction to an event of its end. Requests and teardowns keep the log up to date with what they take out of the
registry, unless a backend panics. -/
namespace SequencerHub

/-- What one more event makes of the sequencers that are live as far as the log tells. -/
def LogEvent.audit (told : Finset SequencerId) : LogEvent → Finset SequencerId
  | constructed _ _ id _ => insert id told
  | closed _ id => told.erase id
  | destroyed _ id _ => told.erase id
  | destroyFailed _ id _ => told.erase id
  | tornDown _ id _ => told.erase id
  | tearDownFailed _ id _ => told.erase id
  | detachedAll _ _ => ∅
  | _ => told

/-- The sequencers that are live as far as the log tells, read from its first event on. -/
def Ledger.told (l : Ledger) : Finset SequencerId := l.log.foldl LogEvent.audit ∅

theorem LogEvent.audit_of_target {e : LogEvent} (h : e.target ≠ "mobject::provider") (told : Finset SequencerId) :
    e.audit told = told := by
  cases e <;> first | rfl | exact absurd rfl h

/-! Backends log too. They are discreet if they leave the log of the provider to the provider. -/

def Effect.Discreet : Effect → Prop
  | note _ => True
  | log e => e.target ≠ "mobject::provider"

def Act.Discreet : Act → Prop
  | effect e => e.Discreet
  | await _ => True

structure Backend.Discreet (b : Backend) : Prop where
  greets : ∀ history, ∀ e ∈ (b.sayHello history).effects, e.Discreet
  sums : ∀ history x y, ∀ a ∈ (b.computeSum history x y).acts, a.Discreet
  destroys : ∀ history, ∀ a ∈ (b.destroy history).acts, a.Discreet

structure Factory.Discreet (f : Factory) : Prop where
  constructs : ∀ name c, f.find? name = some c → ∀ how nth args,
    ∀ e ∈ (Constructors.pick c how nth args).effects, e.Discreet
  built : ∀ name c, f.find? name = some c → ∀ how nth args b,
    (Constructors.pick c how nth args).outcome.value? = some b → b.Discreet

def Registry.Discreet (r : Registry) : Prop := ∀ x ∈ r, x.2.backend.Discreet

structure Provider.Discreet (p : Provider) : Prop where
  factory : p.factory.Discreet
  live : p.live.Discreet

def Work.Discreet (w : Work) : Prop := ∀ a ∈ w.acts, a.Discreet

/-- What it means that the log has told the end of some sequencers and nothing else of the registry. -/
structure Ledger.Reports (l : Ledger) (gone : List SequencerId) (l' : Ledger) : Prop where
  supply : l'.supply = l.supply
  minted : l'.minted = l.minted
  told : ∀ id, id ∈ l'.told ↔ id ∈ l.told ∧ id ∉ gone

namespace Ledger

variable {l l' l'' : Ledger} {gone gone' : List SequencerId}

theorem told_logged (l : Ledger) (e : LogEvent) : (l.logged e).told = e.audit l.told := by
  simp [told, logged]

theorem reports_of_log (hs : l'.supply = l.supply) (hm : l'.minted = l.minted) (hl : l'.log = l.log) :
    l.Reports [] l' :=
  ⟨hs, hm, fun id => by simp [told, hl]⟩

theorem Reports.refl (l : Ledger) : l.Reports [] l := reports_of_log rfl rfl rfl

theorem Reports.trans (h : l.Reports gone l') (h' : l'.Reports gone' l'') : l.Reports (gone ++ gone') l'' where
  supply := h'.supply.trans h.supply
  minted := h'.minted.trans h.minted
  told := fun id => by
    rw [h'.told, h.told, List.mem_append, not_or, and_assoc]

theorem Reports.told_eq (h : l.Reports [] l') : l'.told = l.told := by
  ext id
  rw [h.told]
  exact and_iff_left List.not_mem_nil

theorem Reports.nextId_eq (h : l.Reports gone l') : l'.nextId = l.nextId := by
  rw [nextId, nextId, h.supply, h.minted]

theorem reports_aside {e : LogEvent} (h : ∀ told, e.audit told = told) (l : Ledger) : l.Reports [] (l.logged e) :=
  ⟨rfl, rfl, fun id => by simp [told_logged, h]⟩

theorem reports_end {e : LogEvent} {id : SequencerId} (h : ∀ told, e.audit told = told.erase id) (l : Ledger) :
    l.Reports [id] (l.logged e) :=
  ⟨rfl, rfl, fun id' => by simp [told_logged, h, and_comm]⟩

theorem reports_recorded {e : Effect} (h : e.Discreet) (l : Ledger) : l.Reports [] (l.recorded e) := by
  cases e with
  | note entry => exact reports_of_log rfl rfl rfl
  | log e => exact reports_aside (LogEvent.audit_of_target h) l

theorem reports_recordedAll {effects : List Effect} (h : ∀ e ∈ effects, e.Discreet) (l : Ledger) :
    l.Reports [] (l.recordedAll effects) := by
  induction effects generalizing l with
  | nil => exact .refl l
  | cons e effects ih =>
    have hfirst := l.reports_recorded (h e List.mem_cons_self)
    exact hfirst.trans (ih (fun e' he' => h e' (List.mem_cons_of_mem _ he')) (l.recorded e))

theorem reports_runActs (opened : Gates) {acts : List Act} (h : ∀ a ∈ acts, a.Discreet) (l : Ledger) :
    l.Reports [] (runActs opened acts l).2 := by
  induction acts generalizing l with
  | nil => exact .refl l
  | cons a acts ih =>
    have hrest : ∀ l : Ledger, l.Reports [] (runActs opened acts l).2 :=
      ih fun a' ha' => h a' (List.mem_cons_of_mem _ ha')
    cases a with
    | effect e => exact (l.reports_recorded (h _ List.mem_cons_self)).trans (hrest (l.recorded e))
    | await gate =>
      simp only [runActs]
      split
      · exact hrest l
      · exact .refl l

theorem discreet_runActs (opened : Gates) {acts : List Act} (h : ∀ a ∈ acts, a.Discreet) (l : Ledger) :
    ∀ a ∈ (runActs opened acts l).1, a.Discreet :=
  fun a ha => h a ((runActs_suffix opened acts l).subset ha)

theorem reports_called (l : Ledger) (serial : Nat) (c : Call) : l.Reports [] (l.called serial c) :=
  reports_of_log rfl rfl rfl

end Ledger

def Outcome.told (id : SequencerId) : Outcome Bool → List SequencerId
  | .panicked _ => []
  | _ => [id]

namespace Work

theorem discreet_ended (e : Ending) : (ended e).Discreet := fun _ ha => absurd ha List.not_mem_nil

/-- The sequencer whose end is still to be logged. -/
def owed : Work → List SequencerId
  | destroying id _ outcome => outcome.told id
  | _ => []

def IsDoomed : Work → Prop
  | destroying _ _ outcome => ∃ q, outcome = .panicked q
  | _ => False

theorem reports_destroyEvents (providerId : UInt16) (id : SequencerId) (outcome : Outcome Bool) (l : Ledger) :
    l.Reports (outcome.told id) ((destroyEvents providerId id outcome).foldl Ledger.logged l) := by
  cases outcome with
  | ok b => exact Ledger.reports_end (fun _ => rfl) l
  | failed e => exact Ledger.reports_end (fun _ => rfl) l
  | panicked q => exact .refl l

/-- A request that goes on logs the end of the sequencer that it owes, or owes it still. -/
theorem resume_reports (opened : Gates) (providerId : UInt16) {w : Work} (h : w.Discreet) (l : Ledger) :
    ∃ gone, l.Reports gone (w.resume opened providerId l).2 ∧
      w.owed = gone ++ (w.resume opened providerId l).1.owed ∧ (w.resume opened providerId l).1.Discreet := by
  cases w with
  | ended e => exact ⟨[], .refl l, rfl, h⟩
  | summing acts outcome =>
    have hran : l.Reports [] (runActs opened acts l).2 := Ledger.reports_runActs opened h l
    have hleft : ∀ a ∈ (runActs opened acts l).1, a.Discreet := Ledger.discreet_runActs opened h l
    simp only [resume]
    split
    · rename_i l' heq
      exact ⟨[], by rwa [heq] at hran, rfl, discreet_ended _⟩
    · rename_i acts' l' _ heq
      rw [heq] at hran hleft
      exact ⟨[], hran, rfl, hleft⟩
  | destroying id acts outcome =>
    have hran : l.Reports [] (runActs opened acts l).2 := Ledger.reports_runActs opened h l
    have hleft : ∀ a ∈ (runActs opened acts l).1, a.Discreet := Ledger.discreet_runActs opened h l
    simp only [resume]
    split
    · rename_i l' heq
      rw [heq] at hran
      refine ⟨outcome.told id, ?_, (List.append_nil _).symm, discreet_ended _⟩
      exact hran.trans (reports_destroyEvents providerId id outcome l')
    · rename_i acts' l' _ heq
      rw [heq] at hran hleft
      exact ⟨[], hran, rfl, hleft⟩

end Work

namespace Teardown

theorem reports_events (providerId : UInt16) (id : SequencerId) (outcome : Outcome Bool) (l : Ledger) :
    l.Reports (outcome.told id) ((events providerId id outcome).foldl Ledger.logged l) := by
  cases outcome with
  | ok b => exact Ledger.reports_end (fun _ => rfl) l
  | failed e => exact Ledger.reports_end (fun _ => rfl) l
  | panicked q => exact .refl l

/-- What it means that a teardown of some sequencers has come to where it is: it has logged the end of the first of
them, and a panic lets go of the rest. -/
structure Tells (owed : List SequencerId) (l : Ledger) (left : List SequencerId) (stopped : Prop) (l' : Ledger) :
    Prop where
  intro ::
  exists_gone : ∃ gone lost, l.Reports gone l' ∧ owed = gone ++ (lost ++ left) ∧ (lost = [] ↔ ¬ stopped)

theorem Tells.of_reports {owed left gone : List SequencerId} {l l' l'' : Ledger} {stopped : Prop}
    (h : l.Reports gone l') (h' : Tells owed l' left stopped l'') : Tells (gone ++ owed) l left stopped l'' := by
  obtain ⟨gone', lost, hr, ho, hl⟩ := h'
  exact ⟨gone ++ gone', lost, h.trans hr, by rw [ho, List.append_assoc], hl⟩

namespace Progress

def ids : Progress → List SequencerId
  | waiting id _ _ instances => id :: instances.ids
  | _ => []

def Discreet : Progress → Prop
  | waiting _ acts _ instances => (∀ a ∈ acts, a.Discreet) ∧ instances.Discreet
  | _ => True

end Progress

def ids : Teardown → List SequencerId
  | waiting _ id _ _ instances _ => id :: instances.ids
  | _ => []

def Discreet : Teardown → Prop
  | waiting _ _ acts _ instances providers =>
    (∀ a ∈ acts, a.Discreet) ∧ instances.Discreet ∧ providers = []
  | _ => True

theorem runCall_reports (opened : Gates) (providerId : UInt16) (id : SequencerId) {acts : List Act}
    (h : ∀ a ∈ acts, a.Discreet) (outcome : Outcome Bool) (instances : Registry) (l : Ledger) :
    (∃ acts' l', runCall opened providerId id acts outcome instances l = (.waiting id acts' outcome instances, l') ∧
        (∀ a ∈ acts', a.Discreet) ∧ l.Reports [] l') ∨
      (∃ l', runCall opened providerId id acts outcome instances l = (.finished, l') ∧ l.Reports [id] l') ∨
        ∃ q l', runCall opened providerId id acts outcome instances l = (.panicked q, l') ∧ l.Reports [] l' := by
  have hran := Ledger.reports_runActs opened h l
  have hleft := Ledger.discreet_runActs opened h l
  unfold runCall
  split
  · rename_i l₁ heq
    rw [heq] at hran
    have hl := hran.trans (reports_events providerId id outcome l₁)
    cases outcome with
    | ok b => exact .inr (.inl ⟨_, rfl, hl⟩)
    | failed e => exact .inr (.inl ⟨_, rfl, hl⟩)
    | panicked q => exact .inr (.inr ⟨q, _, rfl, hl⟩)
  · rename_i acts' l₁ _ heq
    rw [heq] at hran hleft
    exact .inl ⟨acts', l₁, rfl, hleft, hran⟩

theorem destroyAll_tells (opened : Gates) (providerId : UInt16) {r : Registry} (h : r.Discreet) (l : Ledger) :
    Tells r.ids l (destroyAll opened providerId r l).1.ids (destroyAll opened providerId r l).1.IsPanicked
        (destroyAll opened providerId r l).2 ∧
      (destroyAll opened providerId r l).1.Discreet := by
  induction r generalizing l with
  | nil => exact ⟨⟨[], [], .refl l, rfl, iff_of_true rfl not_false⟩, trivial⟩
  | cons x more ih =>
    obtain ⟨id, i⟩ := x
    have hmore : Registry.Discreet more := fun y hy => h y (List.mem_cons_of_mem _ hy)
    have hacts : ∀ a ∈ (i.backend.destroy (l.history i.serial)).acts, a.Discreet :=
      (h (id, i) List.mem_cons_self).destroys (l.history i.serial)
    have hcalled := l.reports_called i.serial .destroy
    obtain ⟨acts', l', hr, ha, hl⟩ | ⟨l', hr, hl⟩ | ⟨q, l', hr, hl⟩ := runCall_reports opened providerId id hacts
      (i.backend.destroy (l.history i.serial)).outcome more (l.called i.serial .destroy)
    · simp only [destroyAll, hr]
      exact ⟨⟨[], [], hcalled.trans hl, rfl, iff_of_true rfl not_false⟩, ha, hmore⟩
    · simp only [destroyAll, hr]
      exact ⟨Tells.of_reports (hcalled.trans hl) (ih hmore l').1, (ih hmore l').2⟩
    · simp only [destroyAll, hr]
      exact ⟨⟨[], id :: Registry.ids more, hcalled.trans hl, by simp [Registry.ids, Progress.ids],
        iff_of_false (List.cons_ne_nil _ _) (not_not_intro trivial)⟩, trivial⟩

theorem ofProgress_alone (providerId : UInt16) (progress : Progress) :
    ((ofProgress providerId [] progress).getD .finished).ids = progress.ids ∧
      (((ofProgress providerId [] progress).getD .finished).IsPanicked ↔ progress.IsPanicked) ∧
      (progress.Discreet → ((ofProgress providerId [] progress).getD .finished).Discreet) := by
  cases progress with
  | finished => exact ⟨rfl, .rfl, id⟩
  | panicked q => exact ⟨rfl, .rfl, id⟩
  | waiting id acts outcome instances => exact ⟨rfl, .rfl, fun h => ⟨h.1, h.2, rfl⟩⟩

/-- A teardown that destroys tells what it does; one that detaches tells it of all sequencers at once. -/
theorem tearDown_tells (opened : Gates) {p : Provider} (h : p.Discreet) (hp : p.options.teardown = .destroy)
    (l : Ledger) :
    Tells p.live.ids l (p.tearDown opened l).2.1.ids (p.tearDown opened l).2.1.IsPanicked (p.tearDown opened l).2.2 ∧
      (p.tearDown opened l).2.1.Discreet := by
  obtain ⟨htells, hdiscreet⟩ := destroyAll_tells opened p.options.providerId h.live l
  obtain ⟨hids, hpanic, hd⟩ := ofProgress_alone p.id (destroyAll opened p.options.providerId p.live l).1
  simp only [Provider.tearDown, dismiss, hp, hids, hpanic]
  exact ⟨htells, hd hdiscreet⟩

theorem tearDown_detach (opened : Gates) {p : Provider} (hp : p.options.teardown = .detach) (l : Ledger) :
    (p.tearDown opened l).2 =
      (.finished, if p.live.isEmpty then l else l.logged (.detachedAll p.options.providerId p.live.length)) := by
  simp only [Provider.tearDown, dismiss, hp, ofProgress, Option.getD_none]

theorem all_alone (opened : Gates) (p : Provider) (l : Ledger) :
    all opened [p] l = (p.tearDown opened (l.logged (.tearingDown p.id))).2 := by
  simp only [all, Provider.tearDown]
  cases ofProgress p.id [] (dismiss opened p.options p.live (l.logged (.tearingDown p.id))).1 <;> rfl

theorem resume_alone (opened : Gates) (providerId : UInt16) (id : SequencerId) (acts : List Act)
    (outcome : Outcome Bool) (instances : Registry) (l : Ledger) : resume opened (waiting providerId id acts outcome instances []) l =
      match runCall opened providerId id acts outcome instances l with
      | (.finished, l') => ((ofProgress providerId [] (destroyAll opened providerId instances l').1).getD .finished,
          (destroyAll opened providerId instances l').2)
      | (stopped, l') => ((ofProgress providerId [] stopped).getD .finished, l') := by
  simp only [resume]
  generalize runCall opened providerId id acts outcome instances l = ran
  obtain ⟨_ | q | ⟨id', acts', outcome', instances'⟩, l'⟩ := ran
  · simp only
    cases ofProgress providerId [] (destroyAll opened providerId instances l').1 <;> rfl
  · rfl
  · rfl

theorem resume_tells (opened : Gates) {t : Teardown} (h : t.Discreet) (l : Ledger) :
    Tells t.ids l (t.resume opened l).1.ids (¬ t.IsPanicked ∧ (t.resume opened l).1.IsPanicked) (t.resume opened l).2 ∧
      (t.resume opened l).1.Discreet := by
  cases t with
  | finished => exact ⟨⟨[], [], .refl l, rfl, iff_of_true rfl fun hs => hs.2⟩, trivial⟩
  | panicked q => exact ⟨⟨[], [], .refl l, rfl, iff_of_true rfl fun hs => hs.1 trivial⟩, trivial⟩
  | waiting providerId id acts outcome instances providers =>
    obtain ⟨hacts, hinstances, rfl⟩ := h
    have hstopped : ∀ t' : Teardown,
        (¬ (waiting providerId id acts outcome instances []).IsPanicked ∧ t'.IsPanicked) ↔ t'.IsPanicked :=
      fun t' => and_iff_right not_false
    simp only [hstopped, resume_alone]
    obtain ⟨acts', l', hr, ha, hl⟩ | ⟨l', hr, hl⟩ | ⟨q, l', hr, hl⟩ :=
      runCall_reports opened providerId id hacts outcome instances l
    · simp only [hr]
      exact ⟨⟨[], [], hl, rfl, iff_of_true rfl not_false⟩, ha, hinstances, rfl⟩
    · obtain ⟨htells, hdiscreet⟩ := destroyAll_tells opened providerId hinstances l'
      obtain ⟨hids, hpanic, hd⟩ := ofProgress_alone providerId (destroyAll opened providerId instances l').1
      simp only [hr, hids, hpanic]
      exact ⟨Tells.of_reports hl htells, hd hdiscreet⟩
    · simp only [hr]
      exact ⟨⟨[], id :: instances.ids, hl, by simp [ofProgress, ids],
        iff_of_false (List.cons_ne_nil _ _) (not_not_intro trivial)⟩, trivial⟩

end Teardown

namespace Provider

variable {p : Provider} {l l₀ l₁ l' : Ledger} {q : Provider} {w : Work}

/-- What it means for registry and log that a request has been served up to where its backend call would first wait. -/
inductive Audited (p : Provider) (l : Ledger) (out : Provider × Work × Ledger) : Prop
  /-- A sequencer has been constructed, and the log tells of it. -/
  | entered (i : Instance) (live : out.1.live = p.live.insert l.nextId i) (owed : out.2.1.owed = [])
      (sound : ¬ out.2.1.IsDoomed) (supply : out.2.2.supply = l.supply) (minted : out.2.2.minted = l.minted + 1)
      (told : out.2.2.told = insert l.nextId l.told)
  /-- What has left the registry has its end in the log, or will have it, or a panic will keep it out. -/
  | departed (gone lost : List SequencerId) (reports : l.Reports gone out.2.2)
      (perm : p.live.ids.Perm (gone ++ (lost ++ (out.2.1.owed ++ out.1.live.ids))))
      (lost_iff : lost = [] ↔ ¬ out.2.1.IsDoomed)

theorem Audited.aside (hl : l.Reports [] l') (ho : w.owed = []) (hd : ¬ w.IsDoomed) : Audited p l (p, w, l') :=
  .departed [] [] hl (by simp [ho]) (iff_of_true rfl hd)

theorem Audited.around (h₀ : l.Reports [] l₀) (h : Audited p l₀ (q, w, l')) (h₁ : l'.Reports [] l₁) :
    Audited p l (q, w, l₁) := by
  cases h with
  | entered i live owed sound supply minted told =>
    rw [h₀.nextId_eq] at live told
    refine .entered i live owed sound ?_ ?_ ?_
    · exact h₁.supply.trans (supply.trans h₀.supply)
    · exact h₁.minted.trans (minted.trans (congrArg (· + 1) h₀.minted))
    · exact h₁.told_eq.trans (told.trans (by rw [h₀.told_eq]))
  | departed gone lost reports perm lost_iff =>
    refine .departed gone lost ?_ perm lost_iff
    have hall := (h₀.trans reports).trans h₁
    rwa [List.nil_append, List.append_nil] at hall

structure Kept (p : Provider) (l : Ledger) (out : Provider × Work × Ledger) : Prop where
  audited : Audited p l out
  provider : out.1.Discreet
  work : out.2.1.Discreet

theorem Kept.aside (h : p.Discreet) (hl : l.Reports [] l') (ho : w.owed = []) (hd : ¬ w.IsDoomed) (hw : w.Discreet) :
    Kept p l (p, w, l') :=
  ⟨.aside hl ho hd, h, hw⟩

theorem Kept.refused (h : p.Discreet) (hl : l.Reports [] l') (e : RemoteError) : Kept p l (p, .refused e, l') :=
  .aside h hl rfl not_false (Work.discreet_ended _)

theorem build_kept (h : p.Discreet) (how : Construction) {name : String} {c : Constructors}
    (hc : p.factory.find? name = some c) (config : Json) (l : Ledger) : Kept p l (p.build how name c config l) := by
  have hmade := h.factory.constructs name c hc how l.built.length ⟨p.id, config⟩
  have hbuilt := h.factory.built name c hc how l.built.length ⟨p.id, config⟩
  have hcalled : l.Reports [] (l.constructed ⟨how, name, ⟨p.id, config⟩⟩) := Ledger.reports_of_log rfl rfl rfl
  have hl := hcalled.trans (Ledger.reports_recordedAll hmade _)
  simp only [build]
  generalize (l.constructed ⟨how, name, ⟨p.id, config⟩⟩).recordedAll
    (c.pick how l.built.length ⟨p.id, config⟩).effects = l' at hl
  generalize (c.pick how l.built.length ⟨p.id, config⟩).outcome = outcome at hbuilt
  cases outcome with
  | failed e => exact .refused h hl _
  | panicked q => exact .aside h hl rfl not_false (Work.discreet_ended _)
  | ok b =>
    refine ⟨?_, ⟨h.factory, fun x hx => ?_⟩, Work.discreet_ended _⟩
    · refine .entered ⟨l.built.length, b⟩ (by simp only [enlist, hl.nextId_eq]) rfl not_false hl.supply ?_ ?_
      · exact congrArg (· + 1) hl.minted
      · have htold : (l'.mint).told = l.told := hl.told_eq
        simp only [enlist, Ledger.told_logged, LogEvent.audit, htold, hl.nextId_eq]
    · obtain hx | rfl := Registry.mem_insert.mp hx
      · exact h.live x hx.1
      · exact hbuilt b rfl

theorem construct_kept (h : p.Discreet) (how : Construction) (token name config : String) (l : Ledger) :
    Kept p l (p.construct how token name config l) := by
  unfold construct
  split
  · split
    · exact .refused h (.refl l) _
    · rename_i c hc
      split
      · exact .refused h (.refl l) _
      · exact build_kept h how hc _ l
  · exact .refused h (Ledger.reports_aside (fun _ => rfl) l) _

theorem perm_ids_erase (hn : p.live.ids.Nodup) {id : SequencerId} {i : Instance} (hf : p.live.find? id = some i) :
    p.live.ids.Perm (id :: (p.live.erase id).ids) :=
  (Registry.perm_erase hn hf).map Prod.fst

theorem Discreet.erase (h : p.Discreet) (id : SequencerId) : Discreet { p with live := p.live.erase id } :=
  ⟨h.factory, fun x hx => h.live x (Registry.mem_erase.mp hx).1⟩

theorem close_kept (h : p.Discreet) (hn : p.live.ids.Nodup) (token : String) (id : SequencerId) (l : Ledger) :
    Kept p l (p.close token id l) := by
  unfold close
  split
  · split
    · exact .refused h (.refl l) _
    · rename_i i hf
      refine ⟨?_, h.erase id, Work.discreet_ended _⟩
      exact .departed [id] [] (Ledger.reports_end (fun _ => rfl) l) (perm_ids_erase hn hf) (iff_of_true rfl not_false)
  · exact .refused h (Ledger.reports_aside (fun _ => rfl) l) _

theorem destroy_kept (h : p.Discreet) (hn : p.live.ids.Nodup) (token : String) (id : SequencerId) (l : Ledger) :
    Kept p l (p.destroy token id l) := by
  unfold destroy
  split
  · split
    · exact .refused h (.refl l) _
    · rename_i i hf
      refine ⟨?_, h.erase id, (h.live _ (Registry.mem_of_find? hf)).destroys _⟩
      have hcalled := l.reports_called i.serial .destroy
      have hperm := perm_ids_erase hn hf
      dsimp only
      generalize (i.backend.destroy (l.history i.serial)).outcome = outcome
      cases outcome with
      | panicked q =>
        -- The end is lost as soon as the call begins: nothing that comes later can log it.
        exact .departed [] [id] hcalled hperm (iff_of_false (List.cons_ne_nil _ _) (not_not_intro ⟨q, rfl⟩))
      | _ => exact .departed [] [] hcalled hperm (iff_of_true rfl nofun)
  · exact .refused h (Ledger.reports_aside (fun _ => rfl) l) _

theorem check_kept (h : p.Discreet) (id : SequencerId) (l : Ledger) : Kept p l (p, p.check id, l) := by
  unfold check
  split
  · exact .refused h (.refl l) _
  · exact .aside h (.refl l) rfl not_false (Work.discreet_ended _)

theorem sayHello_kept (h : p.Discreet) (id : SequencerId) (l : Ledger) : Kept p l (p, p.sayHello id l) := by
  unfold sayHello
  split
  · exact .refused h (.refl l) _
  · rename_i i hf
    have hgreets := (h.live _ (Registry.mem_of_find? hf)).greets (l.history i.serial)
    have hl := (l.reports_called i.serial .hello).trans (Ledger.reports_recordedAll hgreets _)
    dsimp only
    split
    all_goals exact .aside h hl rfl not_false (Work.discreet_ended _)

theorem computeSum_kept (h : p.Discreet) (id : SequencerId) (x y : Int32) (l : Ledger) :
    Kept p l (p, p.computeSum id x y l) := by
  unfold computeSum
  split
  · exact .refused h (.refl l) _
  · rename_i i hf
    exact .aside h (l.reports_called i.serial (.sum x y)) rfl not_false
      ((h.live _ (Registry.mem_of_find? hf)).sums (l.history i.serial) x y)

theorem serve_kept (h : p.Discreet) (hn : p.live.ids.Nodup) (r : Request) (l : Ledger) : Kept p l (p.serve r l) := by
  cases r with
  | construct how token name config => exact construct_kept h how token name config l
  | close token id => exact close_kept h hn token id l
  | destroy token id => exact destroy_kept h hn token id l
  | check id => exact check_kept h id l
  | sayHello id => exact sayHello_kept h id l
  | computeSum id x y => exact computeSum_kept h id x y l

theorem reports_droppedEvents (p : Provider) (r : Request) (w : Work) (l : Ledger) :
    l.Reports [] ((p.droppedEvents r w).foldl Ledger.logged l) := by
  unfold droppedEvents
  split
  · exact Ledger.reports_aside (fun _ => rfl) l
  · exact .refl l

theorem handle_kept (h : p.Discreet) (hn : p.live.ids.Nodup) (r : Request) (l : Ledger) : Kept p l (p.handle r l) := by
  have hl : l.Reports [] (l.logged (.handling p.id r.op)) := Ledger.reports_aside (fun _ => rfl) l
  obtain ⟨haudited, hprovider, hwork⟩ := serve_kept h hn r (l.logged (.handling p.id r.op))
  exact ⟨haudited.around hl (reports_droppedEvents p r _ _), hprovider, hwork⟩

end Provider
end SequencerHub

import SequencerHub.Proofs.LogFrame
import SequencerHub.Proofs.Routing

/-! What a provider decides on a request is settled when the request begins, whatever its backend waits for. The reply
carries the decision, at the type that the client expects. -/
namespace SequencerHub

section Acts

variable (opened : Gates) (acts : List Act) (l : Ledger)

theorem runActs_suffix : (runActs opened acts l).1 <:+ acts := by
  induction acts generalizing l with
  | nil => exact List.suffix_refl []
  | cons a acts ih =>
    cases a with
    | effect e => exact (ih _).trans (List.suffix_cons _ _)
    | await g =>
      simp only [runActs]
      split
      · exact (ih _).trans (List.suffix_cons _ _)
      · exact List.suffix_refl _

theorem runActs_ne_nil_iff : (runActs opened acts l).1 ≠ [] ↔ ∃ g, .await g ∈ acts ∧ g ∉ opened := by
  induction acts generalizing l with
  | nil => simp [runActs]
  | cons a acts ih =>
    cases a with
    | effect e => simp [runActs, ih]
    | await g =>
      by_cases hg : g ∈ opened
      · simp [runActs, hg, ih]
      · simp [runActs, hg]

/-- A run of acts comes to its end, or stops at a gate that is closed. -/
theorem runActs_cases : (¬ (∃ g, .await g ∈ acts ∧ g ∉ opened) ∧ ∃ l', runActs opened acts l = ([], l')) ∨
    (∃ g, .await g ∈ acts ∧ g ∉ opened) ∧ ∃ a left l', runActs opened acts l = (a :: left, l') ∧ a :: left <:+ acts := by
  have hleft := runActs_ne_nil_iff opened acts l
  have hs := runActs_suffix opened acts l
  generalize runActs opened acts l = ran at hleft hs ⊢
  obtain ⟨_ | ⟨a, left⟩, l'⟩ := ran
  · exact .inl ⟨fun hw => hleft.mpr hw rfl, l', rfl⟩
  · exact .inr ⟨hleft.mp (List.cons_ne_nil a left), a, left, l', rfl, hs⟩

end Acts

namespace Work

def ending : Work → Ending
  | ended e => e
  | summing _ outcome => sumEnding outcome
  | destroying _ _ outcome => destroyEnding outcome

def acts : Work → List Act
  | ended _ => []
  | summing acts _ => acts
  | destroying _ acts _ => acts

/-- Whether the backend waits at a gate that is closed. -/
def Waits (opened : Gates) (w : Work) : Prop := ∃ g, .await g ∈ w.acts ∧ g ∉ opened

variable (opened : Gates) (providerId : UInt16) (w : Work) (l : Ledger)

/-- What goes on has ended, or its backend waits and it will end as before. -/
theorem resume_cases : (¬ w.Waits opened ∧ (w.resume opened providerId l).1 = .ended w.ending) ∨
    (w.Waits opened ∧ (w.resume opened providerId l).1.ending = w.ending ∧
      (w.resume opened providerId l).1.acts <:+ w.acts ∧ ∀ e, (w.resume opened providerId l).1 ≠ .ended e) := by
  cases w with
  | ended e =>
    refine .inl ⟨?_, rfl⟩
    rintro ⟨g, ⟨⟩, -⟩
  | summing acts outcome =>
    obtain ⟨hw, l', hran⟩ | ⟨hw, a, left, l', hran, hs⟩ := runActs_cases opened acts l <;> simp only [resume, hran]
    · exact .inl ⟨hw, rfl⟩
    · exact .inr ⟨hw, rfl, hs, fun e he => by cases he⟩
  | destroying id acts outcome =>
    obtain ⟨hw, l', hran⟩ | ⟨hw, a, left, l', hran, hs⟩ := runActs_cases opened acts l <;> simp only [resume, hran]
    · exact .inl ⟨hw, rfl⟩
    · exact .inr ⟨hw, rfl, hs, fun e he => by cases he⟩

theorem not_waits_of_suffix {w w' : Work} (h : w'.acts <:+ w.acts) (hw : ¬ w.Waits opened) : ¬ w'.Waits opened := by
  rintro ⟨g, hg, ho⟩
  exact hw ⟨g, h.subset hg, ho⟩

end Work

namespace Ending

/-- What is decided by an end: a panic is a failure of the backend. -/
def decision (op : Operation) : Ending → Except RemoteError Answer
  | answered r => r
  | panicked q => .error ⟨.backendOperation, s!"{op.name} panicked: {q.message}"⟩

def reply (op : Operation) : Ending → Json
  | answered r => op.reply r
  | panicked q => Dispatch.panicReply op q

theorem carries_reply (op : Operation) (e : Ending) : Http.Carries (e.reply op) := by
  cases e with
  | answered r => exact Http.carries_reply op r
  | panicked q => exact Http.carries_panicReply op q

/-- The reply carries the decision, but for a greeting. -/
theorem reply_eq {op : Operation} (h : op ≠ .sayHello) (e : Ending) :
    e.reply op = (Envelope.ofResult (e.decision op)).toJson Answer.toJson := by
  cases e with
  | answered r => cases op <;> first | rfl | exact absurd rfl h
  | panicked q => rfl

end Ending

theorem unwrap_reply {α : Type} {p : Payload α} (hp : p.Faithful) {inj : α → Answer}
    (hw : ∀ v, (inj v).toJson = p.write v) {op : Operation} (hop : op ≠ .sayHello) {e : Ending}
    {t : Except RemoteError α} (ht : e.decision op = t.map inj) : unwrap p (e.reply op) = t.mapError .remote := by
  have hj : e.reply op = (Envelope.ofResult t).toJson p.write := by
    rw [e.reply_eq hop, ht]
    cases t with
    | error r => rfl
    | ok v => simp [Except.map, Envelope.ofResult, Envelope.toJson, hw]
  rw [hj, unwrap_toJson hp]
  cases t <;> rfl

namespace Provider

variable (p : Provider) (l : Ledger)

/-- What a request comes to when the provider has consulted its registry. -/
def work (r : Request) : Work := (p.serve r l).2.1

/-- What the provider decides on a request, and tells whoever asks it directly. -/
def decision (r : Request) : Except RemoteError Answer := (p.work l r).ending.decision r.op

/-- The log has no part in what a provider does. -/
theorem handle_work (r : Request) : (p.handle r l).2.1 = p.work l r := by
  have hwork : ∀ log, p.work { l with log } r = p.work { l with log := [] } r := by
    intro log
    have hl : ({ l with log } : Ledger) = ({ l with log := [] } : Ledger).behind log := by simp [Ledger.behind]
    rw [hl, work, serve_behind]
    rfl
  exact (hwork (l.log ++ [.handling p.id r.op])).trans (hwork l.log).symm

theorem decision_construct (how : Construction) (token sequencerType config : String) :
    ∃ t : Except RemoteError SequencerId, p.decision l (.construct how token sequencerType config) = t.map .id := by
  simp only [decision, work, serve, construct]
  split
  · split
    · exact ⟨.error _, rfl⟩
    · split
      · exact ⟨.error _, rfl⟩
      · simp only [build]
        split
        · exact ⟨.ok _, rfl⟩
        · exact ⟨.error _, rfl⟩
        · exact ⟨.error _, rfl⟩
  · exact ⟨.error _, rfl⟩

theorem decision_close (token : String) (id : SequencerId) :
    ∃ t : Except RemoteError Bool, p.decision l (.close token id) = t.map .flag := by
  simp only [decision, work, serve, close]
  split
  · split
    · exact ⟨.error _, rfl⟩
    · exact ⟨.ok true, rfl⟩
  · exact ⟨.error _, rfl⟩

theorem decision_destroy (token : String) (id : SequencerId) :
    ∃ t : Except RemoteError Bool, p.decision l (.destroy token id) = t.map .flag := by
  simp only [decision, work, serve, destroy]
  split
  · split
    · exact ⟨.error _, rfl⟩
    · rename_i i _
      simp only [Work.ending]
      cases (i.backend.destroy (l.history i.serial)).outcome with
      | ok b => exact ⟨.ok b, rfl⟩
      | failed e => exact ⟨.error _, rfl⟩
      | panicked q => exact ⟨.error _, rfl⟩
  · exact ⟨.error _, rfl⟩

theorem decision_check (id : SequencerId) :
    ∃ t : Except RemoteError Bool, p.decision l (.check id) = t.map .flag := by
  simp only [decision, work, serve, check]
  split
  · exact ⟨.error _, rfl⟩
  · exact ⟨.ok true, rfl⟩

theorem decision_computeSum (id : SequencerId) (x y : Int32) :
    ∃ t : Except RemoteError Int32, p.decision l (.computeSum id x y) = t.map .sum := by
  simp only [decision, work, serve, computeSum]
  split
  · exact ⟨.error _, rfl⟩
  · rename_i i _
    simp only [Work.ending]
    cases (i.backend.computeSum (l.history i.serial) x y).outcome with
    | ok n => exact ⟨.ok n, rfl⟩
    | failed e => exact ⟨.error _, rfl⟩
    | panicked q => exact ⟨.error _, rfl⟩

/-- Only sums and destructions can wait. -/
theorem work_ended {r : Request} (hd : r.op ≠ .destroySequencer) (hs : r.op ≠ .computeSum) :
    ∃ e, p.work l r = .ended e := by
  cases r with
  | construct how token sequencerType config =>
    simp only [work, serve, construct]
    split
    · split
      · exact ⟨_, rfl⟩
      · split
        · exact ⟨_, rfl⟩
        · simp only [build]
          split <;> exact ⟨_, rfl⟩
    · exact ⟨_, rfl⟩
  | close token id =>
    simp only [work, serve, close]
    split
    · split <;> exact ⟨_, rfl⟩
    · exact ⟨_, rfl⟩
  | destroy token id => exact absurd rfl hd
  | check id =>
    simp only [work, serve, check]
    split <;> exact ⟨_, rfl⟩
  | sayHello id =>
    simp only [work, serve, sayHello]
    split
    · exact ⟨_, rfl⟩
    · split <;> exact ⟨_, rfl⟩
  | computeSum id x y => exact absurd rfl hs

theorem work_not_waits {r : Request} (hd : r.op ≠ .destroySequencer) (hs : r.op ≠ .computeSum) (opened : Gates) :
    ¬ (p.work l r).Waits opened := by
  obtain ⟨e, he⟩ := p.work_ended l hd hs
  rintro ⟨g, hg, -⟩
  rw [he] at hg
  cases hg

end Provider
end SequencerHub

import SequencerHub.Host.Basic
import SequencerHub.Proofs.Teardown

/-! The teardown of a host, provider by provider, with the providers whose turn has come and those whose turn has not.
A panic lets go of the latter as they are. -/
namespace SequencerHub

def Instance.Panics (i : Instance) (l : Ledger) : Prop :=
  ∃ q, (i.backend.destroy (l.history i.serial)).outcome = .panicked q

def Ledger.destroying (l : Ledger) (done : List Instance) : Ledger :=
  { l with calls := l.calls ++ done.map fun i => (i.serial, .destroy) }

/-- Whether instances are destroyed in turn without a panic. -/
def Ledger.Calm (l : Ledger) (done : List Instance) : Prop :=
  ∀ before i after, done = before ++ i :: after → ¬ i.Panics (l.destroying before)

namespace Ledger

theorem calm_nil (l : Ledger) : l.Calm [] := fun before i after h => by simp at h

theorem calm_concat {l : Ledger} {done : List Instance} {i : Instance} (h : l.Calm done)
    (hi : ¬ i.Panics (l.destroying done)) : l.Calm (done ++ [i]) := by
  intro before j after he
  obtain rfl | ⟨after, k, rfl⟩ := List.eq_nil_or_concat after
  · obtain ⟨rfl, hj⟩ := List.append_inj' he rfl
    obtain rfl : i = j := by simpa using hj
    exact hi
  · rw [List.concat_eq_append, ← List.cons_append, ← List.append_assoc] at he
    exact h before j after (List.append_inj' he rfl).1

theorem Destroys.panics_iff {l l' : Ledger} {done : List Instance} (h : l.Destroys done l') (i : Instance) :
    i.Panics l' ↔ i.Panics (l.destroying done) := by
  have hh : l'.history i.serial = (l.destroying done).history i.serial := history_congr h.calls _
  rw [Instance.Panics, Instance.Panics, hh]

end Ledger

namespace Teardown

/-- How the destruction of owed instances stands that began when others had been done. -/
def Course (l : Ledger) (done owed : List Instance) : Progress → Ledger → Prop
  | .finished, l' => l.Calm (done ++ owed) ∧ l.Destroys (done ++ owed) l'
  | .panicked _, l' => ∃ before i lost, owed = before ++ i :: lost ∧ l.Calm (done ++ before) ∧
      i.Panics (l.destroying (done ++ before)) ∧ l.Destroys (done ++ before ++ [i]) l'
  | .waiting _ _ outcome instances, l' => ∃ before i, owed = before ++ i :: instances.map (·.2) ∧
      l.Calm (done ++ before) ∧ l.Destroys (done ++ before ++ [i]) l' ∧
      ((∃ q, outcome = .panicked q) ↔ i.Panics (l.destroying (done ++ before)))

section Course

variable {l₀ : Ledger} {done : List Instance} (opened : Gates) (providerId : UInt16)

theorem runCall_course (id : SequencerId) (acts : List Act) (instances : Registry) {before : List Instance}
    {i : Instance} {outcome : Outcome Bool} {l : Ledger} (hc : l₀.Calm (done ++ before))
    (hd : l₀.Destroys (done ++ before ++ [i]) l)
    (ho : (∃ q, outcome = .panicked q) ↔ i.Panics (l₀.destroying (done ++ before))) :
    (∃ l', runCall opened providerId id acts outcome instances l = (.finished, l') ∧
        l₀.Calm (done ++ (before ++ [i])) ∧ l₀.Destroys (done ++ (before ++ [i])) l') ∨
      ∃ progress l', runCall opened providerId id acts outcome instances l = (progress, l') ∧
        progress ≠ .finished ∧ Course l₀ done (before ++ i :: instances.map (·.2)) progress l' := by
  obtain ⟨l', hb, ⟨acts', hr⟩ | ⟨hn, hr⟩ | ⟨q, hq, hr⟩⟩ := runCall_cases opened providerId id acts outcome instances l
  · have hd' : l₀.Destroys (done ++ before ++ [i]) l' := by simpa using hd.trans hb.destroys
    exact .inr ⟨_, l', hr, nofun, before, i, rfl, hc, hd', ho⟩
  · have hd' : l₀.Destroys (done ++ before ++ [i]) l' := by simpa using hd.trans hb.destroys
    have hi : ¬ i.Panics (l₀.destroying (done ++ before)) := fun hp => by
      obtain ⟨q, hq⟩ := ho.mpr hp
      exact hn q hq
    refine .inl ⟨l', hr, ?_, ?_⟩
    · rw [← List.append_assoc]
      exact Ledger.calm_concat hc hi
    · rwa [← List.append_assoc]
  · have hd' : l₀.Destroys (done ++ before ++ [i]) l' := by simpa using hd.trans hb.destroys
    exact .inr ⟨_, l', hr, nofun, before, i, _, rfl, hc, ho.mp ⟨q, hq⟩, hd'⟩

theorem destroyAll_course (r : Registry) {before : List Instance} {l : Ledger} (hc : l₀.Calm (done ++ before))
    (hd : l₀.Destroys (done ++ before) l) : Course l₀ done (before ++ r.map (·.2))
      (destroyAll opened providerId r l).1 (destroyAll opened providerId r l).2 := by
  induction r generalizing before l with
  | nil => simpa [destroyAll, Course] using And.intro hc hd
  | cons x more ih =>
    obtain ⟨id, i⟩ := x
    have ho : (∃ q, (i.backend.destroy (l.history i.serial)).outcome = .panicked q) ↔
        i.Panics (l₀.destroying (done ++ before)) := hd.panics_iff i
    obtain ⟨l', hr, hc', hd'⟩ | ⟨progress, l', hr, hn, hcourse⟩ :=
      runCall_course opened providerId id (i.backend.destroy (l.history i.serial)).acts more hc
        (hd.trans (l.destroys_called i)) ho
    · simp only [destroyAll, hr]
      simpa using ih hc' hd'
    · cases progress with
      | finished => exact absurd rfl hn
      | _ => simpa only [destroyAll, hr, List.map_cons] using hcourse

theorem dismiss_course (p : Provider) {l : Ledger} (hc : l₀.Calm done) (hd : l₀.Destroys done l) :
    Course l₀ done p.doomed (dismiss opened p.options p.live l).1 (dismiss opened p.options p.live l).2 := by
  unfold dismiss Provider.doomed
  cases p.options.teardown with
  | destroy =>
    have hc' : l₀.Calm (done ++ []) := by simpa using hc
    have hd' : l₀.Destroys (done ++ []) l := by simpa using hd
    exact destroyAll_course opened p.options.providerId p.live hc' hd'
  | detach =>
    have hb : l.SameBooks (if p.live.isEmpty then l
        else l.logged (.detachedAll p.options.providerId p.live.length)) := by
      split
      · exact .refl l
      · exact l.sameBooks_logged _
    exact ⟨by simpa using hc, by simpa using hd.trans hb.destroys⟩

def stands : Teardown → Progress
  | finished => .finished
  | panicked q => .panicked q
  | waiting _ id acts outcome instances _ => .waiting id acts outcome instances

def IsSingle : Teardown → Prop
  | waiting _ _ _ _ _ providers => providers = []
  | _ => True

theorem ofProgress_single (progress : Progress) :
    ((ofProgress providerId [] progress).getD .finished).stands = progress ∧
      ((ofProgress providerId [] progress).getD .finished).IsSingle := by
  cases progress <;> exact ⟨rfl, by simp [ofProgress, IsSingle]⟩

theorem tearDown_course (p : Provider) {l : Ledger} (hc : l₀.Calm done) (hd : l₀.Destroys done l) :
    (p.tearDown opened l).2.1.IsSingle ∧
      Course l₀ done p.doomed (p.tearDown opened l).2.1.stands (p.tearDown opened l).2.2 := by
  have hcourse := dismiss_course opened p hc hd
  obtain ⟨hs, hsingle⟩ := ofProgress_single p.id (dismiss opened p.options p.live l).1
  exact ⟨hsingle, by simpa [Provider.tearDown, hs] using hcourse⟩

theorem resume_course {owed : List Instance} {t : Teardown} {l : Ledger} (ht : t.IsSingle)
    (h : Course l₀ done owed t.stands l) : (t.resume opened l).1.IsSingle ∧
      Course l₀ done owed (t.resume opened l).1.stands (t.resume opened l).2 := by
  cases t with
  | finished => exact ⟨trivial, h⟩
  | panicked q => exact ⟨trivial, h⟩
  | waiting providerId id acts outcome instances providers =>
    obtain rfl : providers = [] := ht
    obtain ⟨before, i, rfl, hc, hd, ho⟩ := h
    obtain ⟨l', hr, hc', hd'⟩ | ⟨progress, l', hr, hn, hcourse⟩ :=
      runCall_course opened providerId id acts instances hc hd ho
    · have hcourse := destroyAll_course opened providerId instances hc' hd'
      simp only [resume, hr]
      cases hp : (destroyAll opened providerId instances l').1 with
      | finished => simpa [ofProgress, all, stands, IsSingle, hp] using hcourse
      | panicked q => simpa [ofProgress, stands, IsSingle, hp] using hcourse
      | waiting id' acts' outcome' instances' => simpa [ofProgress, stands, IsSingle, hp] using hcourse
    · cases progress with
      | finished => exact absurd rfl hn
      | panicked q => simpa only [resume, hr, ofProgress, stands, IsSingle, true_and] using hcourse
      | waiting id' acts' outcome' instances' =>
        simpa only [resume, hr, ofProgress, stands, IsSingle, true_and] using hcourse

end Course

end Teardown

/-- A teardown of several providers: those whose turn has come, as it leaves them, and those behind. -/
structure Parting where
  gone : List Provider
  behind : List Provider
  now : Teardown
  ledger : Ledger

namespace Parting

def proceed (opened : Gates) (gone : List Provider) : List Provider → Ledger → Parting
  | [], l => ⟨gone, [], .finished, l⟩
  | p :: more, l =>
    let begun := p.tearDown opened (l.logged (.tearingDown p.id))
    match begun.2.1 with
    | .finished => proceed opened (gone ++ [begun.1]) more begun.2.2
    | t => ⟨gone ++ [begun.1], more, t, begun.2.2⟩

def resume (s : Parting) (opened : Gates) : Parting :=
  let resumed := s.now.resume opened s.ledger
  match resumed.1 with
  | .finished => proceed opened s.gone s.behind resumed.2
  | t => { s with now := t, ledger := resumed.2 }

def whole (s : Parting) : Teardown :=
  match s.now with
  | .waiting providerId id acts outcome instances _ => .waiting providerId id acts outcome instances s.behind
  | t => t

theorem proceed_whole (opened : Gates) (gone providers : List Provider) (l : Ledger) :
    ((proceed opened gone providers l).whole, (proceed opened gone providers l).ledger) =
      Teardown.all opened providers l := by
  induction providers generalizing gone l with
  | nil => rfl
  | cons p more ih =>
    simp only [proceed, Teardown.all, Provider.tearDown]
    cases hp : (Teardown.dismiss opened p.options p.live (l.logged (.tearingDown p.id))).1 with
    | finished =>
      simp only [Teardown.ofProgress, Option.getD_none]
      exact ih _ _
    | panicked q => rfl
    | waiting id acts outcome instances => rfl

theorem resume_whole {s : Parting} (hs : s.now.IsSingle) (hb : s.now.IsFinished → s.behind = []) (opened : Gates) :
    ((s.resume opened).whole, (s.resume opened).ledger) = s.whole.resume opened s.ledger := by
  obtain ⟨gone, behind, now, l⟩ := s
  cases now with
  | finished =>
    obtain rfl : behind = [] := hb trivial
    rfl
  | panicked q => rfl
  | waiting providerId id acts outcome instances providers =>
    obtain rfl : providers = [] := hs
    cases hr : Teardown.runCall opened providerId id acts outcome instances l with
    | mk progress l' =>
      cases progress with
      | finished =>
        cases hd : Teardown.destroyAll opened providerId instances l' with
        | mk progress l'' =>
          cases progress with
          | finished =>
            simp only [resume, whole, Teardown.resume, hr, hd, Teardown.ofProgress, Teardown.all]
            exact proceed_whole opened gone behind l''
          | _ => simp only [resume, whole, Teardown.resume, hr, hd, Teardown.ofProgress]
      | _ => simp only [resume, whole, Teardown.resume, hr, Teardown.ofProgress]

/-- Where a parting stands in the teardown of given providers. -/
inductive Stands (l : Ledger) (providers : List Provider) (s : Parting) : Prop
  | ended (hn : s.now = .finished) (hb : s.behind = []) (hg : s.gone = providers.map ({ · with live := [] }))
      (hc : l.Calm (providers.flatMap Provider.doomed))
      (hd : l.Destroys (providers.flatMap Provider.doomed) s.ledger)
  | amid (before : List Provider) (p : Provider) (hp : providers = before ++ p :: s.behind)
      (hg : s.gone = (before ++ [p]).map ({ · with live := [] })) (hn : ¬ s.now.IsFinished)
      (hs : s.now.IsSingle)
      (hc : Teardown.Course l (before.flatMap Provider.doomed) p.doomed s.now.stands s.ledger)

theorem proceed_stands {l₀ l : Ledger} (opened : Gates) (rest before : List Provider)
    (hc : l₀.Calm (before.flatMap Provider.doomed)) (hd : l₀.Destroys (before.flatMap Provider.doomed) l) :
    Stands l₀ (before ++ rest) (proceed opened (before.map ({ · with live := [] })) rest l) := by
  induction rest generalizing before l with
  | nil => exact .ended rfl rfl (by simp [proceed]) (by simpa using hc) (by simpa [proceed] using hd)
  | cons p more ih =>
    have hd' : l₀.Destroys (before.flatMap Provider.doomed) (l.logged (.tearingDown p.id)) := by
      simpa using hd.trans (l.sameBooks_logged _).destroys
    obtain ⟨hs, hcourse⟩ := Teardown.tearDown_course opened p hc hd'
    simp only [proceed]
    split
    · rename_i hf
      rw [hf] at hcourse
      have hih := ih (before ++ [p]) (by simpa using hcourse.1) (by simpa using hcourse.2)
      simpa [Provider.tearDown] using hih
    · rename_i t hf
      refine .amid before p rfl (by simp [Provider.tearDown]) (fun h => ?_) hs hcourse
      cases ht : (p.tearDown opened (l.logged (.tearingDown p.id))).2.1 with
      | finished => exact hf ht
      | _ => simp [ht, Teardown.IsFinished] at h

theorem resume_stands {l : Ledger} {providers : List Provider} {s : Parting} (h : Stands l providers s)
    (opened : Gates) : Stands l providers (s.resume opened) := by
  cases h with
  | ended hn hb hg hc hd =>
    have he : s.resume opened = s := by
      obtain ⟨gone, behind, now, l'⟩ := s
      simp only at hn hb
      subst hn hb
      rfl
    rw [he]
    exact .ended hn hb hg hc hd
  | amid before p hp hg hn hs hc =>
    obtain ⟨hs', hc'⟩ := Teardown.resume_course opened hs hc
    unfold resume
    dsimp only
    split
    · rename_i hf
      rw [hf] at hc'
      have h := proceed_stands opened s.behind (before ++ [p]) (by simpa using hc'.1) (by simpa using hc'.2)
      rw [hg, hp]
      simpa using h
    · rename_i t hf
      refine .amid before p hp hg (fun h => ?_) hs' hc'
      cases ht : (s.now.resume opened s.ledger).1 with
      | finished => exact hf ht
      | _ => simp [ht, Teardown.IsFinished] at h

end Parting
end SequencerHub

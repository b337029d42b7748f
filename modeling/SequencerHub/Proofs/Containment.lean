import Mathlib.Data.List.Induction
import SequencerHub.Proofs.Parting
import SequencerHub.Proofs.Traffic

/-! How far a panic reaches in the teardown of a host. It ends the teardown where it stands, so it harms nobody only if
there is nobody left to harm. -/
namespace SequencerHub

theorem Provider.doomed_of_live {p : Provider} (h : p.live = []) : p.doomed = [] := by
  unfold doomed
  split <;> simp [h]

/-- The backend that fails where the given one would panic under destruction. -/
def Backend.hardened (e : ErrorChain) (b : Backend) : Backend :=
  { b with
    destroy := fun calls =>
      match b.destroy calls with
      | ⟨acts, .panicked _⟩ => ⟨acts, .failed e⟩
      | s => s }

def Provider.hardened (e : ErrorChain) (p : Provider) : Provider :=
  { p with live := p.live.map fun x => (x.1, { x.2 with backend := x.2.backend.hardened e }) }

namespace Host

def hardened (e : ErrorChain) (h : Host) : Host := { h with providers := h.providers.map (Provider.hardened e) }

/-- The teardown of a host, with the gates that are open at its beginning and whenever it goes on. -/
def tornDown (h : Host) (opened : Gates) (later : List Gates) (l : Ledger) : Teardown × Ledger :=
  later.foldl (fun t g => t.1.resume g t.2) (h.tearDown opened l).2

def parting (h : Host) (opened : Gates) (later : List Gates) (l : Ledger) : Parting :=
  later.foldl Parting.resume (Parting.proceed opened [] h.providers l)

/-- What the teardown of a host is for: no provider is registered, no registry has an entry, and every live sequencer
whose provider destroys has been destroyed once. -/
structure Contained (h : Host) (opened : Gates) (later : List Gates) (l : Ledger) : Prop where
  deregistered : (h.tearDown opened l).1.providers = []
  emptied : ∀ p ∈ (h.parting opened later l).gone ++ (h.parting opened later l).behind, p.live = []
  destroyed : (h.tornDown opened later l).2.calls =
    l.calls ++ (h.providers.flatMap Provider.doomed).map fun i => (i.serial, .destroy)

/-- Whether a sequencer panics at its turn only if no live sequencer comes after it. -/
def OnlyLastPanics (h : Host) (l : Ledger) : Prop :=
  ∀ before p after, h.providers = before ++ p :: after → ∀ earlier i later, p.doomed = earlier ++ i :: later →
    i.Panics (l.destroying (before.flatMap Provider.doomed ++ earlier)) →
    later = [] ∧ ∀ q ∈ after, q.live = []

section Run

variable (h : Host) (opened : Gates) (later : List Gates) (l : Ledger)

theorem parting_stands : Parting.Stands l h.providers (h.parting opened later l) := by
  induction later using List.reverseRecOn with
  | nil =>
    have hs : Parting.Stands l ([] ++ h.providers) (Parting.proceed opened [] h.providers l) :=
      Parting.proceed_stands opened h.providers [] l.calm_nil (Ledger.SameBooks.refl l).destroys
    exact hs
  | append_singleton later g ih =>
    rw [parting, List.foldl_append]
    exact Parting.resume_stands ih g

theorem parting_whole : ((h.parting opened later l).whole, (h.parting opened later l).ledger) =
    h.tornDown opened later l := by
  induction later using List.reverseRecOn with
  | nil => exact Parting.proceed_whole opened [] h.providers l
  | append_singleton later g ih =>
    have hs : (h.parting opened later l).now.IsSingle ∧
        ((h.parting opened later l).now.IsFinished → (h.parting opened later l).behind = []) := by
      cases parting_stands h opened later l with
      | ended hn hb => exact ⟨by rw [hn]; trivial, fun _ => hb⟩
      | amid before p hp hg hn hs => exact ⟨hs, fun hf => absurd hf hn⟩
    have hr := Parting.resume_whole hs.1 hs.2 g
    rw [tornDown, List.foldl_append, List.foldl_cons, List.foldl_nil, ← tornDown, ← ih, ← hr, parting,
      List.foldl_append]
    rfl

end Run

section Panic

variable {h : Host} {l : Ledger}

theorem onlyLastPanics_of_calm (hc : l.Calm (h.providers.flatMap Provider.doomed)) : h.OnlyLastPanics l := by
  intro before p after hp earlier i later hi hpan
  refine absurd hpan (hc _ i (later ++ after.flatMap Provider.doomed) ?_)
  simp [hp, hi]

/-- If the first to panic is the last of all, no other one can do harm. -/
theorem onlyLastPanics_of_last {before behind : List Provider} {p : Provider} {earlier : List Instance} {i : Instance}
    (hp : h.providers = before ++ p :: behind) (hi : p.doomed = earlier ++ [i])
    (hc : l.Calm (before.flatMap Provider.doomed ++ earlier)) (hb : ∀ q ∈ behind, q.live = []) :
    h.OnlyLastPanics l := by
  intro before' p' after' hp' earlier' i' later' hi' hpan
  have hsame : ∀ {earlier'}, p.doomed = earlier' ++ i' :: later' →
      i'.Panics (l.destroying (before.flatMap Provider.doomed ++ earlier')) → later' = [] := by
    intro earlier' hi' hpan
    rw [hi] at hi'
    obtain rfl | ⟨rest, k, rfl⟩ := List.eq_nil_or_concat later'
    · rfl
    · rw [List.concat_eq_append, ← List.cons_append, ← List.append_assoc] at hi'
      obtain ⟨rfl, -⟩ := List.append_inj' hi' rfl
      exact absurd hpan (hc _ i' rest (by simp))
  rw [hp] at hp'
  obtain ⟨d, rfl, hd⟩ | ⟨d, rfl, hd⟩ := List.append_eq_append_iff.mp hp'
  · cases d with
    | nil =>
      obtain ⟨rfl, rfl⟩ : p = p' ∧ behind = after' := by simpa using hd
      exact ⟨hsame hi' (by simpa using hpan), hb⟩
    | cons x d =>
      obtain ⟨rfl, rfl⟩ : p = x ∧ behind = d ++ p' :: after' := by simpa using hd
      rw [Provider.doomed_of_live (hb p' (by simp))] at hi'
      simp at hi'
  · cases d with
    | nil =>
      obtain ⟨rfl, rfl⟩ : p' = p ∧ after' = behind := by simpa using hd
      exact ⟨hsame hi' (by simpa using hpan), hb⟩
    | cons x d =>
      obtain ⟨rfl, rfl⟩ : p' = x ∧ after' = d ++ p :: behind := by simpa using hd
      refine absurd hpan (hc _ i' (later' ++ d.flatMap Provider.doomed ++ earlier) ?_)
      simp [hi']

theorem not_panics_hardened {e : ErrorChain} {p : Provider} {i : Instance} (hi : i ∈ (p.hardened e).doomed) :
    ¬ i.Panics l := by
  obtain ⟨j, rfl⟩ : ∃ j : Instance, i = { j with backend := j.backend.hardened e } := by
    unfold Provider.doomed at hi
    split at hi
    · obtain ⟨x, hx, rfl⟩ := List.mem_map.mp hi
      obtain ⟨y, -, rfl⟩ := List.mem_map.mp hx
      exact ⟨y.2, rfl⟩
    · simp at hi
  rintro ⟨q, hq⟩
  simp only [Backend.hardened] at hq
  split at hq
  · cases hq
  · rename_i hn
    exact hn _ _ (by rw [← hq])

theorem onlyLastPanics_hardened (e : ErrorChain) : (h.hardened e).OnlyLastPanics l := by
  intro before p after hp earlier i later hi hpan
  have hmem : p ∈ (h.hardened e).providers := by simp [hp]
  obtain ⟨q, -, rfl⟩ := List.mem_map.mp hmem
  have hq : i ∈ (q.hardened e).doomed := by
    rw [hi]
    simp
  exact absurd hpan (not_panics_hardened hq)

end Panic

theorem contained_iff_onlyLastPanics (h : Host) (opened : Gates) (later : List Gates) (l : Ledger)
    (hover : (h.tornDown opened later l).1.IsFinished ∨ (h.tornDown opened later l).1.IsPanicked) :
    h.Contained opened later l ↔ h.OnlyLastPanics l := by
  have hw := parting_whole h opened later l
  rw [← hw] at hover
  have hledger : (h.tornDown opened later l).2 = (h.parting opened later l).ledger := by rw [← hw]
  cases parting_stands h opened later l with
  | ended hn hb hg hc hd =>
    refine iff_of_true ⟨rfl, ?_, ?_⟩ (onlyLastPanics_of_calm hc)
    · rw [hb, hg]
      simp
    · rw [hledger, hd.calls]
  | amid before p hp hg hn hs hc =>
    cases hnow : (h.parting opened later l).now with
    | finished => exact absurd (by rw [hnow]; trivial) hn
    | waiting => simp [Parting.whole, hnow, Teardown.IsFinished, Teardown.IsPanicked] at hover
    | panicked q =>
      rw [hnow] at hc
      obtain ⟨earlier, i, lost, hi, hcalm, hpan, hd⟩ := hc
      constructor
      · rintro ⟨-, he, hcalls⟩
        rw [hledger, hd.calls, hp] at hcalls
        have hlen := congrArg List.length hcalls
        simp only [List.flatMap_append, List.flatMap_cons, hi, List.length_append, List.length_map,
          List.length_cons, List.length_nil] at hlen
        obtain rfl : lost = [] := List.length_eq_zero_iff.mp (by omega)
        exact onlyLastPanics_of_last hp hi hcalm fun q hq => he q (List.mem_append_right _ hq)
      · intro hl
        obtain ⟨rfl, hbehind⟩ := hl before p _ hp earlier i lost hi hpan
        refine ⟨rfl, fun q hq => ?_, ?_⟩
        · rcases List.mem_append.mp hq with hq | hq
          · rw [hg] at hq
            obtain ⟨q', -, rfl⟩ := List.mem_map.mp hq
            rfl
          · exact hbehind q hq
        · have hnone : (h.parting opened later l).behind.flatMap Provider.doomed = [] :=
            List.flatMap_eq_nil_iff.mpr fun q hq => Provider.doomed_of_live (hbehind q hq)
          have hall : h.providers.flatMap Provider.doomed =
              before.flatMap Provider.doomed ++ earlier ++ [i] := by
            conv_lhs => rw [hp]
            simp [hi, hnone]
          rw [hledger, hd.calls, hall]

/-- A teardown that is over has done its work exactly if at most the last live sequencer of the host panics. With errors
in place of the panics it always does. -/
theorem panics_contained_iff (h : Host) (opened : Gates) (later : List Gates) (l : Ledger)
    (hover : (h.tornDown opened later l).1.IsFinished ∨ (h.tornDown opened later l).1.IsPanicked) :
    ((h.parting opened later l).whole, (h.parting opened later l).ledger) = h.tornDown opened later l ∧
      (h.Contained opened later l ↔ h.OnlyLastPanics l) ∧
      ∀ e later', ((h.hardened e).tornDown opened later' l).1.IsFinished ∨
        ((h.hardened e).tornDown opened later' l).1.IsPanicked → (h.hardened e).Contained opened later' l :=
  ⟨parting_whole h opened later l, contained_iff_onlyLastPanics h opened later l hover,
    fun e later' he => (contained_iff_onlyLastPanics (h.hardened e) opened later' l he).mpr
      (onlyLastPanics_hardened e)⟩

def hosting (s : Traffic) : Host := { address := "local://h", providers := [s.provider] }

def quiet : Move := .request (.construct .create "" "scripted" "\x7b\x7d")

def explosive : Move :=
  .request (.construct .create "" "scripted" "\x7b\"destroy\":\x7b\"panic\":\"boom\"\x7d\x7d")

theorem panics_contained_iff_explosive :
    (((hosting (Traffic.trials.run [quiet, explosive])).tornDown [] []
      (Traffic.trials.run [quiet, explosive]).ledger).1.IsPanicked) ∧
    ((hosting (Traffic.trials.run [quiet, explosive])).Contained [] []
        (Traffic.trials.run [quiet, explosive]).ledger ↔
      (hosting (Traffic.trials.run [quiet, explosive])).OnlyLastPanics
        (Traffic.trials.run [quiet, explosive]).ledger) := by
  have hp : ((hosting (Traffic.trials.run [quiet, explosive])).tornDown [] []
      (Traffic.trials.run [quiet, explosive]).ledger).1.IsPanicked := by decide +kernel
  exact ⟨hp, (panics_contained_iff _ [] [] _ (.inr hp)).2.1⟩

/-- Of two sequencers that panic, the second is not destroyed. -/
theorem not_contained_explosive :
    ((hosting (Traffic.trials.run [explosive, explosive])).tornDown [] []
      (Traffic.trials.run [explosive, explosive]).ledger).1.IsPanicked ∧
    ¬ (hosting (Traffic.trials.run [explosive, explosive])).Contained [] []
      (Traffic.trials.run [explosive, explosive]).ledger := by
  refine ⟨by decide +kernel, fun h => ?_⟩
  have hlen := congrArg List.length h.destroyed
  have hcalls : ((hosting (Traffic.trials.run [explosive, explosive])).tornDown [] []
      (Traffic.trials.run [explosive, explosive]).ledger).2.calls.length = 1 := by decide +kernel
  have howed : ((hosting (Traffic.trials.run [explosive, explosive])).providers.flatMap Provider.doomed).length =
      2 := by decide +kernel
  rw [hcalls, List.length_append, List.length_map, howed] at hlen
  omega

end Host
end SequencerHub

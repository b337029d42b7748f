import SequencerHub.Proofs.HubCustody
import SequencerHub.Proofs.Isolation

/-! The providers of a host come and go, serve requests and are torn down. Each is found under its own id from when
it is registered until it is taken out, and what is taken out can be put back. -/
namespace SequencerHub
namespace Host

variable {h : Host} {id key : UInt16}

theorem find?_put_of_find? {p p' : Provider} (hp : h.find? key = some p) (hid : p'.id = p.id) :
    (h.put p').find? id = if id = key then some p' else h.find? id := by
  have hkey : p.id = key := by simpa using List.find?_some hp
  rw [find?, put, find?_insert, hid, hkey]
  by_cases heq : id = key
  · rw [if_pos heq.symm, if_pos heq]
  · rw [if_neg (Ne.symm heq), if_neg heq]
    rfl

theorem mem_providerIds : id ∈ h.providerIds ↔ (h.find? id).isSome := by
  simp [providerIds, find?]

theorem Ordered.providerIds (ho : h.Ordered) : h.providerIds.Pairwise (· < ·) :=
  List.pairwise_map.mpr ho

end Host

namespace Hosting

/-- What happens next to the providers of a host: a provider is registered that there is already, maybe with live
sequencers, or anything else. -/
inductive Turn
  | register (p : Provider)
  | move (m : Move)

def register (s : Hosting) (p : Provider) : Hosting :=
  match s.host.register p s.ledger with
  | .error _ => s
  | .ok (host, l) => { s with host, ledger := l }

def turn (s : Hosting) : Turn → Hosting
  | .register p => s.register p
  | .move m => s.step m

def turns (s : Hosting) (ts : List Turn) : Hosting := ts.foldl turn s

end Hosting

/-- A table of providers under keys, which are not looked up in the providers themselves. -/
abbrev Roster := UInt16 → Option Provider

namespace Roster

open Hosting (Turn)

def enter (t : Roster) (p : Provider) : Roster :=
  if (t p.id).isSome then t else Function.update t p.id (some p)

def amend (t : Roster) (key : UInt16) (f : Provider → Provider) : Roster := Function.update t key ((t key).map f)

/-- What becomes of the table when something happens at a host. -/
def turn (t : Roster) (s : Hosting) : Turn → Roster
  | .register p => t.enter p
  | .move (.provide o f) => t.enter { options := o, factory := f }
  | .move (.deregister key) => Function.update t key none
  | .move (.request key q _) => t.amend key fun p => (p.handle q s.ledger).1
  | .move (.tearDownOne key opened) => t.amend key fun p => (p.tearDown opened s.ledger).1
  | .move (.tearDown _) => fun _ => none
  | _ => t

def turns (t : Roster) (s : Hosting) : List Turn → Roster
  | [] => t
  | a :: ts => turns (t.turn s a) (s.turn a) ts

section Keys

variable {t : Roster} {id key : UInt16}

theorem isSome_enter {p : Provider} : (t.enter p id).isSome ↔ p.id = id ∨ (t id).isSome := by
  unfold enter
  by_cases hp : (t p.id).isSome
  · rw [if_pos hp]
    refine ⟨.inr, ?_⟩
    rintro (rfl | hid)
    · exact hp
    · exact hid
  · rw [if_neg hp]
    by_cases hid : id = p.id
    · subst hid
      simp
    · simp [hid, Ne.symm hid]

theorem isSome_amend {f : Provider → Provider} : (t.amend key f id).isSome ↔ (t id).isSome := by
  unfold amend
  by_cases hid : id = key
  · subst hid
    simp
  · simp [hid]

end Keys

end Roster

namespace Hosting

section Table

variable (s : Hosting)

theorem find?_register (p : Provider) : (s.register p).host.find? = Roster.enter s.host.find? p := by
  unfold register Host.register Roster.enter
  cases hp : s.host.find? p.id with
  | some q => rfl
  | none =>
    funext id
    simp only [Host.find?, Host.put, Host.find?_insert, Option.isSome_none, Bool.false_eq_true, if_false]
    by_cases hid : id = p.id
    · subst hid
      simp
    · rw [if_neg (Ne.symm hid), Function.update_of_ne hid]
      rfl

/-- A host that has something put in the place of a provider with the same id. -/
theorem find?_amend {key : UInt16} {f : Provider → Provider} (hf : ∀ p, (f p).id = p.id) {h h' : Host}
    (hput : ∀ p, h.find? key = some p → h' = h.put (f p)) (hnone : h.find? key = none → h' = h) :
    h'.find? = Roster.amend h.find? key f := by
  funext id
  unfold Roster.amend
  cases hp : h.find? key with
  | none =>
    rw [hnone hp, Option.map_none, ← hp, Function.update_eq_self]
  | some p =>
    rw [hput p hp, Host.find?_put_of_find? hp (hf p), Option.map_some]
    by_cases hid : id = key
    · subst hid
      simp
    · rw [if_neg hid, Function.update_of_ne hid]

theorem step_provide (o : ProviderOptions) (f : Factory) : s.step (.provide o f) =
    ({ s with ledger := s.ledger.logged (.providerCreated o) } : Hosting).register { options := o, factory := f } := by
  cases hp : s.host.register { options := o, factory := f } (s.ledger.logged (.providerCreated o)) <;>
    simp only [step, register, hp]

/-- A host finds its providers as if they stood in a table of their own. -/
theorem find?_turn (a : Turn) : (s.turn a).host.find? = Roster.turn s.host.find? s a := by
  cases a with
  | register p => exact s.find?_register p
  | move m =>
    cases m with
    | provide o f =>
      rw [turn, s.step_provide, find?_register]
      rfl
    | deregister key =>
      funext id
      refine (s.find?_deregister key id).trans ?_
      by_cases hid : id = key
      · subst hid
        simp [Roster.turn]
      · simp [Roster.turn, hid]
    | request key q opened =>
      refine find?_amend (fun p => p.handle_id q s.ledger) (fun p hp => ?_) fun hp => ?_
      · simp only [turn, step, s.host.dispatch_of_find? hp]
      · simp only [turn, s.step_request_none hp]
    | tearDownOne key opened =>
      have hid : ∀ p : Provider, (p.tearDown opened s.ledger).1.id = p.id := fun _ => rfl
      refine find?_amend hid (fun p hp => ?_) fun hp => ?_
      · simp only [turn, step, hp]
      · simp only [turn, step, hp]
    | tearDown opened => rfl
    | resume n opened => exact congrArg Host.find? (s.host_resume n opened)
    | resumeTeardown n opened =>
      simp only [turn, step]
      split <;> rfl
    | requestShutdown => rfl

theorem find?_turns (ts : List Turn) : (s.turns ts).host.find? = Roster.turns s.host.find? s ts := by
  induction ts generalizing s with
  | nil => rfl
  | cons a ts ih =>
    have hrest := ih (s.turn a)
    rw [s.find?_turn a] at hrest
    exact hrest

end Table

section Order

variable {s : Hosting}

theorem register_ordered (ho : s.host.Ordered) (p : Provider) : (s.register p).host.Ordered := by
  unfold register Host.register
  cases s.host.find? p.id with
  | some q => exact ho
  | none => exact Host.ordered_put ho p

theorem turn_ordered (ho : s.host.Ordered) (a : Turn) : (s.turn a).host.Ordered := by
  cases a with
  | register p => exact register_ordered ho p
  | move m =>
    cases m with
    | provide o f =>
      have hlogged : ({ s with ledger := s.ledger.logged (.providerCreated o) } : Hosting).host.Ordered := ho
      rw [turn, s.step_provide]
      exact register_ordered hlogged _
    | deregister key =>
      simp only [turn, step, Host.deregister]
      cases s.host.find? key with
      | none => exact ho
      | some p => exact List.Pairwise.filter _ ho
    | request key q opened =>
      simp only [turn, step]
      cases hp : s.host.find? key with
      | none => simpa only [Host.dispatch, hp] using ho
      | some p =>
        simp only [s.host.dispatch_of_find? hp]
        exact Host.ordered_put ho _
    | tearDownOne key opened =>
      simp only [turn, step]
      cases s.host.find? key with
      | none => exact ho
      | some p => exact Host.ordered_put ho _
    | tearDown opened => exact List.Pairwise.nil
    | resume n opened => rwa [turn, s.host_resume n opened]
    | resumeTeardown n opened =>
      simp only [turn, step]
      split <;> exact ho
    | requestShutdown => exact ho

theorem turns_ordered (ho : s.host.Ordered) (ts : List Turn) : (s.turns ts).host.Ordered :=
  List.foldlRecOn (motive := fun s' => s'.host.Ordered) ts turn ho fun _ ho' a _ => turn_ordered ho' a

end Order

def Turn.entrant? : Turn → Option Provider
  | register p => some p
  | move (.provide o f) => some { options := o, factory := f }
  | _ => none

def Turn.Removes (id : UInt16) : Turn → Prop
  | move (.deregister key) => key = id
  | move (.tearDown _) => True
  | _ => False

/-- What it means that a provider of an id has been registered, and has not been taken out since. -/
def Registered (s : Hosting) (ts : List Turn) (id : UInt16) : Prop :=
  ∃ before a since p, ts = before ++ a :: since ∧ a.entrant? = some p ∧ p.id = id ∧
    (s.turns before).host.find? id = none ∧ ∀ b ∈ since, ¬ b.Removes id

section History

variable {s : Hosting} {id : UInt16}

theorem turn_isSome (a : Turn) : ((s.turn a).host.find? id).isSome ↔
    (∃ p, a.entrant? = some p ∧ p.id = id) ∨ ((s.host.find? id).isSome ∧ ¬ a.Removes id) := by
  rw [s.find?_turn a]
  cases a with
  | register p => simp [Roster.turn, Roster.isSome_enter, Turn.entrant?, Turn.Removes]
  | move m =>
    cases m with
    | provide o f => simp [Roster.turn, Roster.isSome_enter, Turn.entrant?, Turn.Removes]
    | deregister key =>
      by_cases hid : id = key
      · subst hid
        simp [Roster.turn, Turn.entrant?, Turn.Removes]
      · simp [Roster.turn, Turn.entrant?, Turn.Removes, hid, Ne.symm hid]
    | request key q opened | tearDownOne key opened =>
      simp [Roster.turn, Roster.isSome_amend, Turn.entrant?, Turn.Removes]
    | _ => simp [Roster.turn, Turn.entrant?, Turn.Removes]

theorem turns_concat (ts : List Turn) (a : Turn) : s.turns (ts ++ [a]) = (s.turns ts).turn a := by
  simp [turns]

theorem turns_append (ts ts' : List Turn) : s.turns (ts ++ ts') = (s.turns ts).turns ts' := List.foldl_append

/-- A provider that is there stays until it is taken out. -/
theorem turns_isSome (hs : (s.host.find? id).isSome) {ts : List Turn} (hts : ∀ b ∈ ts, ¬ b.Removes id) :
    ((s.turns ts).host.find? id).isSome :=
  List.foldlRecOn (motive := fun s' => (s'.host.find? id).isSome) ts turn hs
    fun _ hs' b hb => (turn_isSome b).mpr (.inr ⟨hs', hts b hb⟩)

theorem turns_eq_none (hs : s.host.find? id = none) {ts : List Turn}
    (hts : ∀ b ∈ ts, ∀ p, b.entrant? = some p → p.id ≠ id) : (s.turns ts).host.find? id = none := by
  refine List.foldlRecOn (motive := fun s' => s'.host.find? id = none) ts turn hs fun s' hs' b hb => ?_
  rw [← Option.not_isSome_iff_eq_none, turn_isSome, hs']
  rintro (⟨p, hp, hid⟩ | ⟨hsome, -⟩)
  · exact hts b hb p hp hid
  · cases hsome

/-- The table has the providers that have been registered and not been taken out since. -/
theorem isSome_iff_registered (hs : s.host.providers = []) (ts : List Turn) :
    ((s.turns ts).host.find? id).isSome ↔ s.Registered ts id := by
  constructor
  · intro h
    induction ts using List.reverseRecOn with
    | nil =>
      rw [turns, List.foldl_nil, Host.find?, hs] at h
      cases h
    | append_singleton ts a ih =>
      rw [turns_concat] at h
      have hbefore : ¬ a.Removes id → ((s.turns ts).host.find? id).isSome → s.Registered (ts ++ [a]) id := by
        intro ha hsome
        obtain ⟨before, b, since, p, rfl, hb, hp, hnone, hsince⟩ := ih hsome
        refine ⟨before, b, since ++ [a], p, by simp, hb, hp, hnone, fun c hc => ?_⟩
        rcases List.mem_append.mp hc with hc | hc
        · exact hsince c hc
        · exact List.mem_singleton.mp hc ▸ ha
      obtain ⟨p, ha, hp⟩ | ⟨hsome, ha⟩ := (turn_isSome a).mp h
      · cases hn : (s.turns ts).host.find? id with
        | none => exact ⟨ts, a, [], p, rfl, ha, hp, hn, List.forall_mem_nil _⟩
        | some q =>
          refine hbefore ?_ (by rw [hn]; rfl)
          cases a with
          | register p => exact not_false
          | move m => cases m <;> first | exact not_false | cases ha
      · exact hbefore ha hsome
  · rintro ⟨before, a, since, p, rfl, ha, hp, -, hsince⟩
    rw [turns_append]
    exact turns_isSome ((turn_isSome a).mpr (.inl ⟨p, ha, hp⟩)) hsince

theorem register_of_taken {p q : Provider} (hq : s.host.find? p.id = some q) :
    s.host.register p s.ledger = .error ⟨p.id⟩ ∧ s.register p = s := by
  have htaken : s.host.register p s.ledger = .error ⟨p.id⟩ := by rw [Host.register, hq]
  exact ⟨htaken, by rw [register, htaken]⟩

theorem find?_register_self {p : Provider} (hp : s.host.find? p.id = none) :
    (s.register p).host.find? p.id = some p := by
  rw [find?_register, Roster.enter, hp]
  simp

end History

/-- What it means that a provider that has been taken out of a host, and put back later, serves as before. -/
structure Restores (s gone back : Hosting) (id : UInt16) (p : Provider) : Prop where
  taken : (s.host.deregister id s.ledger).1 = some p
  absent : gone.host.find? id = none
  /-- The provider is back with the sequencers that it had. -/
  found : back.host.find? id = some p
  serves : ∀ opened q l, (back.host.dispatch opened id q l).map Prod.snd = (s.host.dispatch opened id q l).map Prod.snd

/-- What it means that a host has kept its providers in order through all that has happened at it. -/
structure KeepsRoster (s : Hosting) (ts : List Turn) : Prop where
  /-- The host finds what stands in a table under the key. -/
  found : (s.turns ts).host.find? = Roster.turns (fun _ => none) s ts
  keyed : ∀ key p, Roster.turns (fun _ => none) s ts key = some p → p.id = key
  increasing : (s.turns ts).host.providerIds.Pairwise (· < ·)
  registered : ∀ id, id ∈ (s.turns ts).host.providerIds ↔ s.Registered ts id
  taken : ∀ p q, (s.turns ts).host.find? p.id = some q →
    (s.turns ts).host.register p (s.turns ts).ledger = .error ⟨p.id⟩ ∧ s.turns (ts ++ [.register p]) = s.turns ts
  free : ∀ p, (s.turns ts).host.find? p.id = none → (s.turns (ts ++ [.register p])).host.find? p.id = some p
  /-- Meanwhile other providers may come and go, but none under that id. -/
  restored : ∀ id p, (s.turns ts).host.find? id = some p →
    ∀ ts', (∀ b ∈ ts', ∀ q, b.entrant? = some q → q.id ≠ id) →
      Restores (s.turns ts) (s.turns (ts ++ .move (.deregister id) :: ts'))
        (s.turns (ts ++ .move (.deregister id) :: ts' ++ [.register p])) id p

theorem restores_of_find? {s : Hosting} {id : UInt16} {p : Provider} (hp : s.host.find? id = some p) {ts : List Turn}
    (hts : ∀ b ∈ ts, ∀ q, b.entrant? = some q → q.id ≠ id) : Restores s (s.turns (.move (.deregister id) :: ts))
      (s.turns (.move (.deregister id) :: ts ++ [.register p])) id p := by
  have hid : p.id = id := by simpa using List.find?_some hp
  have hout : (s.turn (.move (.deregister id))).host.find? id = none := by
    rw [turn, find?_deregister, if_pos rfl]
  have habsent : (s.turns (.move (.deregister id) :: ts)).host.find? id = none := turns_eq_none hout hts
  have hback : (s.turns (.move (.deregister id) :: ts ++ [.register p])).host.find? id = some p := by
    subst hid
    rw [turns_concat]
    exact find?_register_self habsent
  refine ⟨by rw [Host.deregister, hp], habsent, hback, fun opened q l => ?_⟩
  rw [Host.dispatch_of_find? _ hback, Host.dispatch_of_find? _ hp]
  rfl

/-- Whatever happens at a host, its providers stand under their ids and in their order. None is replaced, and one that
is taken out and put back serves what it has served. -/
theorem roster_kept (address : String) (supply : Nat → SequencerId) (ts : List Turn) :
    KeepsRoster (founded address supply) ts := by
  have hordered : (founded address supply).host.Ordered := List.Pairwise.nil
  have hnone : (founded address supply).host.find? = fun _ => none := rfl
  have hfound := (founded address supply).find?_turns ts
  rw [hnone] at hfound
  refine ⟨hfound, fun key p hp => ?_, ?_, fun id => ?_, fun p q hq => ?_, fun p hp => ?_, fun id p hp ts' hts' => ?_⟩
  · rw [← hfound] at hp
    simpa using List.find?_some hp
  · exact (turns_ordered hordered ts).providerIds
  · rw [Host.mem_providerIds]
    exact isSome_iff_registered rfl ts
  · rw [turns_concat]
    exact register_of_taken hq
  · rw [turns_concat]
    exact find?_register_self hp
  · rw [List.append_assoc, turns_append, turns_append]
    exact restores_of_find? hp hts'

end Hosting
end SequencerHub

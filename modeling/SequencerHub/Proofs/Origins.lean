import SequencerHub.Proofs.Creation
import SequencerHub.Proofs.Counterparts
import SequencerHub.Proofs.Marks
import SequencerHub.Proofs.Shutdown

/-! Where the live instances of all hosts come from: each is what the constructor of its type has built when it was
called for it, and the ledger keeps that call. -/
namespace SequencerHub

/-- The call of a constructor that is on record for an instance has built its backend, by a type that the provider
knows. -/
def Instance.ArisesFrom (i : Instance) (f : Factory) (l : Ledger) (b : Built) : Prop :=
  l.built[i.serial]? = some b ∧ ∃ c, f.find? b.sequencerType = some c ∧
    (c.pick b.how i.serial b.args).outcome = .ok i.backend

theorem Instance.ArisesFrom.mono {i : Instance} {f : Factory} {l l' : Ledger} {b : Built} (h : i.ArisesFrom f l b)
    (hl : l.built <+: l'.built) : i.ArisesFrom f l' b := by
  obtain ⟨hb, hc⟩ := h
  obtain ⟨more, hmore⟩ := hl
  refine ⟨?_, hc⟩
  rw [← hmore, List.getElem?_append_left (List.getElem?_eq_some_iff.mp hb).1, hb]

namespace Provider

def OnRecord (p : Provider) (l : Ledger) : Prop := ∀ x ∈ p.live, ∃ b, x.2.ArisesFrom p.factory l b

variable {p : Provider} {q : Request} {l l' : Ledger}

theorem OnRecord.mono (h : p.OnRecord l) (hl : l.built <+: l'.built) : p.OnRecord l' := fun x hx =>
  (h x hx).imp fun _ hb => hb.mono hl

theorem built_constructed {i : Instance} (h : p.constructed? q l = some i) : ∃ b c,
    (p.handle q l).2.2.built = l.built ++ [b] ∧ p.factory.find? b.sequencerType = some c ∧
      (c.pick b.how i.serial b.args).outcome = .ok i.backend := by
  cases q with
  | construct how token sequencerType config =>
    obtain ⟨ht, hc⟩ := Option.ite_none_right_eq_some.mp h
    obtain ⟨c, hf, hc⟩ := Option.bind_eq_some_iff.mp hc
    obtain ⟨j, hj, hc⟩ := Option.bind_eq_some_iff.mp hc
    obtain ⟨b, hb, rfl⟩ := Option.map_eq_some_iff.mp hc
    have hmade : (c.pick how l.built.length ⟨p.id, j⟩).outcome = .ok b := by
      cases ho : (c.pick how l.built.length ⟨p.id, j⟩).outcome <;> simp_all [Outcome.value?]
    have honce : ∀ l : Ledger, (p.serve (.construct how token sequencerType config) l).2.2.built =
        l.built ++ [⟨how, sequencerType, ⟨p.id, j⟩⟩] := fun l => by
      rw [serve, construct_parsed ht hf (toOption_eq_some.mp hj)]
      exact (build_constructs hf j).once
    exact ⟨⟨how, sequencerType, ⟨p.id, j⟩⟩, c, (Ledger.sameBooks_loggedAll _ _).built.trans (honce _), hf, hmade⟩
  | _ => cases h

/-- What is on record stays there while a request is served. -/
theorem built_handle (p : Provider) (q : Request) (l : Ledger) : l.built <+: (p.handle q l).2.2.built := by
  have hconstruct : ∀ how token sequencerType config (l : Ledger),
      l.built <+: (p.construct how token sequencerType config l).2.2.built := by
    intro how token sequencerType config l
    simp only [construct]
    split
    · split
      · exact List.prefix_refl _
      · rename_i hf
        split
        · exact List.prefix_refl _
        · rw [(build_constructs hf _).once]
          exact List.prefix_append _ _
    · exact List.prefix_refl _
  have haimed : ∀ id, q.target? = some id → l.built <+: (p.handle q l).2.2.built := fun id hq => by
    rw [built_of_target hq]
  cases q with
  | construct how token sequencerType config =>
    let l' := l.logged (.handling p.id (Request.construct how token sequencerType config).op)
    have hbuilt : (p.handle (.construct how token sequencerType config) l).2.2.built =
        (p.construct how token sequencerType config l').2.2.built := (Ledger.sameBooks_loggedAll _ _).built
    exact hbuilt ▸ hconstruct how token sequencerType config l'
  | close token id => exact haimed id rfl
  | destroy token id => exact haimed id rfl
  | check id => exact haimed id rfl
  | sayHello id => exact haimed id rfl
  | computeSum id x y => exact haimed id rfl

theorem OnRecord.handle (h : p.OnRecord l) (q : Request) : (p.handle q l).1.OnRecord (p.handle q l).2.2 := by
  have hserved := p.handle_served q l
  have hfactory : (p.handle q l).1.factory = p.factory := by rw [hserved.provider]
  intro x hx
  rw [hfactory]
  obtain hx | ⟨i, hi, rfl⟩ := hserved.mem_live hx
  · exact (h.mono (p.built_handle q l)) x hx
  · obtain ⟨b, c, hb, hf, hmade⟩ := built_constructed hi
    refine ⟨b, ?_, c, hf, hmade⟩
    rw [hb, constructed?_serial hi, List.getElem?_concat_length]

end Provider

namespace Hub

def OnRecord (h : Hub) : Prop := ∀ host ∈ h.hosts, ∀ p ∈ host.providers, p.OnRecord h.ledger

variable {h h' : Hub}

theorem OnRecord.of_providers (hr : h.OnRecord) (hl : h.ledger.built <+: h'.ledger.built)
    (hp : ∀ host' ∈ h'.hosts, ∀ p ∈ host'.providers, p.live = [] ∨ ∃ host ∈ h.hosts, p ∈ host.providers) :
    h'.OnRecord := by
  intro host' hhost' p hmem
  obtain hempty | ⟨host, hhost, hmem⟩ := hp host' hhost' p hmem
  · exact fun x hx => absurd (hempty ▸ hx) List.not_mem_nil
  · exact (hr host hhost p hmem).mono hl

theorem OnRecord.served (hr : h.OnRecord) {n : Nat} {host : Host} {id : UInt16} {p : Provider} {q : Request}
    {l : Ledger} (hn : h.hosts[n]? = some host) (hp : host.find? id = some p)
    (hl : (p.handle q h.ledger).2.2.SameBooks l) :
    (h.setHost n (host.put (p.handle q h.ledger).1) l).OnRecord := by
  have hbuilt : (p.handle q h.ledger).2.2.built <+: l.built := hl.built ▸ List.prefix_refl _
  have hgrows : h.ledger.built <+: l.built := (p.built_handle q h.ledger).trans hbuilt
  have hserved : (p.handle q h.ledger).1.OnRecord l :=
    ((hr host (List.mem_of_getElem? hn) p (List.mem_of_find?_eq_some hp)).handle q).mono hbuilt
  intro host' hhost' p' hmem
  rcases List.mem_or_eq_of_mem_set hhost' with hhost' | rfl
  · exact (hr host' hhost' p' hmem).mono hgrows
  · rcases Host.mem_insert hmem with rfl | hmem
    · exact hserved
    · exact (hr host (List.mem_of_getElem? hn) p' hmem).mono hgrows

theorem OnRecord.advance (hr : h.OnRecord) (k : Nat) : (h.advance k).OnRecord := by
  cases hk : h.tasks[k]? with
  | none => simpa only [Hub.advance, hk] using hr
  | some t =>
    rw [h.advance_eq t hk]
    have hran := run_ran (h := h) t
    generalize h.run t = out at hran
    cases hran with
    | aside hl =>
      exact hr.of_providers (hl.built ▸ List.prefix_refl _) fun host hhost p hp => .inr ⟨host, hhost, hp⟩
    | served hn hp hl => exact hr.served hn hp hl
    | torn t₀ =>
      obtain ⟨done, lost, hd, -, -⟩ := Teardown.resume_discharges h.opened t₀ h.ledger
      exact hr.of_providers (hd.built ▸ List.prefix_refl _) fun host hhost p hp => .inr ⟨host, hhost, hp⟩

theorem OnRecord.advanceAll (hr : h.OnRecord) (ks : List Nat) : (ks.foldl Hub.advance h).OnRecord :=
  List.foldlRecOn (motive := OnRecord) ks Hub.advance hr fun _ hr k _ => hr.advance k

theorem OnRecord.setHost (hr : h.OnRecord) {n : Nat} {host host' : Host} (hn : h.hosts[n]? = some host) {l : Ledger}
    (hl : h.ledger.built <+: l.built) (hp : ∀ p ∈ host'.providers, p.live = [] ∨ p ∈ host.providers) :
    (h.setHost n host' l).OnRecord := by
  refine hr.of_providers hl fun x hx p hmem => ?_
  rcases List.mem_or_eq_of_mem_set hx with hx | rfl
  · exact .inr ⟨x, hx, hmem⟩
  · exact (hp p hmem).imp id fun hmem => ⟨host, List.mem_of_getElem? hn, hmem⟩

theorem OnRecord.step (hr : h.OnRecord) (m : Move) : (h.step m).OnRecord := by
  have hstepped := h.step_stepped m
  generalize h.step m = h' at hstepped
  cases hstepped with
  | kept hh ht hl =>
    exact hr.of_providers (hl.built ▸ List.prefix_refl _) fun host hhost p hp => .inr ⟨host, hh ▸ hhost, hp⟩
  | added address =>
    refine hr.of_providers (List.prefix_refl _) fun host hhost p hp => ?_
    rcases List.mem_append.mp hhost with hhost | hhost
    · exact .inr ⟨host, hhost, hp⟩
    · obtain rfl := List.mem_singleton.mp hhost
      exact absurd hp List.not_mem_nil
  | asked hn hl => exact hr.setHost hn (hl.built ▸ List.prefix_refl _) fun p hp => .inr hp
  | provided hn hl =>
    refine hr.setHost hn (hl.built ▸ List.prefix_refl _) fun p hp => ?_
    rcases Host.mem_insert hp with rfl | hp
    · exact .inl rfl
    · exact .inr hp
  | thinned hn hl => exact hr.setHost hn (hl.built ▸ List.prefix_refl _) fun p hp => .inr (List.mem_filter.mp hp).1
  | @emptied n host t l hn ht =>
    obtain ⟨done, lost, hd, -, -⟩ := Teardown.all_discharges h.opened host.providers h.ledger
    rw [ht] at hd
    exact hr.setHost hn (hd.built ▸ List.prefix_refl _) fun p hp => absurd hp List.not_mem_nil
  | sent => exact hr
  | advanced k => exact hr.advance k
  | opened gate =>
    have hopen : OnRecord { h with opened := gate :: h.opened.filter (· ≠ gate) } := hr
    exact hopen.advanceAll _

/-- Whatever happens between hosts and clients, every live instance is what the call of a constructor has built that is
on record for it. -/
theorem OnRecord.steps (hr : h.OnRecord) (ms : List Move) : (h.steps ms).OnRecord :=
  List.foldlRecOn (motive := OnRecord) ms Hub.step hr fun _ hr m _ => hr.step m

end Hub
end SequencerHub

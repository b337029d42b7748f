import SequencerHub.Proofs.Roster
import SequencerHub.Server.Assembly

/-! Hosts that are assembled from settings. The settings that pass their check are those from which a host can be
assembled, and the id that the check finds twice is the one that the host refuses. -/
namespace SequencerHub

namespace Settings

section Repeated

variable {seen ids : List UInt16} {id : UInt16}

theorem firstRepeated?_cons (seen : List UInt16) (id : UInt16) (ids : List UInt16) :
    firstRepeated? seen (id :: ids) = if id ∈ seen then some id else firstRepeated? (id :: seen) ids := by
  simp [firstRepeated?]

theorem firstRepeated?_eq_none : firstRepeated? seen ids = none ↔ ids.Nodup ∧ ∀ id ∈ ids, id ∉ seen := by
  induction ids generalizing seen with
  | nil => simp [firstRepeated?]
  | cons id ids ih =>
    rw [firstRepeated?_cons]
    split_ifs with hid
    · simp [hid]
    · rw [ih]
      grind

theorem firstRepeated?_eq_some (h : firstRepeated? seen ids = some id) : ∃ before after,
    ids = before ++ id :: after ∧ before.Nodup ∧ (∀ x ∈ before, x ∉ seen) ∧ (id ∈ seen ∨ id ∈ before) := by
  induction ids generalizing seen with
  | nil => cases h
  | cons x ids ih =>
    rw [firstRepeated?_cons] at h
    split_ifs at h with hx
    · obtain rfl := Option.some.inj h
      exact ⟨[], ids, rfl, .nil, List.forall_mem_nil _, .inl hx⟩
    · obtain ⟨before, after, rfl, hnodup, hnew, hid⟩ := ih h
      refine ⟨x :: before, after, rfl, List.nodup_cons.mpr ⟨fun hmem => hnew x hmem List.mem_cons_self, hnodup⟩, ?_, ?_⟩
      · refine List.forall_mem_cons.mpr ⟨hx, fun y hy hmem => hnew y hy (List.mem_cons_of_mem x hmem)⟩
      · simp only [List.mem_cons] at hid ⊢
        tauto

end Repeated

theorem validate_eq_error {s : Settings} {d : DuplicateId} :
    s.validate = .error d ↔ firstRepeated? [] (s.providers.map (·.providerId)) = some d.id := by
  obtain ⟨id⟩ := d
  unfold validate
  cases firstRepeated? [] (s.providers.map (·.providerId)) <;> simp

theorem validate_eq_ok {s : Settings} : s.validate = .ok () ↔ (s.providers.map (·.providerId)).Nodup := by
  have hnone : s.validate = .ok () ↔ firstRepeated? [] (s.providers.map (·.providerId)) = none := by
    unfold validate
    cases firstRepeated? [] (s.providers.map (·.providerId)) <;> simp
  rw [hnone, firstRepeated?_eq_none]
  simp

end Settings

namespace Host

variable {h : Host} {p : Provider} {l : Ledger}

theorem register_of_free (hp : p.id ∉ h.providerIds) :
    h.register p l = .ok (h.put p, l.logged (.providerRegistered h.address p.id)) := by
  rw [mem_providerIds, Option.not_isSome_iff_eq_none] at hp
  rw [register, hp]

theorem register_of_mem (hp : p.id ∈ h.providerIds) : h.register p l = .error ⟨p.id⟩ := by
  obtain ⟨q, hq⟩ := Option.isSome_iff_exists.mp (mem_providerIds.mp hp)
  rw [register, hq]

theorem providerIds_put_perm (hp : p.id ∉ h.providerIds) : (h.put p).providerIds.Perm (p.id :: h.providerIds) :=
  ((insert_putsInOrder p).perm hp).map Provider.id

/-- Every provider of a host is found under its id. -/
theorem Ordered.find?_of_mem (ho : h.Ordered) (hp : p ∈ h.providers) : h.find? p.id = some p := by
  obtain ⟨q, hq⟩ := Option.isSome_iff_exists.mp (mem_providerIds.mp (List.mem_map_of_mem (f := Provider.id) hp))
  have hid : q.id = p.id := by simpa using List.find?_some hq
  have hnodup : (h.providers.map Provider.id).Nodup := ho.providerIds.imp UInt16.ne_of_lt
  rw [hq, List.inj_on_of_nodup_map hnodup (List.mem_of_find?_eq_some hq) hp hid]

end Host

namespace Server

def provider (o : ProviderOptions) : Provider := { options := o, factory }

theorem describe_provider (o : ProviderOptions) : (provider o).describe =
    .object [("provider_id", .ofUInt16 o.providerId), ("sequencers", .array []),
      ("teardown", .string o.teardown.name), ("token_protected", .bool (o.token ≠ ""))] := by
  by_cases htoken : o.token = "" <;>
    simp [Provider.describe, provider, Registry.ids, Json.ofStrings, Provider.id, Provider.isProtected, htoken]

section RegisterAll

variable {h h' : Host} {l l' : Ledger} {os : List ProviderOptions} {seen : List UInt16} {id : UInt16}

theorem registerAll_cons_of_free {o : ProviderOptions} (ho : o.providerId ∉ h.providerIds) :
    registerAll h (o :: os) l = registerAll (h.put (provider o)) os
      ((l.logged (.providerCreated o)).logged (.providerRegistered h.address o.providerId)) := by
  have hregister := Host.register_of_free (p := provider o) (l := l.logged (.providerCreated o)) ho
  rw [registerAll, show ({ options := o, factory } : Provider) = provider o from rfl, hregister]
  rfl

theorem registerAll_cons_of_mem {o : ProviderOptions} (ho : o.providerId ∈ h.providerIds) :
    registerAll h (o :: os) l = .error ⟨o.providerId⟩ := by
  have hregister := Host.register_of_mem (p := provider o) (l := l.logged (.providerCreated o)) ho
  rw [registerAll, show ({ options := o, factory } : Provider) = provider o from rfl, hregister]
  rfl

theorem registerAll_error (hseen : ∀ id, id ∈ seen ↔ id ∈ h.providerIds) :
    Settings.firstRepeated? seen (os.map (·.providerId)) = some id ↔ registerAll h os l = .error ⟨id⟩ := by
  induction os generalizing h l seen with
  | nil => simp [Settings.firstRepeated?, registerAll]
  | cons o os ih =>
    rw [List.map_cons, Settings.firstRepeated?_cons]
    by_cases ho : o.providerId ∈ h.providerIds
    · rw [if_pos ((hseen _).mpr ho), registerAll_cons_of_mem ho]
      simp
    · rw [if_neg (mt (hseen _).mp ho), registerAll_cons_of_free ho]
      refine ih fun id => ?_
      rw [(Host.providerIds_put_perm (p := provider o) ho).mem_iff, List.mem_cons, List.mem_cons, hseen]
      rfl

/-- A host that all entries are registered with has one provider more for each of them. -/
theorem registerAll_eq_ok (ho : h.Ordered) (hok : registerAll h os l = .ok (h', l')) :
    h'.Ordered ∧ h'.address = h.address ∧ h'.providers.Perm (os.map provider ++ h.providers) := by
  induction os generalizing h l with
  | nil =>
    obtain ⟨rfl, rfl⟩ := Prod.mk.inj (Except.ok.inj hok)
    exact ⟨ho, rfl, .refl _⟩
  | cons o os ih =>
    by_cases hid : o.providerId ∈ h.providerIds
    · rw [registerAll_cons_of_mem hid] at hok
      cases hok
    · rw [registerAll_cons_of_free hid] at hok
      obtain ⟨ho', haddress, hperm⟩ := ih (Host.ordered_put ho (provider o)) hok
      have hput : (h.put (provider o)).providers.Perm (provider o :: h.providers) :=
        (Host.insert_putsInOrder (provider o)).perm hid
      exact ⟨ho', haddress, hperm.trans ((hput.append_left _).trans List.perm_middle)⟩

end RegisterAll

/-- What it means that a host has the providers of the settings, and nothing has happened to them yet. -/
structure Houses (s : Settings) (h : Host) : Prop where
  address : h.address = s.server.address
  /-- There is exactly one provider for every entry. -/
  providers : h.providers.Perm (s.providers.map provider)
  increasing : h.providerIds.Pairwise (· < ·)
  ids : h.providerIds.Perm (s.providers.map (·.providerId))
  described : ∀ o ∈ s.providers, ∃ p, h.find? o.providerId = some p ∧
    p.describe = .object [("provider_id", .ofUInt16 o.providerId), ("sequencers", .array []),
      ("teardown", .string o.teardown.name), ("token_protected", .bool (o.token ≠ ""))]

/-- What it means that the check of the settings and the assembly of their host come to the same. -/
structure Agrees (s : Settings) (l : Ledger) : Prop where
  accepted : s.validate = .ok () ↔ ∃ h l', host s l = .ok (h, l')
  housed : ∀ h l', host s l = .ok (h, l') → Houses s h
  refused : ∀ id, s.validate = .error ⟨id⟩ ↔ host s l = .error ⟨id⟩
  /-- The id is that of the first entry whose id an entry before it has. -/
  first : ∀ id, s.validate = .error ⟨id⟩ → ∃ before o after, s.providers = before ++ o :: after ∧
    o.providerId = id ∧ id ∈ before.map (·.providerId) ∧ (before.map (·.providerId)).Nodup

theorem houses_of_host {s : Settings} {l l' : Ledger} {h : Host} (hok : host s l = .ok (h, l')) : Houses s h := by
  have hempty : ({ address := s.server.address } : Host).Ordered := List.Pairwise.nil
  obtain ⟨ho, haddress, hperm⟩ := registerAll_eq_ok hempty hok
  rw [List.append_nil] at hperm
  refine ⟨haddress, hperm, ho.providerIds, ?_, fun o hmem => ⟨provider o, ?_, describe_provider o⟩⟩
  · simpa [Host.providerIds, Function.comp_def, provider, Provider.id] using hperm.map Provider.id
  · exact ho.find?_of_mem (p := provider o) (hperm.mem_iff.mpr (List.mem_map_of_mem hmem))

/-- Settings pass their check if and only if a host is assembled from them. It has the providers of the settings; and
where there is none the check and the assembly blame the same id, the first one that is given again. -/
theorem check_agrees_assembly (s : Settings) (l : Ledger) : Agrees s l := by
  have hrefused : ∀ id, s.validate = .error ⟨id⟩ ↔ host s l = .error ⟨id⟩ := fun id =>
    Settings.validate_eq_error.trans (registerAll_error fun id => by simp [Host.providerIds])
  refine ⟨⟨fun hok => ?_, ?_⟩, fun h l' => houses_of_host, hrefused, fun id hid => ?_⟩
  · cases hhost : host s l with
    | ok x => exact ⟨x.1, x.2, rfl⟩
    | error e => cases hok.symm.trans ((hrefused e.id).mpr hhost)
  · rintro ⟨h, l', hhost⟩
    cases hvalid : s.validate with
    | ok u => rfl
    | error d => cases hhost.symm.trans ((hrefused d.id).mp hvalid)
  · obtain ⟨before, after, hids, hnodup, -, hin⟩ := Settings.firstRepeated?_eq_some (Settings.validate_eq_error.mp hid)
    obtain ⟨before', rest, hproviders, rfl, hrest⟩ := List.map_eq_append_iff.mp hids
    obtain ⟨o, after', rfl, rfl, -⟩ := List.map_eq_cons_iff.mp hrest
    exact ⟨before', o, after', hproviders, rfl, hin.resolve_left List.not_mem_nil, hnodup⟩

/-- Of two ids that are given again the one that comes again first is blamed. -/
example : (Settings.validate ⟨{}, none, [⟨7, "", .detach⟩, ⟨5, "a", .destroy⟩, ⟨5, "", .detach⟩, ⟨7, "", .detach⟩]⟩) =
    .error ⟨5⟩ := by rfl

end Server
end SequencerHub

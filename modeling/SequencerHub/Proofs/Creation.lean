import SequencerHub.Proofs.Registrations
import SequencerHub.Proofs.Requests

/-! How a request to create or open a sequencer is decided: by the token, then by the type, then by the configuration,
and only then by the one constructor that is called. Whoever is refused leaves the registry as it was. -/
namespace SequencerHub
namespace Provider

/-- What it means that a constructor is called, and that the instance is registered if there is one. -/
structure Constructs (p : Provider) (how : Construction) (sequencerType : String) (constructor : Constructor)
    (config : Json) (l : Ledger) (out : Provider × Work × Ledger) : Prop where
  /-- The table looks the type up once more for the call, and finds the same. -/
  found : p.factory.construct how sequencerType l.built.length ⟨p.id, config⟩ =
    .ok (constructor l.built.length ⟨p.id, config⟩)
  /-- Of all constructors this one is called, once and with these arguments. -/
  once : out.2.2.built = l.built ++ [⟨how, sequencerType, ⟨p.id, config⟩⟩]
  calls : out.2.2.calls = l.calls
  registered : ∀ b, (constructor l.built.length ⟨p.id, config⟩).outcome = .ok b →
    out.1 = { p with live := p.live.insert l.nextId ⟨l.built.length, b⟩ } ∧ out.2.1 = .answered (.id l.nextId) ∧
      out.2.2.minted = l.minted + 1
  failed : ∀ e, (constructor l.built.length ⟨p.id, config⟩).outcome = .failed e →
    out.1 = p ∧ out.2.1 = .refused ⟨.backendConstruction, "Failed to construct sequencer of type " ++ sequencerType ++
      ": " ++ ": ".intercalate (e.outermost :: e.causes)⟩ ∧ out.2.2.minted = l.minted
  panicked : ∀ q, (constructor l.built.length ⟨p.id, config⟩).outcome = .panicked q →
    out.1 = p ∧ out.2.1 = .ended (.panicked q) ∧ out.2.2.minted = l.minted

section Decide

variable {p : Provider} {how : Construction} {token sequencerType text : String} {c : Constructors} {l : Ledger}

theorem admits_iff : p.admits token = true ↔ p.options.token = "" ∨ p.options.token = token := by
  simp [admits, isProtected]

theorem construct_unparsed (ht : p.admits token = true) (hf : p.factory.find? sequencerType = some c)
    {e : RemoteError} (he : parseConfig text = .error e) :
    p.construct how token sequencerType text l = (p, .refused e, l) := by
  simp only [construct, if_pos ht, hf, he]

theorem construct_parsed (ht : p.admits token = true) (hf : p.factory.find? sequencerType = some c) {j : Json}
    (hj : parseConfig text = .ok j) : p.construct how token sequencerType text l = p.build how sequencerType c j l := by
  simp only [construct, if_pos ht, hf, hj]

theorem parseConfig_error {e : JsonError} (h : Json.ofText text = .error e) :
    parseConfig text = .error ⟨.configParse, "Could not parse sequencer configuration: " ++ e.message⟩ := by
  simp only [parseConfig, h]
  rfl

theorem parseConfig_noObject {j : Json} (h : Json.ofText text = .ok j) (hj : ∀ members, j ≠ .object members) :
    parseConfig text = .error ⟨.configParse, "Sequencer configuration must be a JSON object"⟩ := by
  have hobject : j.isObject = false := by
    cases j with
    | object members => exact absurd rfl (hj members)
    | _ => rfl
  simp [parseConfig, h, hobject]

theorem parseConfig_object {members : List (String × Json)} (h : Json.ofText text = .ok (.object members)) :
    parseConfig text = .ok (.object members) := by
  simp [parseConfig, h, Json.isObject]

theorem build_constructs (hf : p.factory.find? sequencerType = some c) (config : Json) :
    p.Constructs how sequencerType (c.pick how) config l (p.build how sequencerType c config l) := by
  obtain ⟨l', hl, hbuild⟩ := build_cases p how sequencerType c config l
  have hnext : l'.nextId = l.nextId := by simp [Ledger.nextId, hl.supply, hl.minted, Ledger.constructed]
  rw [hbuild]
  exact {
    found := Factory.construct_of_find? hf how l.built.length ⟨p.id, config⟩
    once := by cases (c.pick how l.built.length ⟨p.id, config⟩).outcome <;> exact hl.built
    calls := by cases (c.pick how l.built.length ⟨p.id, config⟩).outcome <;> exact hl.calls
    registered := by
      intro b hb
      rw [hb]
      exact ⟨by simp only [enlist, hnext], by simp only [enlist, hnext], congrArg (· + 1) hl.minted⟩
    failed := by
      intro e he
      rw [he]
      exact ⟨rfl, rfl, hl.minted⟩
    panicked := by
      intro q hq
      rw [hq]
      exact ⟨rfl, rfl, hl.minted⟩ }

end Decide

end Provider
end SequencerHub

import SequencerHub.Proofs.Layering

/-! Tables of backend types as histories of registrations. A name stands for what was registered under it last. -/
namespace SequencerHub.Factory

section Table

variable {f : Factory} {name : String} {c : Constructors} {how : Construction} {nth : Nat} {args : BackendArgs}

theorem find?_register (f : Factory) (name : String) (c : Constructors) (n : String) :
    (f.register name c).find? n = if name = n then some c else f.find? n := by
  rw [find?, register, (insert_putsInOrder name c).find? f.types n]
  split_ifs <;> rfl

theorem mem_names : name ∈ f.names ↔ f.contains name = true := by
  rw [contains, Option.isSome_iff_ne_none]
  exact lookup_ne_none.symm

theorem names_register (h : f.names.Pairwise (· < ·)) (name : String) (c : Constructors) :
    (f.register name c).names.Pairwise (· < ·) :=
  List.pairwise_map.mpr ((insert_putsInOrder name c).pairwise (List.pairwise_map.mp h))

theorem construct_of_find? (h : f.find? name = some c) (how : Construction) (nth : Nat) (args : BackendArgs) :
    f.construct how name nth args = .ok (c.pick how nth args) := by
  simp only [construct, h]

theorem construct_eq_ok_iff {made : Prompt Backend} :
    f.construct how name nth args = .ok made ↔ ∃ c, f.find? name = some c ∧ made = c.pick how nth args := by
  cases hc : f.find? name with
  | none => simp [construct, hc]
  | some c => simp [construct_of_find? hc, eq_comm]

theorem construct_eq_error_iff {e : FactoryError} :
    f.construct how name nth args = .error e ↔ f.contains name = false ∧ e = .unknownType name := by
  cases hc : f.find? name with
  | none => simp [construct, contains, hc, eq_comm]
  | some c => simp [construct_of_find? hc, contains, hc]

end Table

/-- The table after some registrations, the oldest one first. -/
def ofRegistrations (registrations : List (String × Constructors)) : Factory :=
  registrations.foldl (fun f x => f.register x.1 x.2) {}

/-- What it means that a type has been registered with some constructors, and not once more since. -/
def LastRegistered (registrations : List (String × Constructors)) (name : String) (c : Constructors) : Prop :=
  ∃ before after, registrations = before ++ (name, c) :: after ∧ name ∉ after.map Prod.fst

section History

variable {registrations : List (String × Constructors)} {name : String} {c : Constructors}

theorem ofRegistrations_concat (registrations : List (String × Constructors)) (name : String) (c : Constructors) :
    ofRegistrations (registrations ++ [(name, c)]) = (ofRegistrations registrations).register name c :=
  List.foldl_concat ..

theorem find?_ofRegistrations (registrations : List (String × Constructors)) (name : String) :
    (ofRegistrations registrations).find? name = lookup name registrations.reverse := by
  induction registrations using List.reverseRecOn with
  | nil => rfl
  | append_singleton registrations x ih =>
    obtain ⟨n, c⟩ := x
    rw [ofRegistrations_concat, find?_register, ih, List.reverse_concat, lookup_cons]

theorem lookup_last {before after : List (String × Constructors)} (h : name ∉ after.map Prod.fst) :
    lookup name (before ++ (name, c) :: after).reverse = some c := by
  have hnone : lookup name after.reverse = none := lookup_eq_none (by simpa using h)
  simp only [lookup, Option.map_eq_none_iff] at hnone
  simp [lookup, hnone]

/-- The constructors under a name are those of its last registration. -/
theorem find?_ofRegistrations_eq_some_iff :
    (ofRegistrations registrations).find? name = some c ↔ LastRegistered registrations name c := by
  rw [find?_ofRegistrations]
  constructor
  · intro h
    obtain ⟨x, hx, rfl⟩ := Option.map_eq_some_iff.mp h
    obtain ⟨hname, after, before, hreverse, hafter⟩ := List.find?_eq_some_iff_append.mp hx
    obtain rfl : x.1 = name := by simpa using hname
    refine ⟨before.reverse, after.reverse, by simpa using congrArg List.reverse hreverse, fun hmem => ?_⟩
    obtain ⟨y, hy, hname⟩ := List.mem_map.mp hmem
    simpa [hname] using hafter y (List.mem_reverse.mp hy)
  · rintro ⟨before, after, rfl, hafter⟩
    exact lookup_last hafter

theorem contains_ofRegistrations :
    (ofRegistrations registrations).contains name = true ↔ name ∈ registrations.map Prod.fst := by
  rw [contains, find?_ofRegistrations, Option.isSome_iff_ne_none, lookup_ne_none, List.map_reverse, List.mem_reverse]

theorem names_ofRegistrations (registrations : List (String × Constructors)) :
    (ofRegistrations registrations).names.Pairwise (· < ·) := by
  induction registrations using List.reverseRecOn with
  | nil => exact List.Pairwise.nil
  | append_singleton registrations x ih =>
    obtain ⟨name, c⟩ := x
    rw [ofRegistrations_concat]
    exact names_register ih name c

example (c d e : Constructors) :
    (ofRegistrations [("tagged", c), ("broken", d), ("tagged", e)]).names = ["broken", "tagged"] := by
  cbv

end History

/-- What it means that a table knows what was registered, every type by its last registration. -/
structure Knows (f : Factory) (registrations : List (String × Constructors)) : Prop where
  contains : ∀ name, f.contains name = true ↔ name ∈ registrations.map Prod.fst
  /-- What comes of it is what this constructor makes, with all that it does on the way, and nothing besides. -/
  create : ∀ name nth args made, f.construct .create name nth args = .ok made ↔
    ∃ c, LastRegistered registrations name c ∧ made = c.create nth args
  attach : ∀ name nth args made, f.construct .attach name nth args = .ok made ↔
    ∃ c, LastRegistered registrations name c ∧ made = c.attach nth args
  unknown : ∀ how name nth args e, f.construct how name nth args = .error e ↔
    name ∉ registrations.map Prod.fst ∧ e = .unknownType name
  increasing : f.names.Pairwise (· < ·)
  listed : ∀ name, name ∈ f.names ↔ name ∈ registrations.map Prod.fst
  /-- Whoever registers a type is told whether it was there. -/
  told : ∀ name, f.registration name =
    if name ∈ registrations.map Prod.fst then .typeReplaced name else .typeRegistered name

theorem knows_ofRegistrations (registrations : List (String × Constructors)) :
    (ofRegistrations registrations).Knows registrations := by
  refine ⟨fun _ => contains_ofRegistrations, fun name nth args made => ?_, fun name nth args made => ?_,
    fun how name nth args e => ?_, names_ofRegistrations registrations, fun name => ?_, fun name => ?_⟩
  · simp only [construct_eq_ok_iff, find?_ofRegistrations_eq_some_iff, Constructors.pick]
  · simp only [construct_eq_ok_iff, find?_ofRegistrations_eq_some_iff, Constructors.pick]
  · rw [construct_eq_error_iff, ← contains_ofRegistrations, Bool.not_eq_true]
  · rw [mem_names, contains_ofRegistrations]
  · simp only [registration, contains_ofRegistrations]

end SequencerHub.Factory

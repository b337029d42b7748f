import SequencerHub.Proofs.IdText
import SequencerHub.Proofs.Traffic

/-! Providers list their sequencers by the texts of the identifiers, in the order of the texts. It is the order of the
identifiers, because all texts have their digits at the same places. -/
namespace SequencerHub

section Lexicographic

variable {α : Type} [LT α] {xs ys xs' ys' : List α}

theorem append_lt_append_iff (h : xs.length = ys.length) :
    xs ++ xs' < ys ++ ys' ↔ xs < ys ∨ xs = ys ∧ xs' < ys' := by
  induction xs generalizing ys with
  | nil =>
    obtain rfl := List.eq_nil_of_length_eq_zero h.symm
    simp
  | cons x xs ih =>
    obtain ⟨y, ys, rfl⟩ := List.exists_cons_of_length_eq_add_one h.symm
    have hlength : xs.length = ys.length := by simpa using h
    simp only [List.cons_append, List.cons_lt_cons_iff, ih hlength, List.cons.injEq]
    tauto

theorem singleton_lt_singleton_iff (x y : α) : [x] < [y] ↔ x < y := by
  simp [List.cons_lt_cons_iff]

end Lexicographic

namespace SequencerId

theorem digitChar_lt_iff : ∀ m < 16, ∀ n < 16, Nat.digitChar m < Nat.digitChar n ↔ m < n := by decide

theorem hexDigits_inj {count m n : Nat} (hm : m < 16 ^ count) (hn : n < 16 ^ count)
    (h : hexDigits count m = hexDigits count n) : m = n := by
  have hnumbers := congrArg (number? 0) h
  rw [number?_hexDigits, number?_hexDigits, Nat.mod_eq_of_lt hm, Nat.mod_eq_of_lt hn] at hnumbers
  simpa using hnumbers

theorem hexDigits_lt_iff {count m n : Nat} (hm : m < 16 ^ count) (hn : n < 16 ^ count) :
    hexDigits count m < hexDigits count n ↔ m < n := by
  induction count generalizing m n with
  | zero => simp_all [hexDigits]
  | succ count ih =>
    have hm' : m / 16 < 16 ^ count := by
      rw [pow_succ] at hm
      omega
    have hn' : n / 16 < 16 ^ count := by
      rw [pow_succ] at hn
      omega
    have heq : hexDigits count (m / 16) = hexDigits count (n / 16) ↔ m / 16 = n / 16 :=
      ⟨hexDigits_inj hm' hn', fun h => by rw [h]⟩
    rw [hexDigits, hexDigits, append_lt_append_iff (by rw [length_hexDigits, length_hexDigits]), ih hm' hn', heq,
      singleton_lt_singleton_iff, digitChar_lt_iff _ (Nat.mod_lt _ (by decide)) _ (Nat.mod_lt _ (by decide))]
    omega

/-- Hyphens at the same places change nothing about the order. -/
theorem hyphenate_lt_iff {sizes : List Nat} {xs ys : List Char} (hx : xs.length = sizes.sum)
    (hy : ys.length = sizes.sum) : hyphenate sizes xs < hyphenate sizes ys ↔ xs < ys := by
  induction sizes generalizing xs ys with
  | nil => rfl
  | cons size more ih =>
    cases more with
    | nil =>
      have hsize : size = [size].sum := by simp
      simp only [hyphenate]
      rw [List.take_of_length_le (by omega), List.take_of_length_le (by omega)]
    | cons next more =>
      rw [List.sum_cons] at hx hy
      have htake : (xs.take size).length = (ys.take size).length := by
        rw [List.length_take, List.length_take]
        omega
      have hrest : hyphenate (next :: more) (xs.drop size) < hyphenate (next :: more) (ys.drop size) ↔
          xs.drop size < ys.drop size := ih (by rw [List.length_drop]; omega) (by rw [List.length_drop]; omega)
      have hxs : xs < ys ↔ xs.take size < ys.take size ∨
          xs.take size = ys.take size ∧ xs.drop size < ys.drop size := by
        rw [← append_lt_append_iff htake, List.take_append_drop, List.take_append_drop]
      rw [hyphenate_cons, hyphenate_cons, append_lt_append_iff htake, List.cons_lt_cons_iff, hrest, hxs]
      simp

variable {a b : SequencerId}

theorem toText_injective : Function.Injective toText := fun a b h =>
  Except.ok.inj ((ofText_toText a).symm.trans ((congrArg ofText h).trans (ofText_toText b)))

theorem compare_eq_lt_iff : compare a b = .lt ↔ a.val < b.val := Nat.compare_eq_lt

/-- The texts of identifiers are in the order of the identifiers. -/
theorem toText_lt_iff : a.toText < b.toText ↔ compare a b = .lt := by
  have hsum : groups.sum = 32 := rfl
  rw [compare_eq_lt_iff, String.lt_iff, toText, toText, String.toList_ofList, String.toList_ofList, chars,
    chars, hyphenate_lt_iff (by simp [digits, hsum]) (by simp [digits, hsum]), digits, digits,
    hexDigits_lt_iff a.lt b.lt]

end SequencerId

theorem Registry.nodup_erase {r : Registry} (h : r.ids.Nodup) (id : SequencerId) : (r.erase id).ids.Nodup :=
  h.sublist (List.filter_sublist.map _)

theorem Access.nodup_on (a : Access) {r : Registry} (h : r.ids.Nodup) : (a.on r).ids.Nodup := by
  cases a with
  | insert id i =>
    have hids : (r.insert id i).ids = (r.erase id).ids ++ [id] := by simp [Registry.ids, Registry.insert]
    have hnew : id ∉ (r.erase id).ids := by simp [Registry.mem_ids]
    rw [Access.on, hids, ← List.concat_eq_append]
    exact (Registry.nodup_erase h id).concat hnew
  | lookup id => exact h
  | remove id => exact Registry.nodup_erase h id
  | drain => exact List.nodup_nil

namespace Traffic

theorem nodup_run (options : ProviderOptions) (factory : Factory) (supply : Nat → SequencerId) (ms : List Move) :
    ((fresh options factory supply).run ms).provider.live.ids.Nodup := by
  refine run_induction _ ms (P := fun s => s.provider.live.ids.Nodup) (fun s m h => ?_) List.nodup_nil
  rw [step_live]
  cases s.access? m with
  | none => exact h
  | some a => exact a.nodup_on h

end Traffic

/-- What has texts that are all different is strictly increasing once it is sorted by them. -/
theorem pairwise_lt_mergeSort {α : Type} {f : α → String} {xs : List α} (h : (xs.map f).Nodup) :
    (xs.mergeSort (f · ≤ f ·)).Pairwise (f · < f ·) := by
  have hle : (xs.mergeSort (f · ≤ f ·)).Pairwise (f · ≤ f ·) := by
    have htrans : ∀ x y z : α, decide (f x ≤ f y) = true → decide (f y ≤ f z) = true → decide (f x ≤ f z) = true :=
      fun x y z => by simpa using String.le_trans
    have htotal : ∀ x y : α, (decide (f x ≤ f y) || decide (f y ≤ f x)) = true := fun x y => by
      simpa using String.le_total (f x) (f y)
    simpa using List.pairwise_mergeSort htrans htotal xs
  have hne : (xs.mergeSort (f · ≤ f ·)).Pairwise (f · ≠ f ·) :=
    List.pairwise_map.mp (((List.mergeSort_perm xs _).map f).nodup_iff.mpr h)
  exact hle.imp₂ (fun x y hxy hne => String.not_le.mp fun hyx => hne (String.le_antisymm hxy hyx)) hne

/-- What it means that texts list the live sequencers of a provider. -/
structure Provider.Lists (p : Provider) (texts : List String) : Prop where
  described : p.describe.get? "sequencers" = some (.ofStrings texts)
  increasing : texts.Pairwise (· < ·)
  length : texts.length = p.live.length
  /-- The texts are read as the live identifiers, each as one of them, and are as these are written. -/
  read : ∃ ids : List SequencerId, texts.map SequencerId.ofText = ids.map .ok ∧ texts = ids.map SequencerId.toText ∧
    ids.Perm p.live.ids ∧ ids.Pairwise fun a b => compare a b = .lt

/-- What it means that identifiers are written so that the order of texts is theirs. -/
structure SequencerId.WrittenInOrder : Prop where
  injective : Function.Injective SequencerId.toText
  read : ∀ id : SequencerId, SequencerId.ofText id.toText = .ok id
  order : ∀ a b : SequencerId, compare a b = .lt ↔ a.toText < b.toText

theorem Provider.lists_of_nodup {p : Provider} (h : p.live.ids.Nodup) :
    p.Lists ((p.live.ids.map SequencerId.toText).mergeSort (· ≤ ·)) := by
  have hperm := List.mergeSort_perm (p.live.ids.map SequencerId.toText) (· ≤ ·)
  have hdistinct : (p.live.ids.map SequencerId.toText).Nodup := h.map SequencerId.toText_injective
  have hincreasing : ((p.live.ids.map SequencerId.toText).mergeSort (· ≤ ·)).Pairwise (· < ·) :=
    pairwise_lt_mergeSort (f := fun text => text) (by rwa [List.map_id'])
  generalize htexts : (p.live.ids.map SequencerId.toText).mergeSort (· ≤ ·) = texts at hperm hincreasing
  have hwritten : ∀ text ∈ texts, text ∈ Set.range SequencerId.toText := fun text htext => by
    obtain ⟨id, -, hid⟩ := List.mem_map.mp (hperm.mem_iff.mp htext)
    exact ⟨id, hid⟩
  obtain ⟨ids, rfl⟩ : texts ∈ Set.range (List.map SequencerId.toText) := by rwa [Set.range_list_map]
  refine ⟨by rw [← htexts]; rfl, hincreasing, ?_, ids, ?_, rfl, ?_, ?_⟩
  · simpa [Registry.ids] using hperm.length_eq
  · simp [SequencerId.ofText_toText]
  · exact (List.map_perm_map_iff SequencerId.toText_injective).mp hperm
  · exact (List.pairwise_map.mp hincreasing).imp SequencerId.toText_lt_iff.mp

/-- Whatever has happened at a provider, its description lists the live sequencers in the order of their identifiers. -/
theorem catalogue_ordered (options : ProviderOptions) (factory : Factory) (supply : Nat → SequencerId)
    (ms : List Move) :
    (∃ texts, ((Traffic.fresh options factory supply).run ms).provider.Lists texts) ∧ SequencerId.WrittenInOrder :=
  ⟨⟨_, Provider.lists_of_nodup (Traffic.nodup_run options factory supply ms)⟩,
    SequencerId.toText_injective, SequencerId.ofText_toText, fun _ _ => SequencerId.toText_lt_iff.symm⟩

end SequencerHub

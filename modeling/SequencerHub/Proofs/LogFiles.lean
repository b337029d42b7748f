import Mathlib.Data.List.Nodup
import SequencerHub.Log.Setup
import SequencerHub.Proofs.Marks

/-! Which file takes the events of a target. A target belongs to a module and to every module around it, so that several
sections may claim it. The files are tried in no particular order: the longest section wins in all orders exactly if no
other section claims the target. -/
namespace SequencerHub

section Modules

variable {target path outer inner : String}

theorem belongsTo_iff :
    belongsTo target path = true ↔ target = path ∨ path.toList ++ [':', ':'] <+: target.toList := by
  simp [belongsTo, List.isPrefixOf_iff_prefix]

theorem prefix_of_belongsTo (h : belongsTo target path) : path.toList <+: target.toList := by
  rcases belongsTo_iff.mp h with rfl | h
  · exact List.prefix_rfl
  · exact (List.prefix_append _ _).trans h

theorem eq_of_beginnings (ho : outer.toList <+: target.toList) (hi : inner.toList <+: target.toList)
    (hlen : outer.length = inner.length) : outer = inner := by
  rw [← String.length_toList, ← String.length_toList] at hlen
  exact String.toList_inj.mp ((List.prefix_of_prefix_length_le ho hi (Nat.le_of_eq hlen)).eq_of_length hlen)

/-- Names of which the longer one lies inside the shorter one, or only has a colon more, which can pass for the first
half of a separator. -/
def Overlap (outer inner : String) : Prop := belongsTo inner outer ∨ inner = outer ++ ":"

theorem Overlap.shares (h : Overlap outer inner) : ∃ target, belongsTo target outer ∧ belongsTo target inner := by
  rcases h with h | rfl
  · exact ⟨inner, h, belongsTo_iff.mpr (.inl rfl)⟩
  · exact ⟨outer ++ ":::", belongsTo_iff.mpr (.inr (by simp)), belongsTo_iff.mpr (.inr (by simp))⟩

theorem overlap_of_belongsTo (ho : belongsTo target outer) (hi : belongsTo target inner)
    (hlen : outer.length < inner.length) : Overlap outer inner := by
  rw [← String.length_toList, ← String.length_toList] at hlen
  have hin := prefix_of_belongsTo hi
  rcases belongsTo_iff.mp ho with rfl | ho
  · exact absurd hin.length_le (by omega)
  · by_cases hlong : outer.toList.length + 2 ≤ inner.toList.length
    · exact .inl (belongsTo_iff.mpr (.inr (List.prefix_of_prefix_length_le ho hin (by simpa using hlong))))
    · have hcolon : outer.toList ++ [':'] <+: target.toList :=
        List.IsPrefix.trans ⟨[':'], by simp⟩ ho
      have hsame := (List.prefix_of_prefix_length_le hcolon hin (by simp; omega)).eq_of_length (by simp; omega)
      exact .inr (String.toList_inj.mp (by simp [← hsame]))

end Modules

namespace LogRouter

variable {r : LogRouter} {target : String} {order : List (String × RotatingFile)}
  {a b : Option (Option String × RotatingFile)}

def trying (r : LogRouter) (order : List (String × RotatingFile)) : LogRouter := { r with named := order }

/-- The file for a target: that of the longest section it belongs to, or the fallback if it belongs to none. -/
inductive Closest (r : LogRouter) (target : String) : Option (Option String × RotatingFile) → Prop
  | named {name : String} {f : RotatingFile} (mem : (name, f) ∈ r.named) (belongs : belongsTo target name)
      (longest : ∀ y ∈ r.named, belongsTo target y.1 → y.1.length ≤ name.length) :
      Closest r target (some (some name, f))
  | fallback (none : ∀ y ∈ r.named, ¬ belongsTo target y.1) :
      Closest r target (r.fallback.map fun f => (.none, f))

theorem Closest.unique (hn : (r.named.map Prod.fst).Nodup) (ha : r.Closest target a) (hb : r.Closest target b) :
    a = b := by
  cases ha with
  | named ha hbelongs hlongest =>
    cases hb with
    | named hb hbelongs' hlongest' =>
      have hname := eq_of_beginnings (prefix_of_belongsTo hbelongs) (prefix_of_belongsTo hbelongs')
        (Nat.le_antisymm (hlongest' _ ha hbelongs) (hlongest _ hb hbelongs'))
      cases List.inj_on_of_nodup_map hn ha hb hname
      rfl
    | fallback hnone => exact absurd hbelongs (hnone _ ha)
  | fallback hnone =>
    cases hb with
    | named hb hbelongs' => exact absurd hbelongs' (hnone _ hb)
    | fallback => rfl

/-- The router takes some section that the target belongs to, and the fallback only if there is none. -/
theorem route?_cases (r : LogRouter) (target : String) :
    (∃ x ∈ r.named, belongsTo target x.1 ∧ r.route? target = some (some x.1, x.2)) ∨
      (∀ x ∈ r.named, ¬ belongsTo target x.1) ∧ r.route? target = r.fallback.map fun f => (none, f) := by
  cases hfind : r.named.find? fun x => belongsTo target x.1 with
  | some x =>
    have hb : belongsTo target x.1 = true := by simpa using List.find?_some hfind
    exact .inl ⟨x, List.mem_of_find?_eq_some hfind, hb, by simp [route?, hfind]⟩
  | none => exact .inr ⟨List.find?_eq_none.mp hfind, by simp [route?, hfind]⟩

/-- Every section that a target belongs to is tried first in some order. -/
theorem exists_route? {x : String × RotatingFile} (hx : x ∈ r.named) (hb : belongsTo target x.1) :
    ∃ order, order.Perm r.named ∧ (r.trying order).route? target = some (some x.1, x.2) :=
  ⟨x :: r.named.erase x, (List.perm_cons_erase hx).symm, by simp [route?, trying, hb]⟩

/-- What it means that the files are found in the same way in whatever order they are tried. -/
structure Settled (r : LogRouter) (target : String) : Prop where
  closest : ∀ order, order.Perm r.named → r.Closest target ((r.trying order).route? target)
  steady : ∀ order, order.Perm r.named → (r.trying order).route? target = r.route? target

/-- At most one section claims the target. -/
def Unshared (r : LogRouter) (target : String) : Prop :=
  ∀ x ∈ r.named, ∀ y ∈ r.named, belongsTo target x.1 → belongsTo target y.1 → x.1 = y.1

theorem Unshared.closest (h : r.Unshared target) (hp : order.Perm r.named) :
    r.Closest target ((r.trying order).route? target) := by
  rcases (r.trying order).route?_cases target with ⟨x, hx, hb, hroute⟩ | ⟨hnone, hroute⟩
  · rw [hroute]
    have hx : x ∈ r.named := hp.mem_iff.mp hx
    exact .named hx hb fun y hy hby => Nat.le_of_eq (congrArg String.length (h y hy x hx hby hb))
  · rw [hroute]
    exact .fallback fun y hy => hnone y (hp.mem_iff.mpr hy)

theorem settled_iff_unshared (hn : (r.named.map Prod.fst).Nodup) : r.Settled target ↔ r.Unshared target := by
  constructor
  · intro h x hx y hy hbx hby
    have hlonger : ∀ x ∈ r.named, belongsTo target x.1 → ∀ y ∈ r.named, belongsTo target y.1 →
        y.1.length ≤ x.1.length := by
      intro x hx hbx y hy hby
      obtain ⟨order, hp, hroute⟩ := exists_route? hx hbx
      have hclosest := h.closest order hp
      rw [hroute] at hclosest
      generalize ha : some (some x.1, x.2) = a at hclosest
      cases hclosest with
      | named _ _ hlongest =>
        cases ha
        exact hlongest y hy hby
      | fallback hnone => exact absurd hbx (hnone x hx)
    exact eq_of_beginnings (prefix_of_belongsTo hbx) (prefix_of_belongsTo hby)
      (Nat.le_antisymm (hlonger y hy hby x hx hbx) (hlonger x hx hbx y hy hby))
  · intro h
    have hself : r.Closest target (r.route? target) := h.closest (.refl r.named)
    exact ⟨fun order hp => h.closest hp, fun order hp => (h.closest hp).unique hn hself⟩

theorem unshared_iff (r : LogRouter) : (∀ target, r.Unshared target) ↔
    ∀ x ∈ r.named, ∀ y ∈ r.named, x.1 ≠ y.1 → ¬ Overlap x.1 y.1 := by
  constructor
  · intro h x hx y hy hne hover
    obtain ⟨target, hbx, hby⟩ := hover.shares
    exact hne (h target x hx y hy hbx hby)
  · intro h target x hx y hy hbx hby
    rcases Nat.lt_trichotomy x.1.length y.1.length with hlt | heq | hgt
    · exact by_contra fun hne => h x hx y hy hne (overlap_of_belongsTo hbx hby hlt)
    · exact eq_of_beginnings (prefix_of_belongsTo hbx) (prefix_of_belongsTo hby) heq
    · exact by_contra fun hne => h y hy x hx (Ne.symm hne) (overlap_of_belongsTo hby hbx hgt)

section Opened

variable {base : String} {files files' : FileTree} {r' : LogRouter} {sections : LogSections}

theorem addSection_named {name : String} {s : LogSection} (h : addSection base name s r files = (files', .ok r')) :
    r'.named.map Prod.fst = r.named.map Prod.fst ∨
      name ≠ LogSections.defaultName ∧ r'.named.map Prod.fst = r.named.map Prod.fst ++ [name] := by
  unfold addSection at h
  split at h
  · cases h
    exact .inl rfl
  · split at h
    · by_cases hname : name = LogSections.defaultName
      · rw [if_pos hname] at h
        cases h
        exact .inl rfl
      · rw [if_neg hname] at h
        cases h
        exact .inr ⟨hname, by simp⟩
    · cases h
      exact .inl rfl
    · cases h

theorem openAll_named (h : openAll base sections r files = (files', .ok r')) :
    ∃ names, names.Sublist ((sections.map Prod.fst).filter (· ≠ LogSections.defaultName)) ∧
      r'.named.map Prod.fst = r.named.map Prod.fst ++ names := by
  induction sections generalizing r files with
  | nil =>
    cases h
    exact ⟨[], List.nil_sublist _, by simp⟩
  | cons x sections ih =>
    obtain ⟨name, s⟩ := x
    rw [openAll] at h
    split at h
    · rename_i r₁ hadd
      obtain ⟨names, hnames, hr⟩ := ih h
      rcases addSection_named hadd with hsame | ⟨hname, hmore⟩
      · exact ⟨names, hnames.trans (((List.sublist_cons_self _ _).map _).filter _), by rw [hr, hsame]⟩
      · exact ⟨name :: names, by simpa [hname] using hnames, by rw [hr, hmore]; simp⟩
    · cases h

theorem ofSections_named (h : ofSections base sections files = (files', .ok r)) :
    (r.named.map Prod.fst).Sublist ((sections.map Prod.fst).filter (· ≠ LogSections.defaultName)) := by
  obtain ⟨names, hnames, hr⟩ := openAll_named h
  rw [hr]
  simpa using hnames

end Opened

/-- The longest section takes the events of a target, in whatever order the files are tried, exactly if no other section
claims the target. So it does for all targets exactly if no section overlaps another one. -/
theorem settled_iff (r : LogRouter) (hn : (r.named.map Prod.fst).Nodup) :
    (∀ target, r.Settled target ↔ r.Unshared target) ∧
      ((∀ target, r.Settled target) ↔ ∀ x ∈ r.named, ∀ y ∈ r.named, x.1 ≠ y.1 → ¬ Overlap x.1 y.1) :=
  ⟨fun _ => settled_iff_unshared hn, by simp only [settled_iff_unshared hn, unshared_iff]⟩

deriving instance DecidableEq for LogRouter

/-- A section for a module, one for a module inside it, and one for a module elsewhere. -/
def nestedSections : LogSections :=
  [("dummy_sequencer", ⟨"info", "dummy.log", "info", none, some 2, some 1⟩),
    ("mobject", ⟨"info", "core.log", "trace", none, some 2, some 1⟩),
    ("mobject::provider", ⟨"info", "provider.log", "trace", none, some 2, some 1⟩)]

def nested : LogRouter where
  named := [("dummy_sequencer", ⟨"/logs/dummy.log", 0x100000, .newest 2, 0, []⟩),
    ("mobject", ⟨"/logs/core.log", 0x100000, .newest 2, 0, []⟩),
    ("mobject::provider", ⟨"/logs/provider.log", 0x100000, .newest 2, 0, []⟩)]

/-- What lies in the outer module alone is settled, and what lies in the inner one is not. -/
theorem settled_iff_nested : (nested.named.map Prod.fst).Nodup ∧ nested.Settled "mobject::host" ∧
    ¬ nested.Settled "mobject::provider" := by
  have hn : (nested.named.map Prod.fst).Nodup := by decide
  refine ⟨hn, ((settled_iff nested hn).1 _).mpr ?_, fun h => ?_⟩
  · unfold Unshared
    decide
  · have hshared := ((settled_iff nested hn).1 _).mp h
    unfold Unshared at hshared
    revert hshared
    decide

/-- The events of the inner module go to the file of the outer one if that is tried first. -/
theorem not_settled_nested : (ofSections "/logs" nestedSections {}).2 = .ok nested ∧
    nested.route? "mobject::provider" = some (some "mobject", ⟨"/logs/core.log", 0x100000, .newest 2, 0, []⟩) ∧
    ¬ nested.Settled "mobject::provider" := by
  have hroute : nested.route? "mobject::provider" =
      some (some "mobject", ⟨"/logs/core.log", 0x100000, .newest 2, 0, []⟩) := by decide
  refine ⟨toOption_eq_some.mp (by decide +kernel), hroute, fun h => ?_⟩
  have hclosest : nested.Closest "mobject::provider" (nested.route? "mobject::provider") := h.closest _ (.refl _)
  rw [hroute] at hclosest
  cases hclosest with
  | named _ _ hlongest =>
    have hinner : ("mobject::provider", ⟨"/logs/provider.log", 0x100000, .newest 2, 0, []⟩) ∈ nested.named := by decide
    exact absurd (hlongest _ hinner (by decide)) (by decide)

end LogRouter
end SequencerHub

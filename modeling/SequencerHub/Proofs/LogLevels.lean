import Mathlib.Data.List.Nodup
import SequencerHub.Log.Filter

/-! What a filter of log events lets through. The rule of a section counts for every target that begins with the name of
the section, be it the name of a module around the target or not, and a section whose level is off has no rule. So its
targets are not silent, but are left to the rules of other sections and to the default. -/
namespace SequencerHub

namespace Threshold

theorem admits_error (m : Level) : Threshold.admits (some m) .error = true := by cases m <;> rfl

theorem silent_iff {t : Threshold} : (∀ l, t.admits l = false) ↔ t = none := by
  cases t with
  | none => simp [admits]
  | some m => simpa using ⟨Level.error, admits_error m⟩

theorem eq_of_admits {t u : Threshold} (h : ∀ l, t.admits l = u.admits l) : t = u := by
  cases t with
  | none => exact (silent_iff.mp fun l => (h l).symm).symm
  | some m =>
    cases u with
    | none => exact silent_iff.mp h
    | some n =>
      have hm : m.rank ≤ n.rank := by simpa [admits] using h m
      have hn : n.rank ≤ m.rank := by simpa [admits] using h n
      have hrank : m.rank = n.rank := Nat.le_antisymm hm hn
      cases m <;> cases n <;> first | rfl | cases hrank

end Threshold

def Level.IsOff (word : String) : Prop := word.map Char.toLower ∈ ["off", "none"]

instance (word : String) : Decidable (Level.IsOff word) := inferInstanceAs (Decidable (_ ∈ _))

theorem Level.ofSetting_eq_none {word : String} : Level.ofSetting word = none ↔ Level.IsOff word := by
  unfold Level.ofSetting Level.IsOff
  cases hname : Level.ofName? word with
  | some l =>
    have hword : l.lowerName = word.map Char.toLower := by simpa using List.find?_some hname
    rw [← hword]
    cases l <;> decide
  | none => simp [or_iff_not_imp_left]

namespace LogFilter

variable {rule target : String} {rules : List (String × Threshold)}

theorem holdsFor_iff : holdsFor rule target = true ↔ rule.toList <+: target.toList := List.isPrefixOf_iff_prefix

/-- What is found is a longest rule for the target, if there is a rule for it. -/
theorem longest_cases (target : String) (rules : List (String × Threshold)) :
    (∃ r ∈ rules, holdsFor r.1 target ∧ (∀ s ∈ rules, holdsFor s.1 target → s.1.length ≤ r.1.length) ∧
      longest target rules = some r) ∨ (∀ r ∈ rules, ¬ holdsFor r.1 target) ∧ longest target rules = none := by
  induction rules with
  | nil => exact .inr ⟨by simp, rfl⟩
  | cons r rules ih =>
    by_cases hr : holdsFor r.1 target
    · left
      rw [longest, if_pos hr]
      rcases ih with ⟨s, hs, hholds, hmax, heq⟩ | ⟨hnone, heq⟩
      · simp only [heq]
        split_ifs with hlt
        · refine ⟨s, List.mem_cons_of_mem _ hs, hholds, ?_, rfl⟩
          exact List.forall_mem_cons.mpr ⟨fun _ => Nat.le_of_lt hlt, hmax⟩
        · refine ⟨r, List.mem_cons_self, hr, ?_, rfl⟩
          exact List.forall_mem_cons.mpr ⟨fun _ => Nat.le_refl _, fun t ht hholds =>
            Nat.le_trans (hmax t ht hholds) (Nat.not_lt.mp hlt)⟩
      · simp only [heq]
        refine ⟨r, List.mem_cons_self, hr, ?_, rfl⟩
        exact List.forall_mem_cons.mpr ⟨fun _ => Nat.le_refl _, fun t ht hholds => absurd hholds (hnone t ht)⟩
    · rw [longest, if_neg hr]
      rcases ih with ⟨s, hs, hholds, hmax, heq⟩ | ⟨hnone, heq⟩
      · refine .inl ⟨s, List.mem_cons_of_mem _ hs, hholds, ?_, heq⟩
        exact List.forall_mem_cons.mpr ⟨fun h => absurd h hr, hmax⟩
      · exact .inr ⟨List.forall_mem_cons.mpr ⟨hr, hnone⟩, heq⟩

end LogFilter

namespace LogSection

def levelWord (sink : Sink) (s : LogSection) : String :=
  match sink with
  | .console => s.consoleLevel
  | .files _ => s.fileLevel

def IsOff (sink : Sink) (s : LogSection) : Prop := Level.IsOff (s.levelWord sink)

instance (sink : Sink) (s : LogSection) : Decidable (s.IsOff sink) := inferInstanceAs (Decidable (Level.IsOff _))

theorem threshold_eq_none {sink : Sink} {s : LogSection} : s.threshold sink = none ↔ s.IsOff sink := by
  cases sink <;> exact Level.ofSetting_eq_none

/-- A section has a rule for a sink if it asks for a level that is not off and, for files, has a file. -/
def Speaks (sink : Sink) (s : LogSection) : Prop := ¬ s.IsOff sink ∧ (sink = .console ∨ s.hasFile)

instance (sink : Sink) (s : LogSection) : Decidable (s.Speaks sink) := inferInstanceAs (Decidable (_ ∧ _))

end LogSection

namespace LogSections

variable {sections : LogSections} {sink : Sink} {name target : String} {s : LogSection} {r : String × Threshold}

theorem rule?_eq_some : rule? sink name s = some r ↔ s.Speaks sink ∧ r = (name, s.threshold sink) := by
  have hsome : ((s.threshold sink).map fun l => (name, some l)) = some r ↔
      ¬ s.IsOff sink ∧ r = (name, s.threshold sink) := by
    rw [← LogSection.threshold_eq_none]
    cases s.threshold sink <;> simp [eq_comm]
  cases sink with
  | console => simpa [rule?, LogSection.Speaks] using hsome
  | files hasDefault =>
    cases hfile : s.hasFile with
    | false => simp [rule?, LogSection.Speaks, hfile]
    | true => simpa [rule?, LogSection.Speaks, hfile] using hsome

theorem rules_eq (sink : Sink) (sections : LogSections) :
    rules sink sections = (sections.filter (·.1 ≠ defaultName)).filterMap fun x => rule? sink x.1 x.2 := by
  induction sections with
  | nil => rfl
  | cons x sections ih =>
    obtain ⟨name, s⟩ := x
    rw [rules]
    split_ifs with hname
    · simp [hname, ih]
    · cases hrule : rule? sink name s <;> simp [hname, hrule, ih]

theorem mem_rules : r ∈ rules sink sections ↔
    ∃ x ∈ sections, x.1 ≠ defaultName ∧ x.2.Speaks sink ∧ r = (x.1, x.2.threshold sink) := by
  simp only [rules_eq, List.mem_filterMap, List.mem_filter, decide_eq_true_eq, rule?_eq_some, and_assoc]

/-- A target is let through by the longest section that speaks and that it begins with, or else by the default. -/
theorem threshold_cases (sections : LogSections) (sink : Sink) (target : String) :
    (∃ x ∈ sections, x.1 ≠ defaultName ∧ x.2.Speaks sink ∧ LogFilter.holdsFor x.1 target ∧
      (∀ y ∈ sections, y.1 ≠ defaultName → y.2.Speaks sink → LogFilter.holdsFor y.1 target →
        y.1.length ≤ x.1.length) ∧ (sections.toFilter sink).threshold target = x.2.threshold sink) ∨
    (∀ x ∈ sections, x.1 ≠ defaultName → x.2.Speaks sink → ¬ LogFilter.holdsFor x.1 target) ∧
      (sections.toFilter sink).threshold target = (sections.toFilter sink).fallback := by
  have hrules : (sections.toFilter sink).rules = rules sink sections := rfl
  unfold LogFilter.threshold
  rw [hrules]
  rcases LogFilter.longest_cases target (rules sink sections) with ⟨r, hr, hholds, hmax, heq⟩ | ⟨hnone, heq⟩
  · obtain ⟨x, hx, hname, hspeaks, rfl⟩ := mem_rules.mp hr
    refine .inl ⟨x, hx, hname, hspeaks, hholds, fun y hy hyname hyspeaks hyholds => ?_, by rw [heq]⟩
    exact hmax (y.1, y.2.threshold sink) (mem_rules.mpr ⟨y, hy, hyname, hyspeaks, rfl⟩) hyholds
  · refine .inr ⟨fun x hx hname hspeaks hholds => ?_, by rw [heq]⟩
    exact hnone (x.1, x.2.threshold sink) (mem_rules.mpr ⟨x, hx, hname, hspeaks, rfl⟩) hholds

def DefaultIsOff (sections : LogSections) (sink : Sink) : Prop :=
  match sections.find? defaultName with
  | some d => d.IsOff sink
  | none => sink = .files false

theorem fallback_eq_none : (sections.toFilter sink).fallback = none ↔ sections.DefaultIsOff sink := by
  unfold toFilter DefaultIsOff
  dsimp only
  cases sections.find? defaultName with
  | some d => exact LogSection.threshold_eq_none
  | none =>
    cases sink with
    | console => simp [unset]
    | files b => cases b <;> simp [unset]

/-- The targets that a section has for itself: its name, and the paths below it that begin with no longer name. -/
def Covers (sections : LogSections) (name target : String) : Prop :=
  target = name ∨ name.toList ++ [':', ':'] <+: target.toList ∧
    ∀ x ∈ sections, LogFilter.holdsFor x.1 target → x.1.length ≤ name.length

theorem Covers.holdsFor (h : sections.Covers name target) {x : String × LogSection} (hx : x ∈ sections)
    (hholds : LogFilter.holdsFor x.1 target) : LogFilter.holdsFor x.1 name := by
  rcases h with rfl | ⟨hbelow, hlongest⟩
  · exact hholds
  · have hlen := hlongest x hx hholds
    rw [← String.length_toList, ← String.length_toList] at hlen
    exact LogFilter.holdsFor_iff.mpr (List.prefix_of_prefix_length_le (LogFilter.holdsFor_iff.mp hholds)
      ((List.prefix_append _ _).trans hbelow) hlen)

/-- A section whose level is off keeps its targets silent exactly if the default is off as well and no other section
that speaks has a name with which this one begins. -/
theorem off_silences_iff (hn : (sections.map Prod.fst).Nodup) (hs : (name, s) ∈ sections) (hoff : s.IsOff sink) :
    (∀ target, sections.Covers name target → ∀ l, (sections.toFilter sink).admits target l = false) ↔
      sections.DefaultIsOff sink ∧ ∀ x ∈ sections, x.1 ≠ defaultName → x.1 ≠ name → x.2.Speaks sink →
        ¬ LogFilter.holdsFor x.1 name := by
  constructor
  · intro h
    have hsilent : (sections.toFilter sink).threshold name = none := Threshold.silent_iff.mp (h name (.inl rfl))
    rcases threshold_cases sections sink name with ⟨x, -, -, hspeaks, -, -, heq⟩ | ⟨hnone, heq⟩
    · rw [hsilent] at heq
      exact absurd (LogSection.threshold_eq_none.mp heq.symm) hspeaks.1
    · rw [hsilent] at heq
      exact ⟨fallback_eq_none.mp heq.symm, fun x hx hname _ hspeaks => hnone x hx hname hspeaks⟩
  · rintro ⟨hdefault, hothers⟩ target hcovers
    refine Threshold.silent_iff.mpr ?_
    rcases threshold_cases sections sink target with ⟨x, hx, hname, hspeaks, hholds, -, -⟩ | ⟨-, heq⟩
    · have hbegins := hcovers.holdsFor hx hholds
      by_cases hself : x.1 = name
      · have hsame : x = (name, s) := List.inj_on_of_nodup_map hn hx hs hself
        rw [hsame] at hspeaks
        exact absurd hoff hspeaks.1
      · exact absurd hbegins (hothers x hx hname hself hspeaks)
    · rw [heq]
      exact fallback_eq_none.mpr hdefault

/-- A section with a file that is off for both sinks, behind a default section that is off for the console only. -/
def muted : LogSections :=
  [("default", ⟨"off", "logs/all.log", "info", none, none, none⟩),
    ("dummy_sequencer", ⟨"info", "", "", none, none, none⟩),
    ("mobject", ⟨"None", "logs/core.log", "OFF", none, none, none⟩)]

theorem off_silences_iff_muted : (muted.map Prod.fst).Nodup ∧
    ("mobject", ⟨"None", "logs/core.log", "OFF", none, none, none⟩) ∈ muted ∧
    LogSection.IsOff .console ⟨"None", "logs/core.log", "OFF", none, none, none⟩ ∧
    ∀ target, muted.Covers "mobject" target → ∀ l, (muted.toFilter .console).admits target l = false := by
  have hn : (muted.map Prod.fst).Nodup := by decide
  have hs : ("mobject", ⟨"None", "logs/core.log", "OFF", none, none, none⟩) ∈ muted := by decide
  have hoff : LogSection.IsOff .console ⟨"None", "logs/core.log", "OFF", none, none, none⟩ := by decide +kernel
  refine ⟨hn, hs, hoff, (off_silences_iff hn hs hoff).mpr ⟨?_, ?_⟩⟩
  · show LogSection.IsOff .console ⟨"off", "logs/all.log", "info", none, none, none⟩
    decide +kernel
  · decide +kernel

/-- For the files the default section is not off, and takes over. -/
theorem not_silenced_muted : ("mobject", ⟨"None", "logs/core.log", "OFF", none, none, none⟩) ∈ muted ∧
    LogSection.IsOff (.files true) ⟨"None", "logs/core.log", "OFF", none, none, none⟩ ∧
    LogSection.hasFile ⟨"None", "logs/core.log", "OFF", none, none, none⟩ = true ∧
    ¬ ∀ target, muted.Covers "mobject" target → ∀ l, (muted.toFilter (.files true)).admits target l = false := by
  refine ⟨by decide, by decide +kernel, by decide +kernel, fun h => ?_⟩
  have hpasses : (muted.toFilter (.files true)).admits "mobject" .info = true := by decide +kernel
  rw [h "mobject" (.inl rfl) .info] at hpasses
  cases hpasses

end LogSections
end SequencerHub

import SequencerHub.Proofs.LogLevels
import SequencerHub.Proofs.Precedence

/-! What the flags for more verbosity do to the console. They name a level for the default section, whatever level it
asked for before, so one flag silences tracing where the section asked for it; and without a default section they do
nothing at all. The rules for the targets that have sections of their own stay as they are. -/
namespace SequencerHub

/-- What it means that so many flags raise a threshold: all that was let through still is, and so is debugging with one
flag and tracing with more. -/
structure Threshold.Raised (flags : Nat) (before after : Threshold) : Prop where
  keeps : ∀ l, before.admits l = true → after.admits l = true
  debugs : flags = 1 → after.admits .debug = true
  traces : 2 ≤ flags → after.admits .trace = true

namespace Threshold

theorem admits_trace (l : Level) : admits (some .trace) l = true := by cases l <;> rfl

theorem kept_by_debug_iff {t : Threshold} :
    (∀ l, t.admits l = true → admits (some .debug) l = true) ↔ t ≠ some .trace := by
  constructor
  · rintro h rfl
    have htrace : admits (some .debug) .trace = true := h .trace (admits_trace .trace)
    cases htrace
  · intro h l hl
    cases t with
    | none => cases hl
    | some m => cases m <;> first | exact absurd rfl h | cases l <;> first | rfl | cases hl

end Threshold

namespace Overrides

def threshold (o : Overrides) (d : LogSection) : Threshold :=
  match o.verbosity with
  | 0 => d.threshold .console
  | 1 => some .debug
  | _ => some .trace

theorem threshold_onSection (o : Overrides) (d : LogSection) :
    (o.onSection LogSections.defaultName d).threshold .console = o.threshold d := by
  have hdefault : o.onSection LogSections.defaultName d =
      { d with consoleLevel := o.consoleLevel?.getD d.consoleLevel } := if_pos rfl
  rw [hdefault]
  obtain ⟨port, _ | _ | n⟩ := o
  · rfl
  · show Level.ofSetting "debug" = some .debug
    decide +kernel
  · show Level.ofSetting "trace" = some .trace
    decide +kernel

/-- The flags raise the threshold of a section unless there is just one and the section asks for tracing. -/
theorem raised_threshold_iff {o : Overrides} {d : LogSection} :
    Threshold.Raised o.verbosity (d.threshold .console) (o.threshold d) ↔
      (o.verbosity = 1 → d.threshold .console ≠ some .trace) := by
  obtain ⟨port, _ | _ | n⟩ := o
  · show Threshold.Raised 0 (d.threshold .console) (d.threshold .console) ↔ (0 = 1 → _)
    constructor
    · exact fun _ hone => absurd hone (by decide)
    · exact fun _ => ⟨fun _ hl => hl, fun hone => absurd hone (by decide), fun hmore => absurd hmore (by decide)⟩
  · show Threshold.Raised 1 (d.threshold .console) (some .debug) ↔ (1 = 1 → _)
    constructor
    · exact fun hr _ => Threshold.kept_by_debug_iff.mp hr.keeps
    · exact fun h => ⟨Threshold.kept_by_debug_iff.mpr (h rfl), fun _ => rfl, fun hmore => absurd hmore (by decide)⟩
  · show Threshold.Raised (n + 2) (d.threshold .console) (some .trace) ↔ (n + 2 = 1 → _)
    constructor
    · exact fun _ hone => absurd hone (by omega)
    · exact fun _ => ⟨fun l _ => Threshold.admits_trace l, fun hone => absurd hone (by omega), fun _ => rfl⟩

end Overrides

namespace LogSections

theorem rules_override (o : Overrides) (sections : LogSections) (sink : Sink) :
    rules sink (sections.map fun x => (x.1, o.onSection x.1 x.2)) = rules sink sections := by
  induction sections with
  | nil => rfl
  | cons x sections ih =>
    obtain ⟨name, sec⟩ := x
    rw [List.map_cons, rules, rules, ih]
    by_cases hname : name = defaultName
    · rw [if_pos hname, if_pos hname]
    · have hsame : o.onSection name sec = sec := if_neg hname
      rw [if_neg hname, if_neg hname, hsame]

theorem console_override {s : Settings} {sections : LogSections} (h : s.logging = some sections) (o : Overrides) :
    (s.override o).logging.map (fun after => after.toFilter .console) = some
      { sections.toFilter .console with
        fallback := ((sections.find? defaultName).map o.threshold).getD (unset .console) } := by
  have hfind := find?_override o s defaultName
  rw [override_logging, h] at hfind ⊢
  simp only [Option.getD_some, Option.bind_some] at hfind
  simp only [Option.getD_some, Option.map_some, toFilter, hfind, rules_override]
  cases sections.find? defaultName with
  | none => rfl
  | some d =>
    have hd : (o.onSection defaultName d).threshold .console = o.threshold d := o.threshold_onSection d
    simp [hd]

end LogSections

namespace Settings

/-- What it means that the flags of the command only raise the console: it has a filter afterwards, and the threshold
of that for targets without sections of their own is raised. -/
def OnlyRaised (s : Settings) (o : Overrides) (sections : LogSections) : Prop :=
  ∃ after, (s.override o).logging = some after ∧
    Threshold.Raised o.verbosity (sections.toFilter .console).fallback (after.toFilter .console).fallback

/-- The flags only raise the console exactly if there are none, or there is a default section and it is not the case
that there is just one flag and the section asks for tracing. -/
theorem onlyRaised_iff {s : Settings} {sections : LogSections} (h : s.logging = some sections) (o : Overrides) :
    s.OnlyRaised o sections ↔ o.verbosity = 0 ∨ ∃ d, sections.find? LogSections.defaultName = some d ∧
      (o.verbosity = 1 → d.threshold .console ≠ some .trace) := by
  have hafter := LogSections.console_override h o
  obtain ⟨after, hlogging, hconsole⟩ := Option.map_eq_some_iff.mp hafter
  have hraised : s.OnlyRaised o sections ↔ Threshold.Raised o.verbosity (sections.toFilter .console).fallback
      (((sections.find? LogSections.defaultName).map o.threshold).getD (LogSections.unset .console)) := by
    unfold OnlyRaised
    simp only [hlogging, Option.some.injEq, exists_eq_left', hconsole]
  rw [hraised]
  unfold LogSections.toFilter
  cases sections.find? LogSections.defaultName with
  | none =>
    simp only [reduceCtorEq, false_and, exists_false, or_false, Option.map_none, Option.getD_none]
    constructor
    · intro hr
      by_contra hflags
      rcases Nat.lt_or_ge 1 o.verbosity with hmore | hone
      · have htrace := hr.traces hmore
        cases htrace
      · have hdebug := hr.debugs (by omega)
        cases hdebug
    · exact fun hnone => ⟨fun _ hl => hl, fun hone => absurd hone (by omega), fun hmore => absurd hmore (by omega)⟩
  | some d =>
    simp only [Option.some.injEq, exists_eq_left', Option.map_some, Option.getD_some]
    rw [Overrides.raised_threshold_iff]
    constructor
    · exact fun hr => .inr hr
    · rintro (hnone | hr)
      · exact fun hone => absurd hone (by omega)
      · exact hr

/-- A console that is off by default, and one that traces. -/
def hushed : LogSections :=
  [("default", ⟨"off", "", "", none, none, none⟩), ("mobject", ⟨"warn", "", "", none, none, none⟩)]

def tracing : LogSections := [("default", ⟨"trace", "", "", none, none, none⟩)]

theorem onlyRaised_iff_hushed : ({ fallback with logging := some hushed } : Settings).logging = some hushed ∧
    ({ fallback with logging := some hushed } : Settings).OnlyRaised ⟨none, 1⟩ hushed := by
  refine ⟨rfl, (onlyRaised_iff rfl ⟨none, 1⟩).mpr (.inr ⟨⟨"off", "", "", none, none, none⟩, rfl, fun _ => ?_⟩)⟩
  decide +kernel

/-- One flag takes tracing away from a console that traces, and gives no debugging to one without a default section. -/
theorem not_onlyRaised_tracing : ¬ ({ fallback with logging := some tracing } : Settings).OnlyRaised ⟨none, 1⟩ tracing ∧
    ¬ ({ fallback with logging := some [] } : Settings).OnlyRaised ⟨none, 1⟩ [] := by
  constructor
  · rintro ⟨after, hafter, hraised⟩
    obtain rfl := Option.some.inj hafter
    have htrace := hraised.keeps .trace (by decide +kernel)
    revert htrace
    decide +kernel
  · rintro ⟨after, hafter, hraised⟩
    obtain rfl := Option.some.inj hafter
    have hdebug := hraised.debugs rfl
    cases hdebug

end Settings
end SequencerHub

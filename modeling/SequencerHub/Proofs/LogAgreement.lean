import SequencerHub.Proofs.LogFiles
import SequencerHub.Proofs.LogLevels
import SequencerHub.Proofs.Records

/-! Whether what a filter lets through to the files is what the section asks for whose file it goes to. The filter goes
by the beginnings of targets and the router by modules. They part at targets that only share a beginning with a section:
the filter takes the level of that section, and the router the default file. -/
namespace SequencerHub

namespace LogSections

variable {sections : LogSections} {d : LogSection} {target : String} {x y : String × LogSection}

def routed? (sections : LogSections) (found : Option (Option String × RotatingFile)) : Option LogSection :=
  found.bind fun x => sections.find? (x.1.getD defaultName)

/-- Sections with levels and files for everything: a default one, and others that do not lie inside each other. -/
structure Full (sections : LogSections) (d : LogSection) : Prop where
  nodup : (sections.map Prod.fst).Nodup
  default : (defaultName, d) ∈ sections
  file : ∀ x ∈ sections, x.2.hasFile = true
  level : ∀ x ∈ sections, ¬ Level.IsOff x.2.fileLevel
  apart : ∀ x ∈ sections, ∀ y ∈ sections, x.1 ≠ defaultName → y.1 ≠ defaultName → x.1 ≠ y.1 →
    ¬ belongsTo y.1 x.1

/-- The section with the longest name that a target begins with. -/
def Leads (sections : LogSections) (target : String) (x : String × LogSection) : Prop :=
  x ∈ sections ∧ x.1 ≠ defaultName ∧ LogFilter.holdsFor x.1 target ∧
    ∀ y ∈ sections, y.1 ≠ defaultName → LogFilter.holdsFor y.1 target → y.1.length ≤ x.1.length

/-- The sections that a target can go to: those it belongs to, or the default one if there are none. -/
def Takes (sections : LogSections) (target : String) (x : String × LogSection) : Prop :=
  x ∈ sections ∧ if x.1 = defaultName then ∀ y ∈ sections, y.1 ≠ defaultName → ¬ belongsTo target y.1
    else belongsTo target x.1

theorem find?_of_mem (hn : (sections.map Prod.fst).Nodup) (hx : x ∈ sections) : sections.find? x.1 = some x.2 := by
  rw [find?, Members.find?_of_mem hn hx, Option.map_some]

theorem Leads.unique (hn : (sections.map Prod.fst).Nodup) (hx : sections.Leads target x)
    (hy : sections.Leads target y) : x = y := by
  obtain ⟨hx, hxname, hxholds, hxmax⟩ := hx
  obtain ⟨hy, hyname, hyholds, hymax⟩ := hy
  exact List.inj_on_of_nodup_map hn hx hy (eq_of_beginnings (LogFilter.holdsFor_iff.mp hxholds)
    (LogFilter.holdsFor_iff.mp hyholds) (Nat.le_antisymm (hymax x hx hxname hxholds) (hxmax y hy hyname hyholds)))

variable (hasDefault : Bool)

theorem Full.speaks (h : sections.Full d) (hx : x ∈ sections) : x.2.Speaks (.files hasDefault) :=
  ⟨h.level x hx, .inr (h.file x hx)⟩

/-- The filter takes the level of the longest section that a target begins with, or else of the default one. -/
theorem Full.threshold_cases (h : sections.Full d) (target : String) :
    (∃ x, sections.Leads target x ∧
      (sections.toFilter (.files hasDefault)).threshold target = Level.ofSetting x.2.fileLevel) ∨
    (∀ x ∈ sections, x.1 ≠ defaultName → ¬ LogFilter.holdsFor x.1 target) ∧
      (sections.toFilter (.files hasDefault)).threshold target = Level.ofSetting d.fileLevel := by
  rcases LogSections.threshold_cases sections (.files hasDefault) target with
    ⟨x, hx, hname, -, hholds, hmax, heq⟩ | ⟨hnone, heq⟩
  · exact .inl ⟨x, ⟨hx, hname, hholds, fun y hy hyname => hmax y hy hyname (h.speaks hasDefault hy)⟩, heq⟩
  · refine .inr ⟨fun x hx hname => hnone x hx hname (h.speaks hasDefault hx), heq.trans ?_⟩
    simp only [toFilter, find?_of_mem h.nodup h.default]
    rfl

theorem holdsFor_of_belongsTo {path : String} (h : belongsTo target path) : LogFilter.holdsFor path target :=
  LogFilter.holdsFor_iff.mpr (prefix_of_belongsTo h)

end LogSections

namespace LogRouter

variable {sections : LogSections} {d : LogSection} {target base : String} {r : LogRouter} {x : String × LogSection}
  {order : List (String × RotatingFile)} {files files' : FileTree} {filter : LogFilter}

structure Opened (r : LogRouter) (sections : LogSections) : Prop where
  fallback : r.fallback.isSome
  named : ∀ x ∈ sections, x.1 ≠ LogSections.defaultName → x.1 ∈ r.named.map Prod.fst

/-- The router has a file for every section, and no others. -/
structure Stocked (r : LogRouter) (sections : LogSections) : Prop extends Opened r sections where
  only : ∀ name ∈ r.named.map Prod.fst, name ≠ LogSections.defaultName ∧ name ∈ sections.map Prod.fst

theorem start_eq_files : Logging.start sections base files = (files', .ok (.files filter r)) ↔
    sections ≠ [] ∧ ofSections base sections files = (files', .ok r) ∧
      filter = sections.toFilter (.files r.fallback.isSome) := by
  unfold Logging.start
  cases sections with
  | nil => simp
  | cons x sections =>
    rw [if_neg (by simp)]
    cases ofSections base (x :: sections) files with
    | mk files₁ opened =>
      cases opened with
      | error e => simp
      | ok r₁ => grind

theorem Opened.stocked (h : r.Opened sections) (hsections : ofSections base sections files = (files', .ok r)) :
    r.Stocked sections where
  toOpened := h
  only name hname := by
    have hmem := (ofSections_named hsections).subset hname
    simpa [and_comm] using hmem

/-- Every file that is found is of a section that the target can go to. -/
theorem Stocked.takes_of_route? (h : r.Stocked sections) (hf : sections.Full d) (hp : order.Perm r.named) :
    ∃ x, sections.Takes target x ∧ sections.routed? ((r.trying order).route? target) = some x.2 := by
  rcases (r.trying order).route?_cases target with ⟨z, hz, hb, hroute⟩ | ⟨hnone, hroute⟩
  · obtain ⟨hname, hmem⟩ := h.only z.1 (List.mem_map_of_mem (hp.mem_iff.mp hz))
    obtain ⟨x, hx, hxz⟩ := List.mem_map.mp hmem
    refine ⟨x, ⟨hx, ?_⟩, ?_⟩
    · rw [hxz, if_neg hname]
      exact hb
    · rw [hroute, ← hxz]
      exact LogSections.find?_of_mem hf.nodup hx
  · obtain ⟨f, hfallback⟩ := Option.isSome_iff_exists.mp h.fallback
    refine ⟨(LogSections.defaultName, d), ⟨hf.default, ?_⟩, ?_⟩
    · rw [if_pos rfl]
      intro y hy hyname
      obtain ⟨z, hz, hzy⟩ := List.mem_map.mp (h.named y hy hyname)
      rw [← hzy]
      exact hnone z (hp.mem_iff.mpr hz)
    · have hd : (r.trying order).fallback = some f := hfallback
      rw [hroute, hd]
      exact LogSections.find?_of_mem hf.nodup hf.default

theorem Stocked.route?_of_takes (h : r.Stocked sections) (hf : sections.Full d) (hx : sections.Takes target x) :
    ∃ order, order.Perm r.named ∧ sections.routed? ((r.trying order).route? target) = some x.2 := by
  obtain ⟨hmem, htakes⟩ := hx
  split_ifs at htakes with hname
  · have hfound : ∃ y, sections.Takes target y ∧ sections.routed? ((r.trying r.named).route? target) = some y.2 :=
      h.takes_of_route? hf (.refl r.named)
    obtain ⟨y, ⟨hy, hytakes⟩, hrouted⟩ := hfound
    refine ⟨r.named, .refl _, ?_⟩
    split_ifs at hytakes with hyname
    · rw [hrouted, List.inj_on_of_nodup_map hf.nodup hy hmem (hyname.trans hname.symm)]
    · exact absurd hytakes (htakes y hy hyname)
  · obtain ⟨z, hz, hzx⟩ := List.mem_map.mp (h.named x hmem hname)
    have hbelongs : belongsTo target z.1 = true := hzx ▸ htakes
    obtain ⟨order, hp, hroute⟩ := exists_route? hz hbelongs
    refine ⟨order, hp, ?_⟩
    rw [hroute, hzx]
    exact LogSections.find?_of_mem hf.nodup hmem

/-- What it means that the filter lets through to a file what the section of that file asks for, in whatever order the
files are tried. -/
def Heeds (r : LogRouter) (sections : LogSections) (filter : LogFilter) (target : String) : Prop :=
  ∀ order, order.Perm r.named → ∀ l, filter.admits target l = true ↔
    ∃ s, sections.routed? ((r.trying order).route? target) = some s ∧
      Threshold.admits (Level.ofSetting s.fileLevel) l = true

variable (hasDefault : Bool)

theorem Stocked.heeds_iff (h : r.Stocked sections) (hf : sections.Full d) (target : String) :
    r.Heeds sections (sections.toFilter (.files hasDefault)) target ↔
      ∀ x y, sections.Takes target x → sections.Leads target y →
        Level.ofSetting y.2.fileLevel = Level.ofSetting x.2.fileLevel := by
  have hlevel : r.Heeds sections (sections.toFilter (.files hasDefault)) target ↔ ∀ x, sections.Takes target x →
      (sections.toFilter (.files hasDefault)).threshold target = Level.ofSetting x.2.fileLevel := by
    constructor
    · intro hheeds x hx
      obtain ⟨order, hp, hrouted⟩ := h.route?_of_takes hf hx
      refine Threshold.eq_of_admits fun l => Bool.eq_iff_iff.mpr ?_
      have hadmits := hheeds order hp l
      rw [LogFilter.admits, hrouted] at hadmits
      simpa using hadmits
    · intro hsame order hp l
      obtain ⟨x, hx, hrouted⟩ := h.takes_of_route? hf hp
      rw [LogFilter.admits, hsame x hx]
      simp [hrouted]
  rw [hlevel]
  rcases hf.threshold_cases hasDefault target with ⟨z, hz, heq⟩ | ⟨hnone, heq⟩
  · rw [heq]
    refine ⟨fun hsame x y hx hy => ?_, fun hsame x hx => hsame x z hx hz⟩
    rw [hy.unique hf.nodup hz]
    exact hsame x hx
  · refine iff_of_true (fun x hx => ?_) (fun x y _ hy => absurd hy.2.2.1 (hnone y hy.1 hy.2.1))
    obtain ⟨hmem, htakes⟩ := hx
    split_ifs at htakes with hname
    · rw [heq, List.inj_on_of_nodup_map hf.nodup hmem hf.default hname]
    · exact absurd (LogSections.holdsFor_of_belongsTo htakes) (hnone x hmem hname)

/-- A target that goes on from the name of a section with a character of no name is led by that section, but goes to the
default one. -/
theorem astray (hf : sections.Full d) {c : Char} (hcolon : c ≠ ':') (hc : ∀ y ∈ sections, c ∉ y.1.toList)
    (hx : x ∈ sections) (hname : x.1 ≠ LogSections.defaultName) :
    sections.Leads (x.1.push c) x ∧ sections.Takes (x.1.push c) (LogSections.defaultName, d) := by
  have hlist : (x.1.push c).toList = x.1.toList ++ [c] := String.toList_push c
  refine ⟨⟨hx, hname, LogFilter.holdsFor_iff.mpr (by simp [hlist]), fun y hy _ hyholds => ?_⟩, hf.default, ?_⟩
  · rw [LogFilter.holdsFor_iff, hlist, List.prefix_concat_iff] at hyholds
    rcases hyholds with heq | hbegins
    · exact absurd (heq ▸ List.mem_append_right _ (List.mem_singleton.mpr rfl)) (hc y hy)
    · simpa [String.length_toList] using hbegins.length_le
  · rw [if_pos rfl]
    intro y hy hyname hbelongs
    rw [belongsTo_iff, hlist] at hbelongs
    rcases hbelongs with heq | hbelow
    · exact hc y hy (heq ▸ hlist ▸ List.mem_append_right _ (List.mem_singleton.mpr rfl))
    · rw [List.prefix_concat_iff] at hbelow
      rcases hbelow with heq | hbelow
      · have hlast := congrArg List.getLast? heq
        simp at hlast
        exact hcolon hlast.symm
      · have hne : y.1 ≠ x.1 := fun heq => by
          have hlen := hbelow.length_le
          simp [heq] at hlen
        exact hf.apart y hy x hx hyname hname hne (belongsTo_iff.mpr (.inr hbelow))

/-- At a target the filter heeds the section whose file is found exactly if the longest section that the target begins
with has the same level as those that the target can go to. It does so at all targets exactly if all sections have the
level of the default one, if only some character is in no name. -/
theorem heeds_iff_levels (hf : sections.Full d)
    (hstart : Logging.start sections base files = (files', .ok (.files filter r))) (ho : r.Opened sections) :
    (∀ target, r.Heeds sections filter target ↔ ∀ x y, sections.Takes target x → sections.Leads target y →
      Level.ofSetting y.2.fileLevel = Level.ofSetting x.2.fileLevel) ∧
    ∀ c, c ≠ ':' → (∀ x ∈ sections, c ∉ x.1.toList) → ((∀ target, r.Heeds sections filter target) ↔
      ∀ x ∈ sections, Level.ofSetting x.2.fileLevel = Level.ofSetting d.fileLevel) := by
  obtain ⟨-, hsections, rfl⟩ := start_eq_files.mp hstart
  have hheeds := fun target => (ho.stocked hsections).heeds_iff r.fallback.isSome hf target
  refine ⟨hheeds, fun c hcolon hc => ⟨fun h x hx => ?_, fun h target => (hheeds target).mpr fun x y hx hy => ?_⟩⟩
  · by_cases hname : x.1 = LogSections.defaultName
    · rw [List.inj_on_of_nodup_map hf.nodup hx hf.default hname]
    · obtain ⟨hleads, htakes⟩ := astray hf hcolon hc hx hname
      exact (hheeds _).mp (h _) _ _ htakes hleads
  · rw [h x hx.1, h y hy.1]

def talkative : LogSections :=
  [("default", ⟨"info", "all.log", "info", none, some 2, some 1⟩),
    ("mobject", ⟨"info", "core.log", "trace", none, some 2, some 1⟩)]

def talkativeRouter : LogRouter where
  fallback := some ⟨"/logs/all.log", 0x100000, .newest 2, 0, []⟩
  named := [("mobject", ⟨"/logs/core.log", 0x100000, .newest 2, 0, []⟩)]

theorem full_talkative : talkative.Full ⟨"info", "all.log", "info", none, some 2, some 1⟩ where
  nodup := by decide
  default := by decide
  file := by decide +kernel
  level := by decide +kernel
  apart := by decide

theorem start_talkative : Logging.start talkative "/logs" {} =
    ((ofSections "/logs" talkative {}).1, .ok (.files (talkative.toFilter (.files true)) talkativeRouter)) := by
  have hrouter : (ofSections "/logs" talkative {}).2 = .ok talkativeRouter := toOption_eq_some.mp (by decide +kernel)
  exact start_eq_files.mpr ⟨by simp [talkative], Prod.ext rfl hrouter, rfl⟩

theorem opened_talkative : talkativeRouter.Opened talkative where
  fallback := rfl
  named := by decide

/-- Events of modules inside the section are kept at its level. -/
theorem heeds_iff_levels_talkative :
    talkative.Full ⟨"info", "all.log", "info", none, some 2, some 1⟩ ∧
    Logging.start talkative "/logs" {} =
      ((ofSections "/logs" talkative {}).1, .ok (.files (talkative.toFilter (.files true)) talkativeRouter)) ∧
    talkativeRouter.Opened talkative ∧
    talkativeRouter.Heeds talkative (talkative.toFilter (.files true)) "mobject::provider" := by
  refine ⟨full_talkative, start_talkative, opened_talkative,
    ((heeds_iff_levels full_talkative start_talkative opened_talkative).1 _).mpr ?_⟩
  have hdecided : ∀ x ∈ talkative, ∀ y ∈ talkative,
      (if x.1 = LogSections.defaultName then ∀ y ∈ talkative, y.1 ≠ LogSections.defaultName →
        ¬ belongsTo "mobject::provider" y.1 else belongsTo "mobject::provider" x.1) → y.1 ≠ LogSections.defaultName →
      Level.ofSetting y.2.fileLevel = Level.ofSetting x.2.fileLevel := by decide +kernel
  exact fun x y hx hy => hdecided x hx.1 y hy.1 hx.2 hy.2.1

/-- The events of a module whose name only begins in the same way are let through as if they were for the section, and
go to the default file, which is not to have them. -/
theorem not_heeds_talkative : talkative.Full ⟨"info", "all.log", "info", none, some 2, some 1⟩ ∧
    Logging.start talkative "/logs" {} =
      ((ofSections "/logs" talkative {}).1, .ok (.files (talkative.toFilter (.files true)) talkativeRouter)) ∧
    talkativeRouter.Opened talkative ∧
    (talkative.toFilter (.files true)).admits "mobject_server" .debug = true ∧
    talkative.routed? (talkativeRouter.route? "mobject_server") =
      some ⟨"info", "all.log", "info", none, some 2, some 1⟩ ∧
    ¬ talkativeRouter.Heeds talkative (talkative.toFilter (.files true)) "mobject_server" := by
  have hadmits : (talkative.toFilter (.files true)).admits "mobject_server" .debug = true := by decide +kernel
  have hrouted : talkative.routed? (talkativeRouter.route? "mobject_server") =
      some ⟨"info", "all.log", "info", none, some 2, some 1⟩ := by decide +kernel
  refine ⟨full_talkative, start_talkative, opened_talkative, hadmits, hrouted, fun h => ?_⟩
  obtain ⟨s, hs, hlevel⟩ := (h talkativeRouter.named (.refl _) .debug).mp hadmits
  obtain rfl := Option.some.inj (hrouted.symm.trans hs)
  exact absurd hlevel (by decide +kernel)

end LogRouter
end SequencerHub

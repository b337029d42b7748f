import SequencerHub.Log.Router
import SequencerHub.Proofs.Marks

/-! How large a log file may grow. A section says so in megabytes, in any 64-bit word, and the limit is the product in
bytes, in such a word again. So what is asked for is kept from one megabyte up to the size at which the product wraps.
A product of zero, be it for no megabytes or for so many that nothing remains, ends the start of the whole program. -/
namespace SequencerHub

namespace LogSection

def megabytes (s : LogSection) : Nat := (s.maxSizeMb.getD defaultMegabytes).toNat

theorem byteLimit_toNat (s : LogSection) : s.byteLimit.toNat = s.megabytes * 2 ^ 20 % 2 ^ 64 := by
  show (s.maxSizeMb.getD defaultMegabytes * 1024 * 1024).toNat =
    (s.maxSizeMb.getD defaultMegabytes).toNat * 2 ^ 20 % 2 ^ 64
  rw [UInt64.toNat_mul, UInt64.toNat_mul]
  show _ * 1024 % 2 ^ 64 * 1024 % 2 ^ 64 = _
  omega

/-- Of the limit nothing remains exactly if the size is a multiple of that at which it wraps. -/
theorem byteLimit_eq_zero {s : LogSection} : s.byteLimit = 0 ↔ 2 ^ 44 ∣ s.megabytes := by
  have hzero : s.byteLimit = 0 ↔ s.byteLimit.toNat = 0 := UInt64.toNat_inj.symm
  rw [hzero, byteLimit_toNat]
  omega

theorem byteLimit_exact_iff {s : LogSection} :
    s.byteLimit ≠ 0 ∧ s.byteLimit.toNat = s.megabytes * 2 ^ 20 ↔ 0 < s.megabytes ∧ s.megabytes < 2 ^ 44 := by
  rw [Ne, byteLimit_eq_zero, byteLimit_toNat]
  omega

end LogSection

namespace RotatingFile

variable {s : LogSection} {path : String} {files : FileTree}

def above (path : String) : String :=
  match Path.parent? path.toList with
  | some p => String.ofList p
  | none => ""

/-- The directory for a file is there or can be made. -/
def Reachable (path : String) (files : FileTree) : Prop := (files.createAll (above path)).2 = .ok ()

/-- What it means that a file can be opened: its directory can be made, and then it is there or can be started. -/
def Openable (path : String) (files : FileTree) : Prop :=
  Reachable path files ∧ ∃ names, (files.createAll (above path)).1.fileNames path = .ok names

/-- The file of a section is refused with its directory, is not started because nothing remains of its limit, or has its
limit. -/
theorem openFor_cases (s : LogSection) (path : String) (files : FileTree) :
    (¬ Reachable path files ∧ ∃ e, (openFor s path files).2 = .error (.io e)) ∨
      (Reachable path files ∧ s.byteLimit = 0 ∧ (openFor s path files).2 = .error .noLimit) ∨
      Reachable path files ∧ s.byteLimit ≠ 0 ∧
        ∃ size, (openFor s path files).2 = .ok ⟨path, s.byteLimit.toNat, s.retention, size, []⟩ := by
  unfold Reachable above openFor
  cases Path.parent? path.toList <;>
  · dsimp only
    generalize files.createAll _ = made
    obtain ⟨files', e | u⟩ := made
    · refine .inl ⟨fun h => ?_, e, rfl⟩
      cases h
    · by_cases hzero : s.byteLimit = 0
      · exact .inr (.inl ⟨rfl, hzero, congrArg Prod.snd (if_pos hzero)⟩)
      · exact .inr (.inr ⟨rfl, hzero, _, congrArg Prod.snd (if_neg hzero)⟩)

def OpensExactly (s : LogSection) (path : String) (files : FileTree) : Prop :=
  ∃ f, (openFor s path files).2 = .ok f ∧ f.limit = s.megabytes * 2 ^ 20

theorem opensExactly_iff (h : Reachable path files) :
    OpensExactly s path files ↔ 0 < s.megabytes ∧ s.megabytes < 2 ^ 44 := by
  rw [← LogSection.byteLimit_exact_iff]
  unfold OpensExactly
  rcases openFor_cases s path files with ⟨hnot, -⟩ | ⟨-, hzero, hopen⟩ | ⟨-, hpos, size, hopen⟩
  · exact absurd h hnot
  · simp [hopen, hzero]
  · simp [hopen, hpos]

theorem openFor_noLimit_iff :
    (openFor s path files).2 = .error .noLimit ↔ Reachable path files ∧ 2 ^ 44 ∣ s.megabytes := by
  rw [← LogSection.byteLimit_eq_zero]
  rcases openFor_cases s path files with ⟨hnot, e, hopen⟩ | ⟨hmade, hzero, hopen⟩ | ⟨hmade, hpos, size, hopen⟩
  · simp [hopen, hnot]
  · simp [hopen, hmade, hzero]
  · simp [hopen, hpos]

end RotatingFile

namespace LogRouter

open RotatingFile

variable {base name : String} {s : LogSection} {r : LogRouter} {files : FileTree} {sections : LogSections}

/-- What it means that a section ends the start: it has a file, whose directory can be made, and no limit. -/
def Breaks (base : String) (files : FileTree) (s : LogSection) : Prop :=
  s.hasFile ∧ Reachable (logPath s.file base) files ∧ 2 ^ 44 ∣ s.megabytes

/-- Only a section without a limit ends the start; one whose file is refused is left out. -/
theorem addSection_cases (base name : String) (s : LogSection) (r : LogRouter) (files : FileTree) :
    (Breaks base files s ∧ (addSection base name s r files).2 = .error .noLimit) ∨
      ¬ Breaks base files s ∧ ∃ r', (addSection base name s r files).2 = .ok r' := by
  unfold addSection Breaks
  cases hfile : s.hasFile with
  | false =>
    refine .inr ⟨fun h => ?_, r, rfl⟩
    cases h.1
  | true =>
    have hlimit : (openFor s (logPath s.file base) files).2 = .error .noLimit ↔
        Reachable (logPath s.file base) files ∧ 2 ^ 44 ∣ s.megabytes := openFor_noLimit_iff
    simp only [Bool.not_true, Bool.false_eq_true, if_false, true_and]
    rw [← hlimit]
    cases hopen : openFor s (logPath s.file base) files with
    | mk files' opened =>
      cases opened with
      | ok f =>
        refine .inr ⟨fun h => ?_, _, rfl⟩
        cases h
      | error e =>
        cases e with
        | io e =>
          refine .inr ⟨fun h => ?_, _, rfl⟩
          cases h
        | noLimit => exact .inl ⟨rfl, rfl⟩

/-- What it means that it is a section's turn: the files of those before it have been opened. -/
def Turn (base : String) (sections : LogSections) (r : LogRouter) (files : FileTree) (s : LogSection)
    (files' : FileTree) : Prop :=
  ∃ before name after r', sections = before ++ (name, s) :: after ∧ openAll base before r files = (files', .ok r')

theorem turn_cons {x : String × LogSection} {files₁ files' : FileTree} {r₁ : LogRouter}
    (h : addSection base x.1 x.2 r files = (files₁, .ok r₁)) :
    Turn base (x :: sections) r files s files' ↔
      (s = x.2 ∧ files' = files) ∨ Turn base sections r₁ files₁ s files' := by
  constructor
  · rintro ⟨before, name, after, r', hsections, hopen⟩
    cases before with
    | nil =>
      cases hsections
      cases hopen
      exact .inl ⟨rfl, rfl⟩
    | cons y before =>
      rw [List.cons_append, List.cons.injEq] at hsections
      obtain ⟨rfl, hsections⟩ := hsections
      rw [openAll, h] at hopen
      exact .inr ⟨before, name, after, r', hsections, hopen⟩
  · rintro (⟨rfl, rfl⟩ | ⟨before, name, after, r', rfl, hopen⟩)
    · exact ⟨[], x.1, sections, r, rfl, rfl⟩
    · exact ⟨x :: before, name, after, r', rfl, by rw [openAll, h]; exact hopen⟩

/-- The start ends for want of a limit exactly if it becomes the turn of a section that has none. -/
theorem openAll_noLimit_iff : (openAll base sections r files).2 = .error .noLimit ↔
    ∃ s files', Turn base sections r files s files' ∧ Breaks base files' s := by
  induction sections generalizing r files with
  | nil =>
    constructor
    · intro h
      cases h
    · rintro ⟨s, files', ⟨before, name, after, r', hsections, -⟩, -⟩
      simp at hsections
  | cons x sections ih =>
    rcases addSection_cases base x.1 x.2 r files with ⟨hbreaks, hadd⟩ | ⟨hnot, r₁, hadd⟩
    · constructor
      · exact fun _ => ⟨x.2, files, ⟨[], x.1, sections, r, rfl, rfl⟩, hbreaks⟩
      · intro _
        rw [openAll, show addSection base x.1 x.2 r files = ((addSection base x.1 x.2 r files).1, .error .noLimit) from
          Prod.ext rfl hadd]
    · have hadd : addSection base x.1 x.2 r files = ((addSection base x.1 x.2 r files).1, .ok r₁) := Prod.ext rfl hadd
      rw [openAll, hadd]
      dsimp only
      rw [ih]
      refine exists_congr fun s => exists_congr fun files' => ?_
      rw [turn_cons hadd, or_and_right, or_iff_right_of_imp]
      rintro ⟨⟨rfl, rfl⟩, hbreaks⟩
      exact absurd hbreaks hnot

/-- A file that can be opened has exactly the limit that is asked for if that is at least a megabyte and less than
wraps, and the start ends for want of a limit exactly if it becomes the turn of a section that has none. -/
theorem limits_kept_iff (base : String) (sections : LogSections) (files : FileTree) :
    (∀ (s : LogSection) (path : String) (files : FileTree), Openable path files →
      (OpensExactly s path files ↔ 0 < s.megabytes ∧ s.megabytes < 2 ^ 44)) ∧
    ((ofSections base sections files).2 = .error .noLimit ↔
      ∃ s files', Turn base sections {} files s files' ∧ Breaks base files' s) :=
  ⟨fun _ _ _ h => opensExactly_iff h.1, openAll_noLimit_iff⟩

def roomy : LogSection := ⟨"info", "all.log", "info", none, none, some 0xfffffffffff⟩

/-- A section for files of no size, and one for files of a megabyte of which the limit has forgotten the rest. -/
def sizeless : LogSection := { roomy with maxSizeMb := some 0 }

def forgetful : LogSection := { roomy with maxSizeMb := some 0x100000000001 }

theorem openable_allLog : Openable "/logs/all.log" {} := by
  refine ⟨toOption_eq_some.mp ?_, [['l', 'o', 'g', 's'], ['a', 'l', 'l', '.', 'l', 'o', 'g']], toOption_eq_some.mp ?_⟩
  all_goals decide +kernel

theorem limits_kept_iff_roomy : Openable "/logs/all.log" {} ∧ OpensExactly roomy "/logs/all.log" {} ∧
    (ofSections "/logs" [("default", roomy)] {}).2 ≠ .error .noLimit := by
  have hlimits := limits_kept_iff "/logs" [("default", roomy)] {}
  refine ⟨openable_allLog, (hlimits.1 roomy _ _ openable_allLog).mpr (by decide), fun h => ?_⟩
  obtain ⟨s, files', ⟨before, name, after, r', hsections, -⟩, hbreaks⟩ := hlimits.2.mp h
  cases before with
  | nil =>
    cases hsections
    exact absurd hbreaks.2.2 (by decide)
  | cons x before => simp at hsections

theorem not_limits_kept_sizeless : Openable "/logs/all.log" {} ∧
    ¬ OpensExactly sizeless "/logs/all.log" {} ∧ ¬ OpensExactly forgetful "/logs/all.log" {} ∧
    (ofSections "/logs" [("default", sizeless)] {}).2 = .error .noLimit := by
  have hmade : Reachable "/logs/all.log" {} := openable_allLog.1
  have hpath : logPath sizeless.file "/logs" = "/logs/all.log" := by decide +kernel
  have hbreaks : Breaks "/logs" {} sizeless := ⟨by decide +kernel, by rw [hpath]; exact hmade, by decide⟩
  refine ⟨openable_allLog, ?_, ?_, openAll_noLimit_iff.mpr ⟨sizeless, {}, ⟨[], _, [], {}, rfl, rfl⟩, hbreaks⟩⟩
  · rw [opensExactly_iff hmade]
    decide
  · rw [opensExactly_iff hmade]
    decide

end LogRouter
end SequencerHub

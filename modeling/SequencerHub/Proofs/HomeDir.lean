import SequencerHub.Config.HomeDir
import SequencerHub.Proofs.Directories
import SequencerHub.Proofs.Paths

/-! Where the home directory is. A configured one is absolute; the one below the user's directory is as absolute as
that. A leading tilde stands for the user's directory, unless a second slash makes what follows a path of its own. -/
namespace SequencerHub

namespace HomeDir

variable {home configured : Option String} {user raw subdirectory path : String} {rest : List Char}

theorem toList_join (base p : String) : (Path.join base p).toList = Path.joinChars base.toList p.toList := by
  rw [Path.join, String.toList_ofList]

theorem locate_of_isAbsolute (h : Path.isAbsolute path.toList = true) (home : Option String) (subdirectory : String) :
    locate home (some path) subdirectory = .ok path := by
  obtain ⟨rest, hpath⟩ := Path.exists_of_isAbsolute h
  have htilde : path ≠ "~" := by
    rintro rfl
    simp at hpath
  have hbehind : behindTilde? path.toList = none := by
    rw [hpath]
    rfl
  have hexpand : expandTilde home path = .ok path := by
    simp only [expandTilde, if_neg htilde, hbehind]
  simp only [locate, hexpand, if_pos h]

theorem locate_some_eq_ok (h : locate home (some raw) subdirectory = .ok path) :
    expandTilde home raw = .ok path ∧ Path.isAbsolute path.toList = true := by
  unfold locate at h
  cases hexpand : expandTilde home raw with
  | error e => simp [hexpand] at h
  | ok found =>
    simp only [hexpand] at h
    split_ifs at h with habs
    obtain rfl := Except.ok.inj h
    exact ⟨rfl, habs⟩

theorem locate_none_eq_ok (h : locate home none subdirectory = .ok path) :
    ∃ user, home = some user ∧ path = Path.join user subdirectory := by
  cases home with
  | none => cases h
  | some user => exact ⟨user, rfl, (Except.ok.inj h).symm⟩

theorem locate_ne_nil (h : locate home configured subdirectory = .ok path) (hsub : subdirectory.toList ≠ []) :
    path.toList ≠ [] := by
  cases configured with
  | some raw =>
    have habs := (locate_some_eq_ok h).2
    intro hempty
    simp [hempty, Path.isAbsolute] at habs
  | none =>
    obtain ⟨user, -, rfl⟩ := locate_none_eq_ok h
    rw [toList_join, Path.joinChars]
    split_ifs <;> simp [hsub]

/-- Whether what is said about the home directory makes it absolute. -/
def Anchored (home configured : Option String) (subdirectory : String) : Prop :=
  configured ≠ none ∨ Path.isAbsolute subdirectory.toList = true ∨
    ∃ user, home = some user ∧ Path.isAbsolute user.toList = true

theorem isAbsolute_of_locate (h : locate home configured subdirectory = .ok path) :
    Path.isAbsolute path.toList = true ↔ Anchored home configured subdirectory := by
  cases configured with
  | some raw => exact iff_of_true (locate_some_eq_ok h).2 (.inl (Option.some_ne_none raw))
  | none =>
    obtain ⟨user, rfl, rfl⟩ := locate_none_eq_ok h
    rw [toList_join, Path.isAbsolute_joinChars, Bool.or_eq_true]
    constructor
    · rintro (hsub | huser)
      · exact .inr (.inl hsub)
      · exact .inr (.inr ⟨user, rfl, huser⟩)
    · rintro (hnone | hsub | ⟨_, ⟨⟩, huser⟩)
      · exact absurd rfl hnone
      · exact .inl hsub
      · exact .inr huser

section Resolve

variable {create : Bool} {files files' : FileTree}

/-- What has been resolved has been located, and made if it was to be. -/
theorem locate_of_resolve (h : resolve home configured subdirectory create files = (files', .ok path)) :
    locate home configured subdirectory = .ok path ∧
      (if create then files.createAll path = (files', .ok ()) else files' = files) := by
  unfold resolve at h
  cases hlocate : locate home configured subdirectory with
  | error e => simp [hlocate] at h
  | ok found =>
    simp only [hlocate] at h
    cases create with
    | false =>
      obtain ⟨rfl, hfound⟩ := Prod.mk.inj h
      exact ⟨hfound, rfl⟩
    | true =>
      rw [if_pos rfl] at h
      cases hmade : files.createAll found with
      | mk grown made =>
        cases made with
        | error e => simp [hmade] at h
        | ok u =>
          simp only [hmade] at h
          obtain ⟨rfl, hfound⟩ := Prod.mk.inj h
          obtain rfl := Except.ok.inj hfound
          exact ⟨rfl, hmade⟩

/-- A home directory that has been made is found again where it is if and only if its path is absolute. -/
theorem resolve_again (h : files.createAll path = (files', .ok ())) (home : Option String) (subdirectory : String) :
    resolve home (some path) subdirectory true files' = (files', .ok path) ↔
      Path.isAbsolute path.toList = true := by
  constructor
  · intro hagain
    exact (locate_some_eq_ok (locate_of_resolve hagain).1).2
  · intro habs
    have hne : path.toList ≠ [] := by
      intro hempty
      simp [hempty, Path.isAbsolute] at habs
    simp [resolve, locate_of_isAbsolute habs, FileTree.createAll_again hne h]

end Resolve

/-- Whether a path is a directory, or goes on from there with the names of a further path. -/
def Continues (user rest path : List Char) : Prop :=
  Path.components path = Path.components user ∨ Path.components path = Path.components user ++ Path.names rest

theorem expandTilde_join (h : raw.toList = '~' :: '/' :: rest ∨ raw.toList = '~' :: '\\' :: rest) (user : String) :
    expandTilde (some user) raw = .ok (Path.join user (String.ofList rest)) := by
  have hbehind : behindTilde? raw.toList = some rest := by
    rcases h with h | h <;> rw [h] <;> rfl
  have htilde : raw ≠ "~" := by
    rintro rfl
    simp at h
  simp only [expandTilde, if_neg htilde, hbehind]
  rfl

/-- What a tilde is expanded to goes on from the user's directory if and only if what stands behind its slash is no
absolute path, or one that happens to lead to the same place. -/
theorem tilde_continues_iff {create : Bool} {files : FileTree}
    (hraw : raw.toList = '~' :: '/' :: rest ∨ raw.toList = '~' :: '\\' :: rest)
    (h : (resolve (some user) (some raw) subdirectory create files).2 = .ok path) :
    Continues user.toList rest path.toList ↔ (Path.isAbsolute rest = true →
      Path.components user.toList = [] ∨ Path.names rest = Path.components user.toList) := by
  obtain ⟨hlocate, -⟩ := locate_of_resolve (Prod.ext rfl h)
  obtain ⟨hexpand, habs⟩ := locate_some_eq_ok hlocate
  rw [expandTilde_join hraw] at hexpand
  obtain rfl := Except.ok.inj hexpand
  rw [toList_join, String.toList_ofList] at habs ⊢
  unfold Continues
  rw [Path.components_eq_names habs]
  cases hrest : Path.isAbsolute rest with
  | false =>
    have huser : Path.isAbsolute user.toList = true := by
      rwa [Path.isAbsolute_joinChars, hrest, Bool.false_or] at habs
    have hnames : Path.names (Path.joinChars user.toList rest) = Path.components user.toList ++ Path.names rest := by
      rw [Path.names_joinChars hrest, Path.components_eq_names huser]
    simp [hnames]
  | true =>
    rw [Path.joinChars_of_isAbsolute hrest, List.self_eq_append_left]
    simp [or_comm]

theorem tilde_continues_iff_nested : "~/data/./logs".toList = '~' :: '/' :: "data/./logs".toList ∧
    (resolve (some "/home/user") (some "~/data/./logs") ".mobject" false {}).2 = .ok "/home/user/data/./logs" ∧
    Continues "/home/user".toList "data/./logs".toList "/home/user/data/./logs".toList :=
  have hraw : "~/data/./logs".toList = '~' :: '/' :: "data/./logs".toList := by decide
  have hpath : (resolve (some "/home/user") (some "~/data/./logs") ".mobject" false {}).2 =
      .ok "/home/user/data/./logs" := by decide +kernel
  ⟨hraw, hpath, (tilde_continues_iff (.inl hraw) hpath).mpr fun h => absurd h (by decide)⟩

/-- A second slash behind the tilde leads away from the user's directory. -/
theorem not_continues_doubleSlash : "~//etc".toList = '~' :: '/' :: "/etc".toList ∧
    Path.isAbsolute "/home/user".toList = true ∧ ['.', '.'] ∉ Path.names "/etc".toList ∧
    (resolve (some "/home/user") (some "~//etc") ".mobject" false {}).2 = .ok "/etc" ∧
    ¬ Continues "/home/user".toList "/etc".toList "/etc".toList := by
  refine ⟨by decide, by decide, by decide, by decide +kernel, ?_⟩
  unfold Continues
  decide

end HomeDir
end SequencerHub

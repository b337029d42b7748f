import SequencerHub.Config.Load
import SequencerHub.Proofs.HomeDir

/-! What loading the settings can come to, and what it does to the file system on the way. The home directory is
located before it is made, and made before the providers are checked. -/
namespace SequencerHub
namespace Settings

/-- What the sources say, before the home directory is settled. -/
def sources (path : Option String) (env : List (String × String)) (files : FileTree) : Except LoadError Settings :=
  match path with
  | some path => extract path (files.read? path).toOption env
  | none => .ok fallback

def home (env : List (String × String)) (given : Settings) : Except HomeDirError String :=
  HomeDir.locate (valueOf? env HomeDir.homeVariable) given.homeGiven? ".mobject"

def settledAt (given : Settings) (dir : String) : Settings :=
  { given with server := { given.server with homeDir := dir } }

/-- Everything that loading can come to, with the file system that it leaves. -/
inductive Comes (path : Option String) (env : List (String × String)) (files : FileTree) :
    FileTree × Except LoadError Settings → Prop
  | unread {e : LoadError} (hsources : sources path env files = .error e) : Comes path env files (files, .error e)
  | homeless {given : Settings} {e : HomeDirError} (hsources : sources path env files = .ok given)
      (hhome : given.home env = .error e) : Comes path env files (files, .error (.home path.isNone e))
  | unmade {given : Settings} {dir : String} {files' : FileTree} {e : FileError}
      (hsources : sources path env files = .ok given) (hhome : given.home env = .ok dir)
      (hmade : files.createAll dir = (files', .error e)) :
      Comes path env files (files', .error (.home path.isNone (.io e)))
  | repeated {given : Settings} {dir : String} {files' : FileTree} {d : DuplicateId}
      (hsources : sources path env files = .ok given) (hhome : given.home env = .ok dir)
      (hmade : files.createAll dir = (files', .ok ())) (hvalid : given.validate = .error d) :
      Comes path env files (files', .error (.duplicate d))
  | loaded {given : Settings} {dir : String} {files' : FileTree}
      (hsources : sources path env files = .ok given) (hhome : given.home env = .ok dir)
      (hmade : files.createAll dir = (files', .ok ())) (hvalid : given.validate = .ok ()) :
      Comes path env files (files', .ok (given.settledAt dir))

section Load

variable {path : Option String} {env : List (String × String)} {files files' : FileTree}

theorem validate_settledAt (given : Settings) (dir : String) : (given.settledAt dir).validate = given.validate := rfl

theorem settleHome_cases (given : Settings) (env : List (String × String)) (files : FileTree) :
    (∃ e, given.home env = .error e ∧ settleHome (valueOf? env HomeDir.homeVariable) given files = (files, .error e)) ∨
    ∃ dir files', given.home env = .ok dir ∧
      ((∃ e, files.createAll dir = (files', .error e) ∧
        settleHome (valueOf? env HomeDir.homeVariable) given files = (files', .error (.io e))) ∨
      (files.createAll dir = (files', .ok ()) ∧
        settleHome (valueOf? env HomeDir.homeVariable) given files = (files', .ok (given.settledAt dir)))) := by
  unfold settleHome HomeDir.resolve home
  cases HomeDir.locate (valueOf? env HomeDir.homeVariable) given.homeGiven? ".mobject" with
  | error e => exact .inl ⟨e, rfl, rfl⟩
  | ok dir =>
    right
    simp only [if_true]
    cases hmade : files.createAll dir with
    | mk files' made =>
      cases made with
      | error e => exact ⟨dir, files', rfl, .inl ⟨e, hmade, rfl⟩⟩
      | ok u => exact ⟨dir, files', rfl, .inr ⟨hmade, rfl⟩⟩

theorem load_comes (path : Option String) (env : List (String × String)) (files : FileTree) :
    Comes path env files (load path env files) := by
  cases path with
  | none =>
    unfold load
    rcases settleHome_cases fallback env files with
      ⟨e, hhome, hsettle⟩ | ⟨dir, files', hhome, ⟨e, hmade, hsettle⟩ | ⟨hmade, hsettle⟩⟩
    · simp only [hsettle]
      exact .homeless rfl hhome
    · simp only [hsettle]
      exact .unmade rfl hhome hmade
    · simp only [hsettle]
      exact .loaded rfl hhome hmade rfl
  | some path =>
    unfold load
    simp only [loadFile]
    cases hsources : extract path (files.read? path).toOption env with
    | error e => exact .unread hsources
    | ok given =>
      rcases settleHome_cases given env files with
        ⟨e, hhome, hsettle⟩ | ⟨dir, files', hhome, ⟨e, hmade, hsettle⟩ | ⟨hmade, hsettle⟩⟩
      · simp only [hsettle]
        exact .homeless hsources hhome
      · simp only [hsettle]
        exact .unmade hsources hhome hmade
      · simp only [hsettle, validate_settledAt]
        cases hvalid : given.validate with
        | error d => exact .repeated hsources hhome hmade hvalid
        | ok u => exact .loaded hsources hhome hmade hvalid

/-- What is loaded has its home directory where the sources put it, and the directory is there. -/
theorem load_eq_ok {s : Settings} (h : load path env files = (files', .ok s)) :
    ∃ given dir, sources path env files = .ok given ∧ given.home env = .ok dir ∧
      files.createAll dir = (files', .ok ()) ∧ s = given.settledAt dir := by
  have hcomes := load_comes path env files
  rw [h] at hcomes
  cases hcomes with
  | loaded hsources hhome hmade hvalid => exact ⟨_, _, hsources, hhome, hmade, rfl⟩

end Load

/-- What it means that home directories are absolute as far as they are anchored: by being configured, or by the user's
directory. -/
structure AbsoluteIfAnchored (env : List (String × String)) (files : FileTree) : Prop where
  resolved : ∀ configured subdirectory create path,
    (HomeDir.resolve (valueOf? env HomeDir.homeVariable) configured subdirectory create files).2 = .ok path →
      (Path.isAbsolute path.toList = true ↔
        HomeDir.Anchored (valueOf? env HomeDir.homeVariable) configured subdirectory)
  loaded : ∀ path files' s, load path env files = (files', .ok s) → ∃ given,
    sources path env files = .ok given ∧ (Path.isAbsolute s.server.homeDir.toList = true ↔
      HomeDir.Anchored (valueOf? env HomeDir.homeVariable) given.homeGiven? ".mobject")
  /-- Only an absolute path is found again where it is, by whoever looks for it. -/
  again : ∀ path files' s, load path env files = (files', .ok s) → ∀ home subdirectory,
    HomeDir.resolve home (some s.server.homeDir) subdirectory true files' = (files', .ok s.server.homeDir) ↔
      Path.isAbsolute s.server.homeDir.toList = true

theorem homes_absolute_iff (env : List (String × String)) (files : FileTree) : AbsoluteIfAnchored env files where
  resolved configured subdirectory create path h :=
    HomeDir.isAbsolute_of_locate (HomeDir.locate_of_resolve (Prod.ext rfl h)).1
  loaded path files' s h := by
    obtain ⟨given, dir, hsources, hhome, -, rfl⟩ := load_eq_ok h
    exact ⟨given, hsources, HomeDir.isAbsolute_of_locate hhome⟩
  again path files' s h home subdirectory := by
    obtain ⟨given, dir, -, -, hmade, rfl⟩ := load_eq_ok h
    exact HomeDir.resolve_again hmade home subdirectory

/-- With an absolute name for the user's directory the settings load, and their home directory is found again. -/
theorem homes_absolute_iff_home : ∃ files s, load none [("HOME", "/home")] {} = (files, .ok s) ∧
    Path.isAbsolute s.server.homeDir.toList = true ∧
      HomeDir.resolve none (some s.server.homeDir) "" true files = (files, .ok s.server.homeDir) := by
  have hloads : (load none [("HOME", "/home")] {}).2.toOption.isSome = true := by decide +kernel
  obtain ⟨s, hs⟩ := Option.isSome_iff_exists.mp hloads
  have hload : load none [("HOME", "/home")] {} = ((load none [("HOME", "/home")] {}).1, .ok s) :=
    Prod.ext rfl (toOption_eq_some.mp hs)
  obtain ⟨given, hsources, hiff⟩ := (homes_absolute_iff [("HOME", "/home")] {}).loaded none _ s hload
  have habsolute : Path.isAbsolute s.server.homeDir.toList = true := by
    obtain rfl := Except.ok.inj hsources
    exact hiff.mpr (.inr (.inr ⟨"/home", by decide, by decide⟩))
  exact ⟨_, s, hload, habsolute,
    ((homes_absolute_iff [("HOME", "/home")] {}).again none _ s hload none "").mpr habsolute⟩

/-- With an empty name for the user's directory the settings load, and their home directory is not absolute and not
found again. -/
theorem not_absolute_emptyHome :
    (HomeDir.resolve (some "") none ".mobject" false {}).2 = .ok ".mobject" ∧
    ((load none [("HOME", "")] {}).2.toOption.map (·.server.homeDir)) = some ".mobject" ∧
    Path.isAbsolute ".mobject".toList = false ∧
    (HomeDir.resolve (some "") (some ".mobject") ".mobject" true (load none [("HOME", "")] {}).1).2 =
      .error (.notAbsolute ".mobject") := by
  decide +kernel

end Settings

/-- Whether it is the settings that are refused, and not their home directory by the file system. -/
def LoadError.BlamesSettings : LoadError → Prop
  | .home _ (.io _) => False
  | _ => True

namespace Settings

def twiceFiles : FileTree :=
  ⟨[(["mobject.yaml".toList], .file "providers:\n- provider_id: 1\n- provider_id: 1\n")]⟩

def twiceLeft : FileTree :=
  ⟨twiceFiles.entries ++ [(["home".toList], .directory), (["home".toList, ".mobject".toList], .directory)]⟩

def repeated? : Except LoadError Settings → Option UInt16
  | .error (.duplicate d) => some d.id
  | _ => none

theorem eq_of_repeated? {x : Except LoadError Settings} {id : UInt16} (h : repeated? x = some id) :
    x = .error (.duplicate ⟨id⟩) := by
  cases x with
  | ok s => cases h
  | error e =>
    cases e with
    | duplicate d => rw [← Option.some.inj h]
    | _ => cases h

theorem twiceLeft_ne : twiceLeft ≠ twiceFiles := by
  intro h
  have hlength := congrArg (·.entries.length) h
  exact absurd hlength (by decide)

theorem load_twice :
    load (some "/mobject.yaml") [("HOME", "/home")] twiceFiles = (twiceLeft, .error (.duplicate ⟨1⟩)) := by
  obtain ⟨hfiles, hid⟩ :
      (load (some "/mobject.yaml") [("HOME", "/home")] twiceFiles).1.entries = twiceLeft.entries ∧
        repeated? (load (some "/mobject.yaml") [("HOME", "/home")] twiceFiles).2 = some 1 := by
    decide +kernel
  refine Prod.ext ?_ (eq_of_repeated? hid)
  generalize (load (some "/mobject.yaml") [("HOME", "/home")] twiceFiles).1 = files' at hfiles
  cases files'
  exact congrArg FileTree.mk hfiles

/-- Settings that are refused leave everything as it was, unless it is for an id that is given twice and their home
directory was not there before. In any case nothing but directories is new. -/
theorem refused_untouched_iff {path : Option String} {env : List (String × String)} {files files' : FileTree}
    {e : LoadError} (h : load path env files = (files', .error e)) (he : e.BlamesSettings) :
    (files' = files ↔ ∀ d given dir, e = .duplicate d → sources path env files = .ok given →
      given.home env = .ok dir → files.isDirectory dir.toList = true) ∧ files.Grows files' := by
  have hcomes := load_comes path env files
  rw [h] at hcomes
  cases hcomes with
  | unread hsources =>
    have hall : ∀ d given dir, e = .duplicate d → sources path env files = .ok given →
        given.home env = .ok dir → files.isDirectory dir.toList = true := by
      intro d given dir _ hgiven
      cases hsources.symm.trans hgiven
    exact ⟨iff_of_true rfl hall, .refl files⟩
  | homeless hsources hhome =>
    exact ⟨iff_of_true rfl fun d given dir hd => (by cases hd), .refl files⟩
  | unmade hsources hhome hmade => exact he.elim
  | @repeated given dir files' d hsources hhome hmade hvalid =>
    have hne : dir.toList ≠ [] := HomeDir.locate_ne_nil hhome (by decide)
    have hgrows := FileTree.createAll_grows files dir
    rw [hmade] at hgrows
    refine ⟨?_, hgrows⟩
    rw [FileTree.createAll_eq_self_iff hne hmade]
    constructor
    · intro hthere d' given' dir' _ hsources' hhome'
      obtain rfl := Except.ok.inj (hsources.symm.trans hsources')
      obtain rfl := Except.ok.inj (hhome.symm.trans hhome')
      exact hthere
    · intro hall
      exact hall d given dir rfl hsources hhome

/-- Settings that give an id twice are refused with the home directory just made, as it was not there before. -/
theorem refused_untouched_iff_twice :
    load (some "/mobject.yaml") [("HOME", "/home")] twiceFiles = (twiceLeft, .error (.duplicate ⟨1⟩)) ∧
      (∃ given dir, sources (some "/mobject.yaml") [("HOME", "/home")] twiceFiles = .ok given ∧
        given.home [("HOME", "/home")] = .ok dir ∧ twiceFiles.isDirectory dir.toList ≠ true) ∧
      twiceFiles.Grows twiceLeft := by
  obtain ⟨hiff, hgrows⟩ := refused_untouched_iff load_twice trivial
  refine ⟨load_twice, ?_, hgrows⟩
  have hnew := mt hiff.mpr twiceLeft_ne
  push Not at hnew
  obtain ⟨_, given, dir, -, hsources, hhome, hdir⟩ := hnew
  exact ⟨given, dir, hsources, hhome, hdir⟩

/-- Settings that give an id twice are refused when the home directory has been made. -/
theorem not_untouched_twice :
    ∃ e, load (some "/mobject.yaml") [("HOME", "/home")] twiceFiles = (twiceLeft, .error e) ∧
      e.BlamesSettings ∧ twiceLeft ≠ twiceFiles :=
  ⟨_, load_twice, trivial, twiceLeft_ne⟩

end Settings
end SequencerHub

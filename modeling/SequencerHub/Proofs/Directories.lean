import SequencerHub.Files.Tree
import SequencerHub.Proofs.Marks

/-! Making a directory with all that is missing above it. Nothing that was there is lost, nothing but directories is
new, and once the directory is there, making it again changes nothing. -/
namespace SequencerHub
namespace FileTree

/-- Nothing of a tree is gone in another one, and what is new there are directories. -/
def Grows (t t' : FileTree) : Prop :=
  ∃ made, t'.entries = t.entries ++ made ∧ ∀ x ∈ made, x.2 = .directory

variable {t t' t'' : FileTree} {path : List Char} {here names more : List (List Char)}

theorem Grows.refl (t : FileTree) : t.Grows t := ⟨[], (List.append_nil _).symm, List.forall_mem_nil _⟩

theorem Grows.trans (h : t.Grows t') (h' : t'.Grows t'') : t.Grows t'' := by
  obtain ⟨made, hmade, hdir⟩ := h
  obtain ⟨made', hmade', hdir'⟩ := h'
  refine ⟨made ++ made', ?_, ?_⟩
  · rw [hmade', hmade, List.append_assoc]
  · intro x hx
    rcases List.mem_append.mp hx with hx | hx
    · exact hdir x hx
    · exact hdir' x hx

/-- What there is stays what it is. -/
theorem Grows.keeps (h : t.Grows t') {e : FileEntry} (he : t.entry? names = some e) :
    FileTree.entry? t' names = some e := by
  obtain ⟨made, hmade, -⟩ := h
  unfold FileTree.entry? at he ⊢
  by_cases hn : names.isEmpty = true
  · rw [if_pos hn] at he ⊢
    exact he
  · rw [if_neg hn] at he ⊢
    obtain ⟨x, hx, rfl⟩ := Option.map_eq_some_iff.mp he
    rw [hmade, List.find?_append, hx]
    rfl

/-- Names that lead somewhere still lead there, as long as directories stay directories. -/
theorem walk_of_directories (h : ∀ {n : List (List Char)}, t.entry? n = some .directory →
    FileTree.entry? t' n = some .directory) (hw : t.walk here more = .ok names) : t'.walk here more = .ok names := by
  induction more generalizing here with
  | nil => exact hw
  | cons name more ih =>
    unfold FileTree.walk at hw ⊢
    cases hhere : t.entry? here with
    | none => simp [hhere] at hw
    | some e =>
      cases e with
      | file text => simp [hhere] at hw
      | directory =>
        rw [h hhere]
        simp only [hhere] at hw ⊢
        by_cases hdot : name = ['.']
        · rw [if_pos hdot] at hw ⊢
          exact ih hw
        · by_cases hup : name = ['.', '.']
          · rw [if_neg hdot, if_pos hup] at hw ⊢
            exact ih hw
          · rw [if_neg hdot, if_neg hup] at hw ⊢
            by_cases hlong : isTooLong name = true
            · simp [hlong] at hw
            · rw [if_neg hlong] at hw ⊢
              exact ih hw

theorem Grows.walk (h : t.Grows t') (hw : t.walk here more = .ok names) : t'.walk here more = .ok names :=
  walk_of_directories h.keeps hw

theorem walk_append (t : FileTree) (here names more : List (List Char)) :
    t.walk here (names ++ more) = t.walk here names >>= fun there => t.walk there more := by
  induction names generalizing here with
  | nil => rfl
  | cons name names ih =>
    rw [List.cons_append, FileTree.walk, FileTree.walk]
    split
    · rfl
    · rfl
    · split_ifs
      · exact ih here
      · exact ih here.dropLast
      · rfl
      · exact ih (here ++ [name])

theorem isDirectory_iff : t.isDirectory path = true ↔ checkPath path = .ok () ∧
    ∃ names, t.walk [] (Path.steps path) = .ok names ∧ t.entry? names = some .directory := by
  unfold isDirectory stat
  cases hc : checkPath path with
  | error e => simp [bind, Except.bind]
  | ok u =>
    cases hw : t.walk [] (Path.steps path) with
    | error e => simp [bind, Except.bind]
    | ok names =>
      simp only [bind, Except.bind, true_and, Except.ok.injEq, exists_eq_left']
      cases he : t.entry? names with
      | none => simp
      | some e =>
        cases e with
        | directory => simp
        | file text => by_cases hslash : path.getLast? = some '/' <;> simp [hslash]

structure Makes (t : FileTree) (path : List Char) (above : List (List Char)) (last : List Char) : Prop where
  checked : checkPath path = .ok ()
  leads : ∃ before, Path.steps path = before ++ [last] ∧ t.walk [] before = .ok above
  directory : t.entry? above = some .directory
  named : last ≠ ['.'] ∧ last ≠ ['.', '.'] ∧ isTooLong last = false
  missing : t.entry? (above ++ [last]) = none

theorem makeDirectory_eq_ok (h : t.makeDirectory path = .ok t') :
    ∃ above last, t.Makes path above last ∧ t' = t.put (above ++ [last]) .directory := by
  unfold makeDirectory at h
  cases hc : checkPath path with
  | error e => simp [hc, bind, Except.bind] at h
  | ok u =>
    simp only [hc, ok_bind] at h
    cases hlast : (Path.steps path).getLast? with
    | none => simp [hlast] at h
    | some last =>
      have hsteps : Path.steps path = (Path.steps path).dropLast ++ [last] :=
        (List.dropLast_append_getLast? last hlast).symm
      cases hw : t.walk [] (Path.steps path).dropLast with
      | error e => simp [hlast, hw, bind, Except.bind] at h
      | ok above =>
        simp only [hlast, hw, ok_bind] at h
        cases hdir : t.entry? above with
        | none => simp [hdir] at h
        | some e =>
          cases e with
          | file text => simp [hdir] at h
          | directory =>
            simp only [hdir] at h
            split_ifs at h with hdots hlong
            obtain ⟨hdot, hup⟩ := not_or.mp hdots
            cases hnone : t.entry? (above ++ [last]) with
            | some e => simp [hnone] at h
            | none =>
              simp only [hnone] at h
              exact ⟨above, last, ⟨hc, ⟨_, hsteps, hw⟩, hdir, ⟨hdot, hup, by simpa using hlong⟩, hnone⟩,
                (Except.ok.inj h).symm⟩

theorem grows_put (h : t.entry? names = none) : t.Grows (t.put names .directory) := by
  have hne : names.isEmpty = false := by
    cases names with
    | nil => cases h
    | cons name names => rfl
  unfold FileTree.entry? at h
  rw [hne, if_neg Bool.false_ne_true, Option.map_eq_none_iff, List.find?_eq_none] at h
  have hkept : (t.entries.filter fun x => x.1 ≠ names) = t.entries :=
    List.filter_eq_self.mpr fun x hx => by simpa using h x hx
  refine ⟨[(names, .directory)], ?_, by simp⟩
  rw [put, hkept]

theorem entry?_put_self (t : FileTree) (names : List (List Char)) :
    FileTree.entry? (t.put names .directory) names = some .directory := by
  unfold FileTree.entry? put
  split_ifs
  · rfl
  · have hnone : (t.entries.filter fun x => x.1 ≠ names).find? (·.1 = names) = none :=
      List.find?_eq_none.mpr fun x hx => by simpa using (List.mem_filter.mp hx).2
    rw [List.find?_append, hnone]
    simp

theorem makeDirectory_grows (h : t.makeDirectory path = .ok t') : t.Grows t' := by
  obtain ⟨above, last, hmakes, rfl⟩ := makeDirectory_eq_ok h
  exact grows_put hmakes.missing

theorem walk_last {before : List (List Char)} {last : List Char} (hw : t.walk here before = .ok names)
    (hdir : t.entry? names = some .directory) (hdot : last ≠ ['.']) (hup : last ≠ ['.', '.'])
    (hlong : isTooLong last = false) : t.walk here (before ++ [last]) = .ok (names ++ [last]) := by
  rw [walk_append, hw, ok_bind, FileTree.walk, hdir]
  simp only
  rw [if_neg hdot, if_neg hup, hlong, if_neg Bool.false_ne_true]
  rfl

theorem isDirectory_of_makeDirectory (h : t.makeDirectory path = .ok t') : t'.isDirectory path = true := by
  obtain ⟨above, last, hmakes, rfl⟩ := makeDirectory_eq_ok h
  obtain ⟨before, hsteps, hw⟩ := hmakes.leads
  obtain ⟨hdot, hup, hlong⟩ := hmakes.named
  have hgrows : t.Grows (t.put (above ++ [last]) .directory) := grows_put hmakes.missing
  refine isDirectory_iff.mpr ⟨hmakes.checked, above ++ [last], ?_, entry?_put_self t _⟩
  rw [hsteps]
  exact walk_last (hgrows.walk hw) (hgrows.keeps hmakes.directory) hdot hup hlong

/-- A directory that is there is not made once more, and not for want of one above it. -/
theorem makeDirectory_of_isDirectory (h : t.isDirectory path = true) (hne : path ≠ []) :
    t.makeDirectory path = .error .exists := by
  obtain ⟨hc, names, hw, hdir⟩ := isDirectory_iff.mp h
  unfold makeDirectory
  simp only [hc, ok_bind]
  cases hlast : (Path.steps path).getLast? with
  | none => simp [hne]
  | some last =>
    rw [← List.dropLast_append_getLast? last hlast, walk_append] at hw
    cases habove : t.walk [] (Path.steps path).dropLast with
    | error e => simp [habove, bind, Except.bind] at hw
    | ok above =>
      simp only [habove, ok_bind, FileTree.walk] at hw ⊢
      cases hentry : t.entry? above with
      | none => simp [hentry] at hw
      | some e =>
        cases e with
        | file text => simp [hentry] at hw
        | directory =>
          simp only [hentry] at hw ⊢
          by_cases hdots : last = ['.'] ∨ last = ['.', '.']
          · rw [if_pos hdots]
          · obtain ⟨hdot, hup⟩ := not_or.mp hdots
            rw [if_neg hdot, if_neg hup] at hw
            rw [if_neg hdots]
            by_cases hlong : isTooLong last = true
            · simp [hlong] at hw
            · rw [if_neg hlong] at hw ⊢
              rw [Except.ok.inj hw, hdir]

/-- Whatever comes of it, a tree only grows. -/
theorem makeDirectories_grows (fuel : Nat) (t : FileTree) (path : List Char) :
    t.Grows (makeDirectories fuel t path).1 := by
  fun_induction makeDirectories fuel t path with
  | case1 t path => exact Grows.refl t
  | case2 fuel t path hempty => exact Grows.refl t
  | case3 fuel t path hempty t' hmade => exact makeDirectory_grows hmade
  | case4 fuel t path hempty hmissing hparent => exact Grows.refl t
  | case5 fuel t path hempty hmissing above hparent t' e habove ih =>
    rw [habove] at ih
    exact ih
  | case6 fuel t path hempty hmissing above hparent t' habove t'' hmade ih =>
    rw [habove] at ih
    exact ih.trans (makeDirectory_grows hmade)
  | case7 fuel t path hempty hmissing above hparent t' habove e hmade ih =>
    rw [habove] at ih
    exact ih
  | case8 fuel t path hempty e hother hmade => exact Grows.refl t

theorem isDirectory_of_makeDirectories (fuel : Nat) (t : FileTree) (path : List Char) (hne : path ≠ [])
    (h : (makeDirectories fuel t path).2 = .ok ()) : (makeDirectories fuel t path).1.isDirectory path = true := by
  fun_induction makeDirectories fuel t path with
  | case1 t path => cases h
  | case2 fuel t path hempty => exact absurd (List.isEmpty_iff.mp hempty) hne
  | case3 fuel t path hempty t' hmade => exact isDirectory_of_makeDirectory hmade
  | case4 fuel t path hempty hmissing hparent => cases h
  | case5 fuel t path hempty hmissing above hparent t' e habove => cases h
  | case6 fuel t path hempty hmissing above hparent t' habove t'' hmade =>
    exact isDirectory_of_makeDirectory hmade
  | case7 fuel t path hempty hmissing above hparent t' habove e hmade =>
    by_contra hnot
    rw [if_neg hnot] at h
    cases h
  | case8 fuel t path hempty e hother hmade =>
    by_contra hnot
    rw [if_neg hnot] at h
    cases h

theorem makeDirectories_of_isDirectory (fuel : Nat) (hne : path ≠ []) (h : t.isDirectory path = true) :
    makeDirectories (fuel + 1) t path = (t, .ok ()) := by
  have hempty : ¬ path.isEmpty = true := fun he => hne (List.isEmpty_iff.mp he)
  rw [makeDirectories, if_neg hempty, makeDirectory_of_isDirectory h hne]
  simp only
  rw [if_pos h]

section Create

variable {path : String}

theorem createAll_grows (t : FileTree) (path : String) : t.Grows (t.createAll path).1 :=
  makeDirectories_grows _ t _

theorem createAll_of_isDirectory (hne : path.toList ≠ []) (h : t.isDirectory path.toList = true) :
    t.createAll path = (t, .ok ()) :=
  makeDirectories_of_isDirectory path.length hne h

theorem isDirectory_of_createAll (hne : path.toList ≠ []) (h : (t.createAll path).2 = .ok ()) :
    (t.createAll path).1.isDirectory path.toList = true :=
  isDirectory_of_makeDirectories _ t _ hne h

theorem createAll_again (hne : path.toList ≠ []) (h : t.createAll path = (t', .ok ())) :
    t'.createAll path = (t', .ok ()) := by
  have hthere := isDirectory_of_createAll hne (congrArg Prod.snd h)
  rw [h] at hthere
  exact createAll_of_isDirectory hne hthere

/-- Making a directory leaves everything as it was if and only if the directory was there. -/
theorem createAll_eq_self_iff (hne : path.toList ≠ []) (h : t.createAll path = (t', .ok ())) :
    t' = t ↔ t.isDirectory path.toList = true := by
  constructor
  · rintro rfl
    have hthere := isDirectory_of_createAll hne (congrArg Prod.snd h)
    rwa [h] at hthere
  · intro hthere
    rw [createAll_of_isDirectory hne hthere] at h
    exact (congrArg Prod.fst h).symm

end Create
end FileTree
end SequencerHub

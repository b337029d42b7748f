import Mathlib.Data.Bool.AllAny
import Mathlib.Data.List.TakeWhile
import Mathlib.Tactic
import SequencerHub.Yaml.Lexer
import SequencerHub.Yaml.Printer

/-! Walking over text that is known. What is ahead of a cursor is some text and then more of it, and passing over the
text moves the cursor on by so many characters or by a line. -/
namespace SequencerHub.Yaml

namespace Mark

def onward (m : Mark) (n : Nat) : Mark := ⟨m.line, m.column + n, m.index + n⟩

def down (m : Mark) : Mark := ⟨m.line + 1, 0, m.index + 1⟩

@[simp] theorem onward_zero (m : Mark) : m.onward 0 = m := rfl

@[simp] theorem onward_onward (m : Mark) (i j : Nat) : (m.onward i).onward j = m.onward (i + j) := by
  simp [onward, Nat.add_assoc]

@[simp] theorem onward_line (m : Mark) (n : Nat) : (m.onward n).line = m.line := rfl

@[simp] theorem onward_column (m : Mark) (n : Nat) : (m.onward n).column = m.column + n := rfl

@[simp] theorem onward_index (m : Mark) (n : Nat) : (m.onward n).index = m.index + n := rfl

@[simp] theorem down_line (m : Mark) : m.down.line = m.line + 1 := rfl

@[simp] theorem down_column (m : Mark) : m.down.column = 0 := rfl

def past (m : Mark) (cs : List Char) : Mark := cs.foldl (fun m c => if isBreak c then m.down else m.onward 1) m

@[simp] theorem past_nil (m : Mark) : m.past [] = m := rfl

@[simp] theorem past_append (m : Mark) (cs ds : List Char) : m.past (cs ++ ds) = (m.past cs).past ds :=
  List.foldl_append

theorem past_break {c : Char} (h : isBreak c = true) (m : Mark) (cs : List Char) :
    m.past (c :: cs) = m.down.past cs := by simp [past, h]

theorem past_letter {c : Char} (h : isBreak c = false) (m : Mark) (cs : List Char) :
    m.past (c :: cs) = (m.onward 1).past cs := by simp [past, h]

theorem past_line {cs : List Char} (h : ∀ c ∈ cs, isBreak c = false) (m : Mark) : m.past cs = m.onward cs.length := by
  induction cs generalizing m with
  | nil => rfl
  | cons c cs ih =>
    rw [past_letter (h c List.mem_cons_self), ih fun d hd => h d (List.mem_cons_of_mem _ hd), onward_onward,
      List.length_cons, Nat.add_comm 1]

@[simp] theorem past_blanks (m : Mark) (n : Nat) : m.past (blanks n) = m.onward n := by
  have hline : ∀ c ∈ blanks n, isBreak c = false := fun c hc => by
    rw [List.eq_of_mem_replicate hc]
    rfl
  rw [past_line hline, blanks, List.length_replicate]

theorem line_le_past (m : Mark) (cs : List Char) : m.line ≤ (m.past cs).line := by
  induction cs generalizing m with
  | nil => exact Nat.le_refl _
  | cons c cs ih =>
    cases h : isBreak c with
    | true => exact (past_break h m cs).symm ▸ Nat.le_trans (Nat.le_succ _) (ih m.down)
    | false => exact (past_letter h m cs).symm ▸ ih (m.onward 1)

end Mark

section Characters

variable {c : Char}

theorem break_cases (hp : isPrintable c = true) (hb : isBreak c = true) : c = '\n' ∨ c = '\u2028' ∨ c = '\u2029' := by
  simp only [isBreak, Bool.or_eq_true, beq_iff_eq, or_assoc] at hb
  obtain rfl | rfl | rfl | rfl | rfl := hb
  · exact .inl rfl
  · exact absurd hp (by decide)
  · exact absurd hp (by decide)
  · exact .inr (.inl rfl)
  · exact .inr (.inr rfl)

theorem isBlank_eq_isSpace (hp : isPrintable c = true) : isBlank c = isSpace c := by
  have htab : c ≠ '\t' := by
    rintro rfl
    exact absurd hp (by decide)
  simp [isBlank, isSpace, htab]

theorem not_isBreak_of_isBlank (hb : isBlank c = true) : isBreak c = false := by
  simp only [isBlank, Bool.or_eq_true, beq_iff_eq] at hb
  obtain rfl | rfl := hb <;> decide

theorem isAllowed_of_isPrintable (hp : isPrintable c = true) : isAllowed c = true := by
  simp only [isPrintable, isAllowed, Bool.or_eq_true, Bool.and_eq_true, beq_iff_eq, decide_eq_true_eq] at hp ⊢
  have hlow : 0xe000 ≤ c.toNat → '\xa0' ≤ c := fun h => Nat.le_trans (by decide) h
  grind

end Characters

namespace Cursor

variable {m : Mark} {cs tail : List Char} {p : Char → Bool}

@[simp] theorem peek?_mk : (⟨cs, m⟩ : Cursor).peek? = cs.head? := rfl

@[simp] theorem column_mk : (⟨cs, m⟩ : Cursor).column = m.column := rfl

@[simp] theorem skip_cons (c : Char) : skip ⟨c :: cs, m⟩ = ⟨cs, m.onward 1⟩ := rfl

@[simp] theorem startsWith_mk (c : Char) : (⟨cs, m⟩ : Cursor).startsWith c = (cs.head? == some c) := rfl

theorem skipWhile_append (h : ∀ c ∈ cs, p c = true) (fuel : Nat) (m : Mark) :
    skipWhile p (cs.length + fuel) ⟨cs ++ tail, m⟩ = skipWhile p fuel ⟨tail, m.onward cs.length⟩ := by
  induction cs generalizing m with
  | nil => simp
  | cons c cs ih =>
    have hc : p c = true := h c List.mem_cons_self
    have hlen : (c :: cs).length + fuel = cs.length + fuel + 1 := by rw [List.length_cons]; omega
    rw [hlen, List.cons_append, skipWhile, peek?_mk, List.head?_cons, Option.any_some, hc, if_pos rfl, skip_cons,
      ih fun c hc => h c (List.mem_cons_of_mem _ hc), Mark.onward_onward, List.length_cons, Nat.add_comm 1]

theorem skipWhile_stop (h : tail.head?.any p = false) (fuel : Nat) (m : Mark) :
    skipWhile p fuel ⟨tail, m⟩ = ⟨tail, m⟩ := by
  cases fuel with
  | zero => rfl
  | succ fuel => rw [skipWhile, peek?_mk, h, if_neg (by decide)]

theorem skipWhile_all (h : ∀ c ∈ cs, p c = true) (hstop : tail.head?.any p = false) {fuel : Nat}
    (hf : cs.length ≤ fuel) (m : Mark) : skipWhile p fuel ⟨cs ++ tail, m⟩ = ⟨tail, m.onward cs.length⟩ := by
  obtain ⟨more, rfl⟩ := Nat.exists_eq_add_of_le hf
  rw [skipWhile_append h, skipWhile_stop hstop]

theorem skipLine_break {c : Char} (hp : isPrintable c = true) (hb : isBreak c = true) :
    skipLine ⟨c :: tail, m⟩ = ⟨tail, m.down⟩ := by
  obtain rfl | rfl | rfl := break_cases hp hb <;> rfl

theorem breakText_break {c : Char} (hp : isPrintable c = true) (hb : isBreak c = true) :
    breakText ⟨c :: tail, m⟩ = [c] := by
  obtain rfl | rfl | rfl := break_cases hp hb <;> rfl

theorem atDocumentMarker_of_column (h : 0 < m.column) : (⟨cs, m⟩ : Cursor).atDocumentMarker = false := by
  have hne : ¬ m.column = 0 := by omega
  simp [atDocumentMarker, hne]

end Cursor

/-- A text is a word, or a word and a gap and a text behind it that does not go on with the gap. -/
theorem gaps_induction (sep : Char → Bool) {P : List Char → Prop} (word : ∀ w, (∀ c ∈ w, sep c = false) → P w)
    (gap : ∀ w g rest, (∀ c ∈ w, sep c = false) → g ≠ [] → (∀ c ∈ g, sep c = true) → rest.head?.any sep = false →
      P rest → P (w ++ (g ++ rest))) (cs : List Char) : P cs := by
  induction hn : cs.length using Nat.strong_induction_on generalizing cs with
  | _ n ih =>
    subst hn
    let w := cs.takeWhile fun c => !sep c
    let after := cs.dropWhile fun c => !sep c
    have hw : ∀ c ∈ w, sep c = false := fun c hc => by simpa using List.mem_takeWhile_imp hc
    have hcs : cs = w ++ after := List.takeWhile_append_dropWhile.symm
    cases ha : after with
    | nil =>
      rw [hcs, ha, List.append_nil]
      exact word w hw
    | cons c more =>
      have hc : sep c = true := by
        have hhead := List.head?_dropWhile_not (fun c => !sep c) cs
        rw [show cs.dropWhile (fun c => !sep c) = c :: more from ha] at hhead
        simpa using hhead
      let g := after.takeWhile sep
      let rest := after.dropWhile sep
      have hsplit : after = g ++ rest := List.takeWhile_append_dropWhile.symm
      have hg : g ≠ [] := by simp [g, ha, hc]
      have hrest : rest.head?.any sep = false := by
        have hhead := List.head?_dropWhile_not sep after
        cases hr : rest with
        | nil => rfl
        | cons d more =>
          rw [show after.dropWhile sep = d :: more from hr] at hhead
          simpa using hhead
      have hlen : rest.length < cs.length := by
        have hpos := List.length_pos_iff.mpr hg
        rw [hcs, hsplit, List.length_append, List.length_append]
        omega
      rw [hcs, hsplit]
      exact gap w g rest hw hg (fun c hc => List.mem_takeWhile_imp hc) hrest (ih _ hlen rest rfl)

end SequencerHub.Yaml

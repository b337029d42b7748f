import SequencerHub.Proofs.Spellings

/-! Texts of several lines are read back from literal blocks. A block consists of lines and of the breaks behind each;
signs in front of it say how far it is indented and what becomes of its last breaks. -/
namespace SequencerHub.Yaml

section EmptyLines

variable {known : Option Nat} {k : Nat} {s : List Char} {m : Mark}

/-- Where a line starts behind so many blanks: all that belong to the indentation, or all there are. -/
structure StartsBehind (known : Option Nat) (k : Nat) (s : List Char) : Prop where
  within : known.all (k ≤ ·) = true
  exact : known = some k ∨ s.head? ≠ some ' '
  tab : s.head? ≠ some '\t'
  line : s.head?.any isBreak = false

theorem StartsBehind.of_head {s' : List Char} (h : StartsBehind known k s) (heq : s'.head? = s.head?) :
    StartsBehind known k s' :=
  ⟨h.within, heq ▸ h.exact, heq ▸ h.tab, heq ▸ h.line⟩

theorem StartsBehind.append (h : StartsBehind known k s) (hne : s ≠ []) (tail : List Char) :
    StartsBehind known k (s ++ tail) :=
  h.of_head (List.head?_append_of_ne_nil _ hne)

theorem StartsBehind.skipWhile (h : StartsBehind known k s) (m : Mark) :
    Cursor.skipWhile (fun c => c == ' ') (known.getD (blanks k ++ s).length) ⟨blanks k ++ s, m⟩ = ⟨s, m.onward k⟩ := by
  have hblanks : ∀ c ∈ blanks k, (c == ' ') = true := fun c hc => by
    rw [List.eq_of_mem_replicate hc]
    rfl
  have hlen : (blanks k).length = k := List.length_replicate
  obtain hk | hspace := h.exact
  · subst hk
    have hskip : Cursor.skipWhile (fun c => c == ' ') (blanks k).length ⟨blanks k ++ s, m⟩ =
        ⟨s, m.onward (blanks k).length⟩ := Cursor.skipWhile_append hblanks 0 m
    rwa [hlen] at hskip
  · have hstop : s.head?.any (fun c => c == ' ') = false := by
      cases s with
      | nil => rfl
      | cons c s => simpa using hspace
    refine (Cursor.skipWhile_all hblanks hstop ?_ m).trans (by rw [hlen])
    cases known with
    | none => simp
    | some n => simpa [hlen] using h.within

theorem scanEmptyLines_stop (h : StartsBehind known k s) (hm : m.column = 0) (fuel : Nat) (acc : List Char)
    (deepest : Nat) : scanEmptyLines known (fuel + 1) acc deepest ⟨blanks k ++ s, m⟩ =
      .ok ((acc, max deepest k), ⟨s, m.onward k⟩) := by
  have htab : (⟨s, m.onward k⟩ : Cursor).startsWith '\t' = false := beq_eq_false_iff_ne.mpr h.tab
  have hskip := h.skipWhile m
  cases known with
  | none =>
    simp only [Option.getD_none] at hskip
    rw [scanEmptyLines]
    simp only [hskip, htab]
    simp [h.line, hm]
  | some n =>
    simp only [Option.getD_some] at hskip
    rw [scanEmptyLines]
    simp only [Cursor.column_mk, hm, Nat.sub_zero, hskip, htab]
    simp [h.line, hm]

theorem scanEmptyLines_breaks {n : Nat} {g : List Char} (hg : ∀ c ∈ g, isPrintable c = true ∧ isBreak c = true)
    (h : StartsBehind (some n) k s) (hm : m.column = 0) (fuel : Nat) (acc : List Char) (deepest : Nat) :
    ∃ d, scanEmptyLines (some n) (g.length + fuel + 1) acc deepest ⟨g ++ (blanks k ++ s), m⟩ =
      .ok ((acc ++ g, d), ⟨s, (m.past g).onward k⟩) := by
  induction g generalizing acc deepest m with
  | nil => exact ⟨_, by simpa using scanEmptyLines_stop h hm fuel acc deepest⟩
  | cons c g ih =>
    obtain ⟨hp, hb⟩ := hg c List.mem_cons_self
    have hne : ∀ d : Char, isBreak d = false → (c == d) = false := by
      intro d hd
      refine beq_eq_false_iff_ne.mpr ?_
      rintro rfl
      exact absurd hb (by rw [hd]; decide)
    have hstop : (c :: (g ++ (blanks k ++ s))).head?.any (fun c => c == ' ') = false := hne ' ' rfl
    have hskip := Cursor.skipWhile_stop hstop n m
    obtain ⟨d, hd⟩ := ih (fun d hd => hg d (List.mem_cons_of_mem _ hd)) (m := m.down) rfl (acc ++ [c]) (max deepest 0)
    refine ⟨d, ?_⟩
    rw [List.length_cons, Nat.add_right_comm g.length, List.cons_append, scanEmptyLines]
    simp only [Cursor.column_mk, hm, Nat.sub_zero, hskip]
    simp only [Cursor.startsWith_mk, List.head?_cons, Option.some_beq_some, hne '\t' rfl, Cursor.peek?_mk,
      Option.any_some, hb, Cursor.breakText_break hp hb, Cursor.skipLine_break hp hb]
    rw [Mark.past_break hb]
    simpa using hd

end EmptyLines

section Lines

def Chomp.finish : Chomp → List Char → List Char → List Char → List Char
  | strip, text, _, _ => text
  | clip, text, lead, _ => text ++ lead
  | keep, text, lead, empties => text ++ lead ++ empties

theorem Chomp.append_finish (chomp : Chomp) (before text lead empties : List Char) :
    chomp.finish (before ++ text) lead empties = before ++ chomp.finish text lead empties := by
  cases chomp <;> simp [finish]

/-- The lines of a block from the first one that is not empty, and the text that they stand for. -/
inductive Lines (indent : Nat) (chomp : Chomp) : List Char → List Char → Prop
  | last {w g : List Char} {b : Char} (hw : ∀ c ∈ w, isBreak c = false)
      (hg : ∀ c ∈ b :: g, isPrintable c = true ∧ isBreak c = true) :
      Lines indent chomp (w ++ b :: g) (chomp.finish w [b] g)
  | more {w g s cs : List Char} {b : Char} (hw : ∀ c ∈ w, isBreak c = false)
      (hg : ∀ c ∈ b :: g, isPrintable c = true ∧ isBreak c = true) (hs : StartsBehind (some indent) indent s)
      (h : Lines indent chomp s cs) :
      Lines indent chomp (w ++ b :: (g ++ (blanks indent ++ s))) (w ++ b :: (g ++ cs))

variable {indent : Nat} {chomp : Chomp} {w s cs rest : List Char} {acc lead empties : List Char} {blankBefore : Bool}
  {m : Mark}

theorem scanBlockLines_line {b : Char} {g : List Char} {k : Nat} (hw : ∀ c ∈ w, isBreak c = false)
    (hg : ∀ c ∈ b :: g, isPrintable c = true ∧ isBreak c = true) (hs : StartsBehind (some indent) k s)
    (hm : m.column = indent) (fuel : Nat) (acc lead empties : List Char) (blankBefore : Bool) : ∃ blankHere,
      scanBlockLines true indent (fuel + 1) acc lead empties blankBefore ⟨w ++ b :: (g ++ (blanks k ++ s)), m⟩ =
        scanBlockLines true indent fuel (acc ++ lead ++ empties ++ w) [b] g blankHere
          ⟨s, (m.past (w ++ b :: g)).onward k⟩ := by
  obtain ⟨⟨hp, hb⟩, hg⟩ := List.forall_mem_cons.mp hg
  generalize hmore : g ++ (blanks k ++ s) = more
  have hend : (⟨w ++ b :: more, m⟩ : Cursor).atEnd = false := by simp [Cursor.atEnd]
  have hline : (⟨w ++ b :: more, m⟩ : Cursor).skipToBreak = ⟨b :: more, m.onward w.length⟩ :=
    Cursor.skipWhile_all (fun c hc => by rw [hw c hc]; rfl) (by simp [hb]) (by simp) m
  have htake : (w ++ b :: more).take ((w ++ b :: more).length - (b :: more).length) = w := by simp
  have hempties : ∃ d, scanEmptyLines (some indent) (more.length + 1) [] 0 ⟨more, (m.onward w.length).down⟩ =
      .ok ((g, d), ⟨s, ((m.onward w.length).down.past g).onward k⟩) := by
    have hlen : more.length + 1 = g.length + (blanks k ++ s).length + 1 := by rw [← hmore, List.length_append]
    obtain ⟨d, hd⟩ := scanEmptyLines_breaks hg hs (m := (m.onward w.length).down) rfl (blanks k ++ s).length [] 0
    exact ⟨d, by rw [hlen, ← hmore, hd, List.nil_append]⟩
  obtain ⟨d, hempties⟩ := hempties
  refine ⟨(⟨w ++ b :: more, m⟩ : Cursor).isBlankAt 0, ?_⟩
  rw [scanBlockLines, if_neg (by simp [hm, hend])]
  simp only [hline, htake, Cursor.breakText_break hp hb, Cursor.skipLine_break hp hb, hempties, ok_bind]
  rw [Mark.past_append, Mark.past_line hw, Mark.past_break hb]
  rfl

theorem scanBlockLines_stop (h : m.column ≠ indent) (fuel : Nat) :
    scanBlockLines true indent fuel acc lead empties blankBefore ⟨s, m⟩ = .ok ((acc, lead, empties), ⟨s, m⟩) := by
  cases fuel with
  | zero => rfl
  | succ fuel => simp [scanBlockLines, h]

theorem column_past_breaks {g : List Char} (hg : ∀ c ∈ g, isPrintable c = true ∧ isBreak c = true)
    (hm : m.column = 0) : (m.past g).column = 0 := by
  induction g generalizing m with
  | nil => exact hm
  | cons c g ih =>
    rw [Mark.past_break (hg c List.mem_cons_self).2]
    exact ih (fun d hd => hg d (List.mem_cons_of_mem _ hd)) rfl

theorem column_behind {b : Char} {g : List Char} (hg : ∀ c ∈ b :: g, isPrintable c = true ∧ isBreak c = true)
    (w : List Char) (m : Mark) : (m.past (w ++ b :: g)).column = 0 := by
  rw [Mark.past_append, Mark.past_break (hg b List.mem_cons_self).2]
  exact column_past_breaks (fun c hc => hg c (List.mem_cons_of_mem _ hc)) rfl

theorem Lines.ne_nil (h : Lines indent chomp s cs) : s ≠ [] := by
  cases h <;> simp

/-- The lines of a block are read up to a line that is indented less. -/
theorem Lines.scan (h : Lines indent chomp s cs) {col : Nat} (hcol : col < indent)
    (hrest : StartsBehind (some indent) col rest) (hm : m.column = indent) {fuel : Nat} (hf : s.length ≤ fuel)
    (acc lead empties : List Char) (blankBefore : Bool) : ∃ text lead' empties',
      scanBlockLines true indent fuel acc lead empties blankBefore ⟨s ++ (blanks col ++ rest), m⟩ =
        .ok ((text, lead', empties'), ⟨rest, (m.past s).onward col⟩) ∧
      chomp.finish text lead' empties' = acc ++ lead ++ empties ++ cs := by
  induction h generalizing acc lead empties blankBefore m fuel with
  | @last w g b hw hg =>
    obtain ⟨fuel, rfl⟩ : ∃ n, fuel = n + 1 := Nat.exists_eq_add_one_of_ne_zero (by simp at hf; omega)
    obtain ⟨blankHere, hstep⟩ := scanBlockLines_line hw hg hrest hm fuel acc lead empties blankBefore
    have hcolumn : ((m.past (w ++ b :: g)).onward col).column ≠ indent := by
      rw [Mark.onward_column, column_behind hg]
      omega
    rw [List.append_assoc, List.cons_append, hstep, scanBlockLines_stop hcolumn]
    exact ⟨_, _, _, rfl, chomp.append_finish _ _ _ _⟩
  | @more w g s cs b hw hg hs h ih =>
    obtain ⟨fuel, rfl⟩ : ∃ n, fuel = n + 1 := Nat.exists_eq_add_one_of_ne_zero (by simp at hf; omega)
    have hlonger : s.length ≤ fuel := by
      simp only [List.length_append, List.length_cons] at hf
      omega
    have hs' := hs.append h.ne_nil (blanks col ++ rest)
    obtain ⟨blankHere, hstep⟩ := scanBlockLines_line hw hg hs' hm fuel acc lead empties blankBefore
    have hcolumn : ((m.past (w ++ b :: g)).onward indent).column = indent := by
      rw [Mark.onward_column, column_behind hg, Nat.zero_add]
    obtain ⟨text, lead', empties', hscan, htext⟩ := ih hcolumn hlonger (acc ++ lead ++ empties ++ w) [b] g blankHere
    refine ⟨text, lead', empties', ?_, by rw [htext]; simp⟩
    have hpast : m.past (w ++ b :: (g ++ (blanks indent ++ s))) = ((m.past (w ++ b :: g)).onward indent).past s := by
      rw [← Mark.past_blanks, ← Mark.past_append, ← Mark.past_append]
      simp
    rw [hpast, ← hscan, ← hstep]
    simp

end Lines

section Block

def Chomp.sign : Chomp → List Char
  | strip => ['-']
  | clip => []
  | keep => ['+']

/-- The signs behind the bar. The indentation is told where it does not show. -/
def signs (told : Bool) (chomp : Chomp) : List Char := (if told then ['2'] else []) ++ chomp.sign

variable {told : Bool} {chomp : Chomp} {n col : Nat} {g s cs rest content : List Char} {m : Mark}

theorem scanBlockHeader_signs (told : Bool) (chomp : Chomp) (content : List Char) (m : Mark) :
    scanBlockHeader ⟨signs told chomp ++ '\n' :: content, m⟩ =
      .ok ((chomp, if told then some 2 else none), ⟨'\n' :: content, m.onward (signs told chomp).length⟩) := by
  cases told <;> cases chomp <;> rfl

theorem scanBlock_signs (told : Bool) (chomp : Chomp) (n : Nat) (content : List Char) (m : Mark) :
    scanBlock true (some n) ⟨signs told chomp ++ '\n' :: content, m⟩ = (do
      let known := if told then some (n + 2) else none
      let ((empties, deepest), c) ← scanEmptyLines known (content.length + 1) [] 0
        ⟨content, (m.onward (signs told chomp).length).down⟩
      let ((text, lead, empties), c) ← scanBlockLines true (known.getD (max (max deepest (n + 1)) 1))
        (c.rest.length + 1) [] [] empties false c
      .ok (chomp.finish text lead empties, c)) := by
  rw [scanBlock, scanBlockHeader_signs]
  cases told <;> cases chomp <;> rfl

theorem past_signs (told : Bool) (chomp : Chomp) (content : List Char) (m : Mark) :
    m.past (signs told chomp ++ '\n' :: content) = (m.onward (signs told chomp).length).down.past content := by
  have hline : ∀ c ∈ signs told chomp, isBreak c = false :=
    List.all_iff_forall_prop.mp (by cases told <;> cases chomp <;> decide)
  rw [Mark.past_append, Mark.past_line hline, Mark.past_break rfl]

/-- The empty lines in front of the text also show how far it is indented, if that is not told. -/
theorem scanEmptyLines_first (hg : ∀ c ∈ g, isPrintable c = true ∧ isBreak c = true)
    (hs : StartsBehind (some (n + 2)) (n + 2) s) (htold : told = true ∨ g = [] ∧ s.head? ≠ some ' ')
    (hm : m.column = 0) :
    ∃ d, scanEmptyLines (if told then some (n + 2) else none) ((g ++ (blanks (n + 2) ++ s)).length + 1) [] 0
        ⟨g ++ (blanks (n + 2) ++ s), m⟩ = .ok ((g, d), ⟨s, (m.past g).onward (n + 2)⟩) ∧
      (if told then some (n + 2) else none).getD (max (max d (n + 1)) 1) = n + 2 := by
  cases told with
  | true =>
    obtain ⟨d, hd⟩ := scanEmptyLines_breaks hg hs hm (blanks (n + 2) ++ s).length [] 0
    refine ⟨d, ?_, rfl⟩
    rwa [List.nil_append, ← List.length_append] at hd
  | false =>
    obtain ⟨rfl, hspace⟩ := htold.resolve_left (by decide)
    have hopen : StartsBehind none (n + 2) s := ⟨rfl, .inr hspace, hs.tab, hs.line⟩
    exact ⟨_, scanEmptyLines_stop hopen hm _ [] 0, by simp⟩

theorem scanBlock_lines (h : Lines (n + 2) chomp s cs) (hg : ∀ c ∈ g, isPrintable c = true ∧ isBreak c = true)
    (hs : StartsBehind (some (n + 2)) (n + 2) s) (htold : told = true ∨ g = [] ∧ s.head? ≠ some ' ')
    (hcol : col < n + 2) (hrest : StartsBehind (some (n + 2)) col rest) (m : Mark) :
    scanBlock true (some n)
        ⟨signs told chomp ++ '\n' :: (g ++ (blanks (n + 2) ++ (s ++ (blanks col ++ rest)))), m⟩ =
      .ok (g ++ cs, ⟨rest, (m.past (signs told chomp ++ '\n' :: (g ++ (blanks (n + 2) ++ s)))).onward col⟩) := by
  have hhead : (s ++ (blanks col ++ rest)).head? = s.head? := List.head?_append_of_ne_nil _ h.ne_nil
  obtain ⟨d, hempties, hindent⟩ := scanEmptyLines_first hg (hs.append h.ne_nil (blanks col ++ rest)) (hhead ▸ htold)
    (m := (m.onward (signs told chomp).length).down) rfl
  have hcolumn : (((m.onward (signs told chomp).length).down.past g).onward (n + 2)).column = n + 2 := by
    rw [Mark.onward_column, column_past_breaks hg rfl, Nat.zero_add]
  have hfuel : s.length ≤ (s ++ (blanks col ++ rest)).length + 1 := by
    rw [List.length_append]
    omega
  obtain ⟨text, lead, empties, hscan, htext⟩ := h.scan hcol hrest hcolumn hfuel [] [] g false
  rw [past_signs, Mark.past_append, Mark.past_append, Mark.past_blanks, scanBlock_signs]
  simp only [hempties, ok_bind, hindent, hscan, htext, List.nil_append]

theorem scanBlock_breaks (hg : ∀ c ∈ g, isPrintable c = true ∧ isBreak c = true)
    (hcol : col < n + 2) (hrest : StartsBehind (some (n + 2)) col rest) (m : Mark) :
    scanBlock true (some n) ⟨signs true .keep ++ '\n' :: (g ++ (blanks col ++ rest)), m⟩ =
      .ok (g, ⟨rest, (m.past (signs true .keep ++ '\n' :: g)).onward col⟩) := by
  obtain ⟨d, hd⟩ := scanEmptyLines_breaks hg hrest (m := (m.onward (signs true .keep).length).down) rfl
    (blanks col ++ rest).length [] 0
  have hcolumn : (((m.onward (signs true .keep).length).down.past g).onward col).column ≠ n + 2 := by
    rw [Mark.onward_column, column_past_breaks hg rfl]
    omega
  rw [List.nil_append, ← List.length_append] at hd
  rw [scanBlock_signs]
  simp only [if_true, hd, ok_bind, Option.getD_some, scanBlockLines_stop hcolumn, past_signs]
  rfl

end Block

section Writing

variable {w g cs rest : List Char} {n col indent : Nat}

def chomping (cs : List Char) : Chomp :=
  match cs.reverse with
  | [] => .strip
  | c :: before =>
    if isBreak c then
      match before with
      | [] => .keep
      | d :: _ => if isBreak d then .keep else .clip
    else .strip

def ending (cs : List Char) : List Char := if cs.getLast?.any isBreak then [] else ['\n']

theorem literalSigns_eq (cs : List Char) :
    literalSigns cs = signs (cs.head?.any fun c => isSpace c || isBreak c) (chomping cs) := by
  rw [literalSigns, signs, chomping]
  congr 1
  cases cs.reverse with
  | nil => rfl
  | cons c before =>
    cases hc : isBreak c with
    | false => simp [hc, Chomp.sign]
    | true =>
      cases before with
      | nil => simp [hc, Chomp.sign]
      | cons d before => cases hd : isBreak d <;> simp [hc, hd, Chomp.sign]

theorem chomping_append (hne : rest ≠ []) (hhead : rest.head?.any isBreak = false) (before : List Char) :
    chomping (before ++ rest) = chomping rest := by
  rw [chomping, chomping, List.reverse_append]
  cases hr : rest.reverse with
  | nil => exact absurd (List.reverse_eq_nil_iff.mp hr) hne
  | cons c more =>
    cases more with
    | nil =>
      have hrest : rest = [c] := List.reverse_eq_iff.mp hr
      have hc : isBreak c = false := by simpa [hrest] using hhead
      simp [hc]
    | cons d more => rfl

theorem chomping_word (hne : w ≠ []) (hw : ∀ c ∈ w, isBreak c = false) : chomping w = .strip := by
  obtain ⟨before, c, rfl⟩ := (List.eq_nil_or_concat w).resolve_left hne
  simp [chomping, hw c (by simp)]

theorem chomping_one {b : Char} (hne : w ≠ []) (hw : ∀ c ∈ w, isBreak c = false) (hb : isBreak b = true) :
    chomping (w ++ [b]) = .clip := by
  obtain ⟨before, c, rfl⟩ := (List.eq_nil_or_concat w).resolve_left hne
  simp [chomping, hb, hw c (by simp)]

theorem chomping_several {b : Char} (hg : ∀ c ∈ b :: g, isBreak c = true) (hne : w = [] ∨ g ≠ []) :
    chomping (w ++ b :: g) = .keep := by
  have hmem : ∀ c ∈ (b :: g).reverse, isBreak c = true := fun c hc => hg c (List.mem_reverse.mp hc)
  rw [chomping, List.reverse_append]
  match hr : (b :: g).reverse, hmem with
  | [], _ => simp at hr
  | [c], hmem =>
    have hempty : g = [] := by simpa using congrArg List.length hr
    obtain rfl := hne.resolve_right (by simp [hempty])
    simp [hmem c]
  | c :: d :: more, hmem => simp [hmem c, hmem d]

theorem literalLines_word (hw : ∀ c ∈ w, isBreak c = false) (rest : List Char) :
    literalLines indent false (w ++ rest) = w ++ literalLines indent false rest := by
  induction w with
  | nil => rfl
  | cons c w ih =>
    rw [List.cons_append, literalLines, if_neg (by rw [hw c List.mem_cons_self]; decide),
      ih fun d hd => hw d (List.mem_cons_of_mem _ hd)]
    rfl

theorem literalLines_breaks (hne : g ≠ []) (hg : ∀ c ∈ g, isBreak c = true) (breaks : Bool) (rest : List Char) :
    literalLines indent breaks (g ++ rest) = g ++ literalLines indent true rest := by
  induction g generalizing breaks with
  | nil => exact absurd rfl hne
  | cons c g ih =>
    rw [List.cons_append, literalLines, if_pos (hg c List.mem_cons_self)]
    cases g with
    | nil => rfl
    | cons d g => rw [ih (by simp) fun e he => hg e (List.mem_cons_of_mem _ he)]; rfl

theorem literalLines_behind (hne : rest ≠ []) (hhead : rest.head?.any isBreak = false) :
    literalLines indent true rest = blanks indent ++ literalLines indent false rest := by
  cases rest with
  | nil => exact absurd rfl hne
  | cons c rest =>
    have hc : isBreak c = false := hhead
    simp [literalLines, hc]

theorem ending_append (hne : rest ≠ []) (before : List Char) : ending (before ++ rest) = ending rest := by
  rw [ending, ending, List.getLast?_append_of_ne_nil _ hne]

theorem ending_line (hne : w ≠ []) (hw : ∀ c ∈ w, isBreak c = false) : ending w = ['\n'] := by
  obtain ⟨before, c, rfl⟩ := (List.eq_nil_or_concat w).resolve_left hne
  simp [ending, hw c (by simp)]

theorem ending_breaks (hne : g ≠ []) (hg : ∀ c ∈ g, isBreak c = true) : ending g = [] := by
  obtain ⟨before, c, rfl⟩ := (List.eq_nil_or_concat g).resolve_left hne
  simp [ending, hg c (by simp)]

theorem starts_written (indent : Nat) (hne : cs ≠ []) (hhead : cs.head?.any isBreak = false)
    (hp : ∀ c ∈ cs, isPrintable c = true) :
    (literalLines indent false cs ++ ending cs).head? = cs.head? ∧
      StartsBehind (some indent) indent (literalLines indent false cs ++ ending cs) := by
  have hfirst : (literalLines indent false cs ++ ending cs).head? = cs.head? := by
    cases cs with
    | nil => exact absurd rfl hne
    | cons c cs =>
      have hc : isBreak c = false := hhead
      simp [literalLines, hc]
  refine ⟨hfirst, StartsBehind.of_head ?_ hfirst⟩
  exact {
    within := by simp
    exact := .inl rfl
    tab := fun h => absurd (hp _ (List.mem_of_head? h)) (by decide)
    line := hhead }

/-- What is written of a text that starts with a line is a block. -/
theorem lines_written (hne : cs ≠ []) (hhead : cs.head?.any isBreak = false) (hp : ∀ c ∈ cs, isPrintable c = true) :
    Lines indent (chomping cs) (literalLines indent false cs ++ ending cs) cs := by
  induction cs using gaps_induction isBreak with
  | word w hw =>
    have hfeed : ∀ c ∈ ['\n'], isPrintable c = true ∧ isBreak c = true := List.forall_mem_singleton.mpr (by decide)
    have hlast : Lines indent .strip (w ++ ['\n']) (Chomp.finish .strip w ['\n'] []) := .last hw hfeed
    have hwritten : literalLines indent false w = w := by simpa [literalLines] using literalLines_word hw []
    rw [hwritten, ending_line hne hw, chomping_word hne hw]
    exact hlast
  | gap w g rest hw hg hbreaks hrest ih =>
    simp only [List.mem_append] at hp
    obtain ⟨b, g, rfl⟩ := List.exists_cons_of_ne_nil hg
    have hall : ∀ c ∈ b :: g, isPrintable c = true ∧ isBreak c = true := fun c hc =>
      ⟨hp c (.inr (.inl hc)), hbreaks c hc⟩
    have hwne : w ≠ [] := by
      rintro rfl
      exact absurd hhead (by simp [hbreaks b])
    rw [literalLines_word hw, literalLines_breaks hg hbreaks]
    cases rest with
    | nil =>
      have hwritten : literalLines indent true [] = [] := rfl
      rw [hwritten, List.append_nil, ending_append hg, ending_breaks hg hbreaks, List.append_nil]
      cases g with
      | nil =>
        rw [chomping_one hwne hw (hbreaks b List.mem_cons_self)]
        exact .last hw hall
      | cons c g =>
        have hlast : Lines indent .keep (w ++ b :: c :: g) (Chomp.finish .keep w [b] (c :: g)) := .last hw hall
        rw [chomping_several hbreaks (.inr (by simp))]
        simpa [Chomp.finish] using hlast
    | cons c rest =>
      have hline : ∀ d ∈ c :: rest, isPrintable d = true := fun d hd => hp d (.inr (.inr hd))
      obtain ⟨-, hstart⟩ := starts_written indent (by simp) hrest hline
      rw [← List.append_assoc w, chomping_append (by simp) hrest, ending_append (by simp),
        literalLines_behind (by simp) hrest]
      simpa using Lines.more hw hall hstart (ih (by simp) hrest hline)

theorem exists_breaks_append (cs : List Char) :
    ∃ g body, cs = g ++ body ∧ (∀ c ∈ g, isBreak c = true) ∧ body.head?.any isBreak = false := by
  refine ⟨cs.takeWhile isBreak, cs.dropWhile isBreak, List.takeWhile_append_dropWhile.symm,
    fun c hc => List.mem_takeWhile_imp hc, ?_⟩
  have hhead := List.head?_dropWhile_not isBreak cs
  cases hr : cs.dropWhile isBreak with
  | nil => rfl
  | cons d more =>
    rw [hr] at hhead
    simpa using hhead

/-- A text written as a block is read back up to a line that is indented less. -/
theorem scanBlock_literal (hne : cs ≠ []) (hp : ∀ c ∈ cs, isPrintable c = true) (hcol : col < n + 2)
    (hrest : StartsBehind (some (n + 2)) col rest) (m : Mark) :
    scanBlock true (some n)
        ⟨literalSigns cs ++ '\n' :: (literalLines (n + 2) true cs ++ (ending cs ++ (blanks col ++ rest))), m⟩ =
      .ok (cs, ⟨rest,
        (m.past (literalSigns cs ++ '\n' :: (literalLines (n + 2) true cs ++ ending cs))).onward col⟩) := by
  obtain ⟨g, body, rfl, hbreaks, hhead⟩ := exists_breaks_append cs
  simp only [List.mem_append] at hp
  have hg : ∀ c ∈ g, isPrintable c = true ∧ isBreak c = true := fun c hc => ⟨hp c (.inl hc), hbreaks c hc⟩
  by_cases hbody : body = []
  · subst hbody
    rw [List.append_nil] at hne ⊢
    have hlines : literalLines (n + 2) true g = g := by
      simpa [literalLines] using literalLines_breaks hne hbreaks true []
    obtain ⟨b, more, rfl⟩ := List.exists_cons_of_ne_nil hne
    have htold : (b :: more).head?.any (fun c => isSpace c || isBreak c) = true := by simp [hbreaks b]
    have hkeep : chomping (b :: more) = .keep := chomping_several hbreaks (.inl rfl)
    rw [literalSigns_eq, htold, hkeep, hlines, ending_breaks hne hbreaks, List.append_nil, List.nil_append]
    exact scanBlock_breaks hg hcol hrest m
  · have hline : ∀ c ∈ body, isPrintable c = true := fun c hc => hp c (.inr hc)
    obtain ⟨hfirst, hstart⟩ := starts_written (n + 2) hbody hhead hline
    have hlines : literalLines (n + 2) true (g ++ body) = g ++ (blanks (n + 2) ++ literalLines (n + 2) false body) := by
      rw [← literalLines_behind hbody hhead]
      cases g with
      | nil => rfl
      | cons c g => exact literalLines_breaks (by simp) hbreaks true body
    have htold : (g ++ body).head?.any (fun c => isSpace c || isBreak c) = true ∨
        g = [] ∧ (literalLines (n + 2) false body ++ ending body).head? ≠ some ' ' := by
      cases g with
      | nil =>
        rw [hfirst, List.nil_append]
        cases hc : body.head? with
        | none => exact absurd (List.head?_eq_none_iff.mp hc) hbody
        | some c => cases hspace : isSpace c <;> simp_all [isSpace]
      | cons c g => exact .inl (by simp [hbreaks c])
    have hscan := scanBlock_lines (lines_written hbody hhead hline) hg hstart htold hcol hrest m
    rw [literalSigns_eq, chomping_append hbody hhead, hlines, ending_append hbody]
    simpa using hscan

end Writing

end SequencerHub.Yaml

import SequencerHub.Proofs.Spellings

/-! Texts in quotes are read back from what is written of them. Between the quotes there are words, whose characters
may be escaped or doubled, and gaps of blanks or of breaks. -/
namespace SequencerHub.Yaml

section Hexadecimal

def hexDigit (n : Nat) : Char := if 'a' ≤ n.digitChar then Char.ofNat (n.digitChar.toNat - 32) else n.digitChar

theorem hexValue?_hexDigit : ∀ n < 16, hexValue? (hexDigit n) = some n := by
  decide

def Flat (c : Char) : Prop := isPrintable c = true ∧ isBreak c = false

instance (c : Char) : Decidable (Flat c) := inferInstanceAs (Decidable (_ ∧ _))

theorem flat_hexDigit : ∀ n < 16, Flat (hexDigit n) := by
  decide

theorem exists_of_mem_toDigits {c : Char} (n : Nat) (h : c ∈ Nat.toDigits 16 n) : ∃ d < 16, c = d.digitChar := by
  induction n using Nat.strong_induction_on with
  | _ n ih =>
    by_cases hn : n < 16
    · rw [Nat.toDigits_of_lt_base hn, List.mem_singleton] at h
      exact ⟨n, hn, h⟩
    · rw [Nat.toDigits_of_base_le (by decide) (by omega), List.mem_append, List.mem_singleton] at h
      obtain h | h := h
      · exact ih _ (Nat.div_lt_self (by omega) (by decide)) h
      · exact ⟨_, Nat.mod_lt _ (by decide), h⟩

theorem flat_hexUpper {c : Char} (width n : Nat) (h : c ∈ hexUpper width n) : Flat c := by
  obtain h | h := List.mem_append.mp h
  · rw [List.eq_of_mem_replicate h]
    decide
  · obtain ⟨d, hd, rfl⟩ := List.mem_map.mp h
    obtain ⟨n, hn, rfl⟩ := exists_of_mem_toDigits _ hd
    exact flat_hexDigit n hn

theorem scanHex_cons {d v : Nat} (hd : hexValue? (hexDigit d) = some v) (k n : Nat) (tail : List Char) (m : Mark) :
    scanHex (k + 1) n ⟨hexDigit d :: tail, m⟩ = scanHex k (16 * n + v) ⟨tail, m.onward 1⟩ := by
  simp [scanHex, hd]

theorem scanHex_toDigits (n k : Nat) : ∀ (tail : List Char) (m : Mark),
    let ds := (Nat.toDigits 16 n).map fun c => if 'a' ≤ c then Char.ofNat (c.toNat - 32) else c
    scanHex (ds.length + k) 0 ⟨ds ++ tail, m⟩ = scanHex k n ⟨tail, m.onward ds.length⟩ := by
  induction n using Nat.strong_induction_on generalizing k with
  | _ n ih =>
    intro tail m
    by_cases hn : n < 16
    · rw [Nat.toDigits_of_lt_base hn]
      have hdigit := scanHex_cons (hexValue?_hexDigit n hn) k 0 tail m
      rwa [Nat.mul_zero, Nat.zero_add, Nat.add_comm k] at hdigit
    · have hdiv : n / 16 < n := Nat.div_lt_self (by omega) (by decide)
      have hmod : n % 16 < 16 := Nat.mod_lt _ (by decide)
      rw [Nat.toDigits_of_base_le (by decide) (by omega)]
      simp only [List.map_append, List.map_cons, List.map_nil, List.length_append, List.length_singleton,
        List.append_assoc, List.singleton_append]
      rw [Nat.add_assoc, ih _ hdiv (1 + k) _ m, Nat.add_comm 1 k]
      refine (scanHex_cons (hexValue?_hexDigit _ hmod) k _ tail _).trans ?_
      rw [Nat.div_add_mod, Mark.onward_onward]

theorem scanHex_zeros (z k : Nat) (tail : List Char) (m : Mark) :
    scanHex (z + k) 0 ⟨List.replicate z '0' ++ tail, m⟩ = scanHex k 0 ⟨tail, m.onward z⟩ := by
  induction z generalizing m with
  | zero => simp
  | succ z ih =>
    rw [List.replicate_succ, List.cons_append, Nat.add_right_comm]
    refine (scanHex_cons (hexValue?_hexDigit 0 (by decide)) _ 0 _ m).trans ?_
    rw [Nat.mul_zero, Nat.add_zero, ih, Mark.onward_onward, Nat.add_comm 1]

theorem length_hexUpper {width n : Nat} (hw : 0 < width) (h : n < 16 ^ width) : (hexUpper width n).length = width := by
  have hlen : (Nat.toDigits 16 n).length ≤ width := (Nat.length_toDigits_le_iff (by decide) hw).mpr h
  simp [hexUpper, hlen]

theorem scanHex_hexUpper {width n : Nat} (hw : 0 < width) (h : n < 16 ^ width) (tail : List Char) (m : Mark) :
    scanHex width 0 ⟨hexUpper width n ++ tail, m⟩ = .ok (n, ⟨tail, m.onward width⟩) := by
  have hlen : (Nat.toDigits 16 n).length ≤ width := (Nat.length_toDigits_le_iff (by decide) hw).mpr h
  have hdigits := scanHex_toDigits n 0 tail
  simp only [hexUpper, List.append_assoc]
  generalize hds : (Nat.toDigits 16 n).map (fun c => if 'a' ≤ c then Char.ofNat (c.toNat - 32) else c) = ds at hdigits
  have hds : ds.length = (Nat.toDigits 16 n).length := by rw [← hds, List.length_map]
  obtain ⟨zeros, rfl⟩ := Nat.exists_eq_add_of_le (hds ▸ hlen)
  rw [Nat.add_sub_cancel_left, Nat.add_comm ds.length, scanHex_zeros]
  refine (hdigits _).trans ?_
  rw [Mark.onward_onward]
  rfl

end Hexadecimal

section Escapes

def lettered : List Char :=
  ['\x00', '\x07', '\x08', '\t', '\n', '\x0b', '\x0c', '\r', '\x1b', '"', '\\', '\x85', '\xa0', '\u2028', '\u2029']

theorem unescape?_of_escapeLetter? {c letter : Char} (h : escapeLetter? c = some letter) :
    unescape? letter = some c ∧ Flat letter := by
  have htable : ∀ d ∈ lettered,
      (escapeLetter? d).all (fun letter => unescape? letter == some d && decide (Flat letter)) = true :=
    List.all_iff_forall_prop.mp (by decide)
  by_cases hc : c ∈ lettered
  · simpa [h] using htable c hc
  · simp only [lettered, List.mem_cons, List.not_mem_nil, or_false, not_or] at hc
    simp [escapeLetter?, hc] at h

theorem scanEscape_hex {c letter : Char} {digits : Nat} (hl : unescape? letter = none)
    (hd : escapeDigits? letter = some digits) (hpos : 0 < digits) (h : c.toNat < 16 ^ digits) (tail : List Char)
    (m : Mark) : scanEscape ⟨'\\' :: letter :: (hexUpper digits c.toNat ++ tail), m⟩ =
      .ok (c, ⟨tail, m.onward (digits + 2)⟩) := by
  have hvalid : ¬ ((0xD800 ≤ c.toNat ∧ c.toNat ≤ 0xDFFF) ∨ 0x10FFFF < c.toNat) := by
    have hc := c.valid
    simp only [UInt32.isValidChar, Nat.isValidChar] at hc
    have hn : c.toNat = c.val.toNat := rfl
    omega
  simp only [scanEscape, Cursor.peekAt?, List.getElem?_cons_succ, List.getElem?_cons_zero, hl, hd, Cursor.skip_cons,
    Mark.onward_onward, scanHex_hexUpper hpos h, ok_bind, if_neg hvalid, Char.ofNat_toNat]
  rw [Nat.add_comm]

/-- What is written behind a backslash, and read back from there. -/
structure Escaped (c : Char) (letter : Char) (more : List Char) : Prop where
  written : escape c = '\\' :: letter :: more
  flat : ∀ d ∈ letter :: more, Flat d
  scanned : ∀ tail m, scanEscape ⟨escape c ++ tail, m⟩ = .ok (c, ⟨tail, m.onward (escape c).length⟩)

theorem escaped_number {c letter : Char} {digits : Nat} (h : escape c = '\\' :: letter :: hexUpper digits c.toNat)
    (hl : unescape? letter = none) (hd : escapeDigits? letter = some digits) (hflat : Flat letter) (hpos : 0 < digits)
    (hlt : c.toNat < 16 ^ digits) : Escaped c letter (hexUpper digits c.toNat) where
  written := h
  flat := List.forall_mem_cons.mpr ⟨hflat, fun _ => flat_hexUpper digits c.toNat⟩
  scanned tail m := by
    have hlen : (escape c).length = digits + 2 := by simp [h, length_hexUpper hpos hlt]
    rw [hlen, h]
    exact scanEscape_hex hl hd hpos hlt tail m

/-- A character is bare between double quotes, or it is behind a backslash. -/
theorem escape_cases (c : Char) :
    (escape c = [c] ∧ Flat c ∧ c ≠ '"' ∧ c ≠ '\\') ∨ ∃ letter more, Escaped c letter more := by
  by_cases hbare : (isPrintable c && !isBreak c && c != '"' && c != '\\') = true
  · simp only [Bool.and_eq_true, Bool.not_eq_true', bne_iff_ne] at hbare
    obtain ⟨⟨⟨hp, hb⟩, hq⟩, hs⟩ := hbare
    exact .inl ⟨by simp [escape, hp, hb, hq, hs], ⟨hp, hb⟩, hq, hs⟩
  · refine .inr ?_
    cases hletter : escapeLetter? c with
    | some letter =>
      obtain ⟨hun, hflat⟩ := unescape?_of_escapeLetter? hletter
      have hesc : escape c = ['\\', letter] := by rw [escape, if_neg hbare, hletter]
      exact ⟨letter, [], hesc, by simpa using hflat, fun tail m => by simp [hesc, scanEscape, Cursor.peekAt?, hun]⟩
    | none =>
      have hesc : escape c = if c.toNat ≤ 0xff then '\\' :: 'x' :: hexUpper 2 c.toNat
          else if c.toNat ≤ 0xffff then '\\' :: 'u' :: hexUpper 4 c.toNat
          else '\\' :: 'U' :: hexUpper 8 c.toNat := by rw [escape, if_neg hbare, hletter]
      split_ifs at hesc with hx hu
      · exact ⟨'x', _, escaped_number hesc rfl rfl (by decide) (by decide) (by omega)⟩
      · exact ⟨'u', _, escaped_number hesc rfl rfl (by decide) (by decide) (by omega)⟩
      · have hmax : c.toNat < 16 ^ 8 := lt_of_lt_of_le (UInt32.toNat_lt c.val) (by decide)
        exact ⟨'U', _, escaped_number hesc rfl rfl (by decide) (by decide) hmax⟩

/-- Only characters that may be written as they are have more than four digits. -/
theorem length_escape_le (c : Char) : (escape c).length ≤ 6 := by
  by_cases hbare : (isPrintable c && !isBreak c && c != '"' && c != '\\') = true
  · rw [escape, if_pos hbare]
    simp
  · rw [escape, if_neg hbare]
    cases escapeLetter? c with
    | some letter => simp
    | none =>
      simp only
      split_ifs with hx hu
      · simp [length_hexUpper (show 0 < 2 by decide) (show c.toNat < 16 ^ 2 by omega)]
      · simp [length_hexUpper (show 0 < 4 by decide) (show c.toNat < 16 ^ 4 by omega)]
      · have hne : ∀ d : Char, d.toNat ≤ 0xffff → c ≠ d := by
          rintro d hd rfl
          exact hu hd
        have hlarge : 0x10000 ≤ c.toNat := by omega
        refine absurd ?_ hbare
        simp [isPrintable, hlarge, isBreak, hne '\n' (by decide), hne '\r' (by decide), hne '\x85' (by decide),
          hne '\u2028' (by decide), hne '\u2029' (by decide), hne '"' (by decide), hne '\\' (by decide)]

end Escapes

section Words

def doubled (c : Char) : List Char := if c = '\x27' then ['\x27', '\x27'] else [c]

def spell (double : Bool) : Char → List Char := if double then escape else doubled

@[simp] theorem spell_true : spell true = escape := rfl

@[simp] theorem spell_false : spell false = doubled := rfl

def quote (double : Bool) : Char := if double then '"' else '\x27'

/-- What may be part of a word between quotes. Single quotes have no escapes. -/
def Fits (double : Bool) (c : Char) : Prop :=
  isSpace c = false ∧ (double = false → Flat c)

variable {double : Bool} {w tail : List Char} {acc : List Char} {m : Mark}

theorem not_gap_of_flat {c : Char} (h : Flat c) (hspace : isSpace c = false) : (isBlank c || isBreak c) = false :=
  Bool.or_eq_false_iff.mpr ⟨(isBlank_eq_isSpace h.1).trans hspace, h.2⟩

theorem flat_escape {c d : Char} (h : d ∈ escape c) : Flat d := by
  obtain ⟨heq, hflat, -, -⟩ | ⟨letter, more, hesc⟩ := escape_cases c
  · rw [heq, List.mem_singleton] at h
    exact h ▸ hflat
  · rw [hesc.written, List.mem_cons] at h
    obtain rfl | h := h
    · decide
    · exact hesc.flat d h

theorem eq_of_mem_doubled {c d : Char} (h : d ∈ doubled c) : d = c := by
  unfold doubled at h
  split at h <;> simp_all

theorem flat_spell {c : Char} (h : Fits double c) : (∀ d ∈ spell double c, Flat d) ∧
    ∃ d more, spell double c = d :: more ∧ (isBlank d || isBreak d) = false := by
  cases double with
  | true =>
    refine ⟨fun d => flat_escape, ?_⟩
    obtain ⟨heq, hflat, -, -⟩ | ⟨letter, more, hesc⟩ := escape_cases c
    · exact ⟨c, [], heq, not_gap_of_flat hflat h.1⟩
    · exact ⟨'\\', _, hesc.written, by decide⟩
  | false =>
    have hgap := not_gap_of_flat (h.2 rfl) h.1
    refine ⟨fun d hd => eq_of_mem_doubled hd ▸ h.2 rfl, ?_⟩
    by_cases hc : c = '\x27'
    · subst hc
      exact ⟨'\x27', ['\x27'], rfl, by decide⟩
    · exact ⟨c, [], by simp [doubled, hc], hgap⟩

theorem scanQuotedWord_letter {c : Char} (h : Fits double c) (fuel : Nat) :
    scanQuotedWord double (fuel + 1) acc ⟨spell double c ++ tail, m⟩ =
      scanQuotedWord double fuel (acc ++ [c]) ⟨tail, m.onward (spell double c).length⟩ := by
  obtain ⟨hspace, hsingle⟩ := h
  cases double with
  | true =>
    obtain ⟨heq, hflat, hquote, hslash⟩ | ⟨letter, more, hesc⟩ := escape_cases c
    · have hblank : isBlank c = false := (isBlank_eq_isSpace hflat.1).trans hspace
      simp [spell, heq, scanQuotedWord, hblank, hflat.2, hquote, hslash]
    · have hscan := hesc.scanned tail m
      have hbreak : (⟨'\\' :: letter :: (more ++ tail), m⟩ : Cursor).isBreakAt 1 = false :=
        (hesc.flat letter List.mem_cons_self).2
      simp only [spell, if_true, hesc.written, List.cons_append] at hscan ⊢
      rw [scanQuotedWord]
      simp only [Cursor.peek?_mk, List.head?_cons, hbreak]
      simp [hscan, isBlank, isBreak]
  | false =>
    have hflat := hsingle rfl
    have hblank : isBlank c = false := (isBlank_eq_isSpace hflat.1).trans hspace
    by_cases hc : c = '\x27'
    · subst hc
      simp [spell, doubled, scanQuotedWord, isBlank, isBreak, Cursor.peekAt?]
    · simp [spell, doubled, hc, scanQuotedWord, hblank, hflat.2]

theorem scanQuotedWord_append (hw : ∀ c ∈ w, Fits double c) (fuel : Nat) :
    scanQuotedWord double (w.length + fuel) acc ⟨w.flatMap (spell double) ++ tail, m⟩ =
      scanQuotedWord double fuel (acc ++ w) ⟨tail, m.onward (w.flatMap (spell double)).length⟩ := by
  induction w generalizing acc m with
  | nil => simp
  | cons c w ih =>
    rw [List.length_cons, Nat.add_right_comm, List.flatMap_cons, List.append_assoc,
      scanQuotedWord_letter (hw c List.mem_cons_self), ih fun d hd => hw d (List.mem_cons_of_mem _ hd),
      Mark.onward_onward, List.length_append, List.append_assoc, List.singleton_append]

/-- Where a word between quotes ends: at a gap, or at the closing quote. -/
inductive WordEnd (double : Bool) : List Char → Prop
  | gap {c : Char} {rest : List Char} (h : (isBlank c || isBreak c) = true) : WordEnd double (c :: rest)
  | close {rest : List Char} (h : rest.head? ≠ some '\x27') : WordEnd double (quote double :: rest)

theorem scanQuotedWord_stop (h : WordEnd double tail) (fuel : Nat) :
    scanQuotedWord double fuel acc ⟨tail, m⟩ = .ok ((acc, false), ⟨tail, m⟩) := by
  cases fuel with
  | zero => rfl
  | succ fuel =>
    cases h with
    | gap h => simp [scanQuotedWord, h]
    | close h =>
      have hnext : ∀ rest : List Char, rest.head? ≠ some '\x27' → (rest[0]? == some '\x27') = false := by
        intro rest hne
        rw [← List.head?_eq_getElem?]
        exact beq_eq_false_iff_ne.mpr hne
      cases double <;> simp [scanQuotedWord, quote, isBlank, isBreak, Cursor.peekAt?, hnext _ h]

theorem length_le_spelled (hw : ∀ c ∈ w, Fits double c) : w.length ≤ (w.flatMap (spell double)).length := by
  induction w with
  | nil => exact Nat.le_refl _
  | cons c w ih =>
    obtain ⟨-, d, more, hspell, -⟩ := flat_spell (hw c List.mem_cons_self)
    have hle := ih fun d hd => hw d (List.mem_cons_of_mem _ hd)
    rw [List.flatMap_cons, hspell]
    simp only [List.length_cons, List.length_append]
    omega

/-- A word is read to its end. -/
theorem scanQuotedWord_word (hw : ∀ c ∈ w, Fits double c) (h : WordEnd double tail) :
    scanQuotedWord double ((w.flatMap (spell double) ++ tail).length + 1) [] ⟨w.flatMap (spell double) ++ tail, m⟩ =
      .ok ((w, false), ⟨tail, m.onward (w.flatMap (spell double)).length⟩) := by
  have hlen : ∃ fuel, (w.flatMap (spell double) ++ tail).length + 1 = w.length + fuel := by
    refine Nat.exists_eq_add_of_le ?_
    have hle := length_le_spelled hw
    rw [List.length_append]
    omega
  obtain ⟨fuel, hfuel⟩ := hlen
  rw [hfuel, scanQuotedWord_append hw, scanQuotedWord_stop h, List.nil_append]

end Words

section Texts

/-- What is written behind an opening quote, to the closing one. Behind breaks the line is indented, unless the
closing quote stands there. -/
inductive Quoted (double : Bool) : List Char → List Char → Prop
  | word {w : List Char} (hw : ∀ c ∈ w, Fits double c) :
      Quoted double (w.flatMap (spell double) ++ [quote double]) w
  | blanks {w s cs : List Char} (n : Nat) (hw : ∀ c ∈ w, Fits double c)
      (hs : s.head?.any (fun c => isBlank c || isBreak c) = false) (h : Quoted double s cs) :
      Quoted double (w.flatMap (spell double) ++ (blanks (n + 1) ++ s)) (w ++ (blanks (n + 1) ++ cs))
  | breaks {w g s cs : List Char} (n : Nat) (hw : ∀ c ∈ w, Fits double c) (hg : g ≠ [])
      (hbreaks : ∀ c ∈ g, isPrintable c = true ∧ isBreak c = true ∧ c ≠ '\n')
      (hs : s.head?.any (fun c => isBlank c || isBreak c) = false) (hn : 0 < n ∨ s.head? = some (quote double))
      (h : Quoted double s cs) :
      Quoted double (w.flatMap (spell double) ++ (g ++ (blanks n ++ s))) (w ++ (g ++ cs))

variable {double : Bool} {w s cs tail : List Char} {acc : List Char} {gap : Gap} {m : Mark}

theorem scanQuoted_close (hw : ∀ c ∈ w, Fits double c) (htail : tail.head? ≠ some '\x27')
    (hmarker : (⟨w.flatMap (spell double) ++ (quote double :: tail), m⟩ : Cursor).atDocumentMarker = false)
    (fuel : Nat) :
    scanQuoted double (fuel + 1) acc gap ⟨w.flatMap (spell double) ++ (quote double :: tail), m⟩ =
      .ok (acc ++ gap.text ++ w, ⟨tail, m.onward ((w.flatMap (spell double)).length + 1)⟩) := by
  have hend : (⟨w.flatMap (spell double) ++ (quote double :: tail), m⟩ : Cursor).atEnd = false := by
    simp [Cursor.atEnd]
  rw [scanQuoted, if_neg (by rw [hmarker, hend]; decide), scanQuotedWord_word hw (.close htail)]
  cases double <;> simp [quote]

theorem scanQuoted_gap {more : List Char} (hw : ∀ c ∈ w, Fits double c)
    (hmore : more.head?.any (fun c => isBlank c || isBreak c) = true)
    (hmarker : (⟨w.flatMap (spell double) ++ more, m⟩ : Cursor).atDocumentMarker = false) (fuel : Nat) :
    scanQuoted double (fuel + 1) acc gap ⟨w.flatMap (spell double) ++ more, m⟩ = (do
      let (gap', c) ← scanGap none (more.length + 1) {} ⟨more, m.onward (w.flatMap (spell double)).length⟩
      scanQuoted double fuel (acc ++ gap.text ++ w) gap' c) := by
  cases more with
  | nil => exact absurd hmore (by decide)
  | cons c more =>
    have hend : (⟨w.flatMap (spell double) ++ c :: more, m⟩ : Cursor).atEnd = false := by
      simp [Cursor.atEnd]
    have hquote : ∀ q : Char, (isBlank q || isBreak q) = false → (some c == some q) = false := by
      intro q hq
      refine beq_eq_false_iff_ne.mpr ?_
      intro h
      obtain rfl := Option.some.inj h
      exact absurd hmore (by rw [List.head?_cons, Option.any_some, hq]; decide)
    rw [scanQuoted, if_neg (by rw [hmarker, hend]; decide), scanQuotedWord_word hw (.gap hmore)]
    cases double <;> simp [hquote _ (show (isBlank '\x27' || isBreak '\x27') = false by decide),
      hquote _ (show (isBlank '"' || isBreak '"') = false by decide)]

theorem past_spelled (hw : ∀ c ∈ w, Fits double c) (m : Mark) :
    m.past (w.flatMap (spell double)) = m.onward (w.flatMap (spell double)).length := by
  refine Mark.past_line (fun d hd => ?_) m
  obtain ⟨c, hc, hd⟩ := List.mem_flatMap.mp hd
  exact ((flat_spell (hw c hc)).1 d hd).2

theorem Quoted.ne_nil (h : Quoted double s cs) : s ≠ [] := by
  cases h with
  | word hw => simp
  | blanks n hw hs h => simp [Yaml.blanks]
  | breaks n hw hg hbreaks hs hn h => simp [hg]

theorem head?_append_any {p : Char → Bool} (hne : s ≠ []) (h : s.head?.any p = false) :
    (s ++ tail).head?.any p = false := by
  rwa [List.head?_append_of_ne_nil _ hne]

theorem no_marker_of_quote (h : s.head? = some (quote double)) :
    (⟨s ++ tail, m⟩ : Cursor).atDocumentMarker = false := by
  cases s with
  | nil => exact absurd h (by simp)
  | cons c s =>
    obtain rfl := Option.some.inj h
    cases double <;> simp [Cursor.atDocumentMarker, quote]

/-- A text in quotes is read up to its closing quote. -/
theorem Quoted.scan (h : Quoted double s cs) (htail : tail.head? ≠ some '\x27') {fuel : Nat} (hf : s.length ≤ fuel)
    (hmarker : (⟨s ++ tail, m⟩ : Cursor).atDocumentMarker = false) (acc : List Char) (gap : Gap) :
    scanQuoted double fuel acc gap ⟨s ++ tail, m⟩ = .ok (acc ++ gap.text ++ cs, ⟨tail, m.past s⟩) := by
  induction h generalizing acc gap m fuel with
  | @word w hw =>
    obtain ⟨fuel, rfl⟩ : ∃ n, fuel = n + 1 := Nat.exists_eq_add_one_of_ne_zero (by simp at hf; omega)
    rw [List.append_assoc] at hmarker ⊢
    refine (scanQuoted_close hw htail hmarker fuel).trans ?_
    have hquote : isBreak (quote double) = false := by cases double <;> rfl
    rw [Mark.past_append, past_spelled hw, Mark.past_letter hquote, Mark.past_nil, Mark.onward_onward]
  | @blanks w s cs n hw hs h ih =>
    obtain ⟨fuel, rfl⟩ : ∃ n, fuel = n + 1 := Nat.exists_eq_add_one_of_ne_zero (by simp [Yaml.blanks] at hf; omega)
    have hlonger : s.length ≤ fuel := by
      simp only [List.length_append, Yaml.blanks, List.length_replicate] at hf
      omega
    simp only [List.append_assoc] at hmarker ⊢
    rw [scanQuoted_gap hw rfl hmarker, scanGap_line _ _ _ (head?_append_any h.ne_nil hs), ok_bind]
    refine (ih hlonger (Cursor.atDocumentMarker_of_column (by simp)) _ _).trans ?_
    rw [Mark.past_append, past_spelled hw, Mark.past_append, Mark.past_blanks]
    simp [Gap.text]
  | @breaks w g s cs n hw hg hbreaks hs hn h ih =>
    obtain ⟨c, g, rfl⟩ := List.exists_cons_of_ne_nil hg
    obtain ⟨fuel, rfl⟩ : ∃ n, fuel = n + 1 := Nat.exists_eq_add_one_of_ne_zero (by simp at hf; omega)
    have hlonger : s.length ≤ fuel := by
      simp only [List.length_append, List.length_cons] at hf
      omega
    obtain ⟨hp, hb, hfeed⟩ := hbreaks c List.mem_cons_self
    have hmarker' : ∀ m : Mark, (⟨s ++ tail, m.onward n⟩ : Cursor).atDocumentMarker = false := fun m => by
      obtain hn | hquote := hn
      · exact Cursor.atDocumentMarker_of_column (by simp; omega)
      · exact no_marker_of_quote hquote
    simp only [List.append_assoc, List.cons_append] at hmarker ⊢
    rw [scanQuoted_gap hw (by simp [hb]) hmarker,
      scanGap_lines _ _ n (head?_append_any h.ne_nil hs) fun d hd => ⟨(hbreaks d hd).1, (hbreaks d hd).2.1⟩, ok_bind]
    refine (ih hlonger (hmarker' _) _ _).trans ?_
    rw [Mark.past_append, past_spelled hw, Mark.past_break hb, Mark.past_break hb, Mark.past_append, Mark.past_append,
      Mark.past_blanks]
    simp [Gap.text, hfeed]

end Texts

section Writing

variable {w rest cs : List Char} {indent : Nat}

theorem head_spelled (double : Bool) (h : ∀ c, rest.head? = some c → Fits double c) (tail : List Char)
    (htail : tail.head?.any (fun c => isBlank c || isBreak c) = false) :
    (rest.flatMap (spell double) ++ tail).head?.any (fun c => isBlank c || isBreak c) = false := by
  cases rest with
  | nil => exact htail
  | cons c rest =>
    obtain ⟨-, d, more, hspell, hgap⟩ := flat_spell (h c rfl)
    rw [List.flatMap_cons, hspell]
    exact hgap

theorem flatMap_spell_blanks (double : Bool) (n : Nat) : (blanks n).flatMap (spell double) = blanks n := by
  induction n with
  | zero => rfl
  | succ n ih =>
    have hblank : spell double ' ' = [' '] := by cases double <;> rfl
    rw [blanks, List.replicate_succ, List.flatMap_cons, hblank]
    exact congrArg (' ' :: ·) ih

theorem quoted_double (cs : List Char) : Quoted true (cs.flatMap escape ++ ['"']) cs := by
  have hfits : ∀ c, isSpace c = false → Fits true c := fun c hc => ⟨hc, nofun⟩
  induction cs using gaps_induction isSpace with
  | word w hw => exact .word fun c hc => hfits c (hw c hc)
  | gap w g rest hw hg hspace hhead ih =>
    obtain ⟨n, hn⟩ : ∃ n, g.length = n + 1 := Nat.exists_eq_add_one_of_ne_zero (List.length_eq_zero_iff.not.mpr hg)
    obtain rfl : g = blanks (n + 1) := hn ▸ eq_blanks hspace
    have hfirst : ∀ c, rest.head? = some c → Fits true c := fun c hc => hfits c (by simpa [hc] using hhead)
    have hstart := head_spelled true hfirst ['"'] rfl
    have hquoted := Quoted.blanks n (fun c hc => hfits c (hw c hc)) hstart ih
    simpa [← spell_true, flatMap_spell_blanks] using hquoted

theorem hasPair_eq_false {p q : Char → Bool} :
    hasPair p q cs = false ↔ cs.IsChain fun a b => (p a && q b) = false := by
  induction cs with
  | nil => simp [hasPair]
  | cons a cs ih =>
    cases cs with
    | nil => simp [hasPair]
    | cons b cs => rw [hasPair, Bool.or_eq_false_iff, ih, List.isChain_cons_cons]

theorem all_of_first {p q : Char → Bool} {c : Char} (hc : p c = true)
    (h : (c :: cs).IsChain fun a b => (p a && q b) = false) (hkinds : ∀ d ∈ cs, p d = true ∨ q d = true) :
    ∀ d ∈ c :: cs, p d = true := by
  induction cs generalizing c with
  | nil => simpa using hc
  | cons b cs ih =>
    rw [List.isChain_cons_cons, hc, Bool.true_and] at h
    have hb : p b = true := (hkinds b List.mem_cons_self).resolve_right (by rw [h.1]; decide)
    exact List.forall_mem_cons.mpr ⟨hc, ih hb h.2 fun d hd => hkinds d (List.mem_cons_of_mem _ hd)⟩

theorem single_word (indent : Nat) (hw : ∀ c ∈ w, isBreak c = false) (rest : List Char) :
    single indent false (w ++ rest) = w.flatMap doubled ++ single indent false rest := by
  induction w with
  | nil => rfl
  | cons c w ih =>
    rw [List.cons_append, single, if_neg (by rw [hw c List.mem_cons_self]; decide),
      ih fun d hd => hw d (List.mem_cons_of_mem _ hd)]
    simp [doubled]

theorem single_breaks {g : List Char} (hg : g ≠ []) (hbreaks : ∀ c ∈ g, isBreak c = true ∧ c ≠ '\n') (breaks : Bool)
    (rest : List Char) : single indent breaks (g ++ rest) = g ++ single indent true rest := by
  induction g generalizing breaks with
  | nil => exact absurd rfl hg
  | cons c g ih =>
    obtain ⟨hb, hfeed⟩ := hbreaks c List.mem_cons_self
    have hstep : single indent breaks (c :: (g ++ rest)) = c :: single indent true (g ++ rest) := by
      simp [single, hb, hfeed]
    rw [List.cons_append, hstep]
    cases g with
    | nil => rfl
    | cons d g => rw [ih (by simp) fun e he => hbreaks e (List.mem_cons_of_mem _ he)]; rfl

/-- The line behind breaks is indented, if anything of the text stands there. -/
theorem single_behind (h : rest.head?.any isBreak = false) (hindent : 0 < indent) :
    ∃ n, (0 < n ∨ (single indent false rest).head? = some '\x27') ∧
      single indent true rest = blanks n ++ single indent false rest := by
  cases rest with
  | nil => exact ⟨0, .inr rfl, rfl⟩
  | cons c rest =>
    have hc : ¬ isBreak c = true := by simpa using h
    exact ⟨indent, .inl hindent, by simp [single, hc]⟩

theorem head_single (indent : Nat) (hhead : rest.head?.any (fun c => isSpace c || isBreak c) = false)
    (hp : ∀ c ∈ rest, isPrintable c = true) :
    (single indent false rest).head?.any (fun c => isBlank c || isBreak c) = false := by
  cases rest with
  | nil => rfl
  | cons c rest =>
    obtain ⟨hspace, hb⟩ := Bool.or_eq_false_iff.mp hhead
    have hfits : Fits false c := ⟨hspace, fun _ => ⟨hp c List.mem_cons_self, hb⟩⟩
    obtain ⟨-, d, more, hspell, hgap⟩ := flat_spell hfits
    have hwritten := single_word (w := [c]) indent (by simpa using hb) rest
    rw [List.singleton_append] at hwritten
    rw [hwritten, List.flatMap_singleton, ← spell_false, hspell]
    exact hgap

/-- A text may be written in single quotes if every character may be written as it is, and no blank stands next to
a break. -/
theorem quoted_single (hindent : 0 < indent) (hp : ∀ c ∈ cs, isPrintable c = true ∧ c ≠ '\n')
    (hafter : cs.IsChain fun a b => (isBreak a && isSpace b) = false)
    (hbefore : cs.IsChain fun a b => (isSpace a && isBreak b) = false) :
    Quoted false (single indent false cs) cs := by
  induction cs using gaps_induction (fun c => isSpace c || isBreak c) with
  | word w hw =>
    have hword := single_word indent (fun c hc => (Bool.or_eq_false_iff.mp (hw c hc)).2) []
    rw [List.append_nil] at hword
    rw [hword]
    exact .word fun c hc =>
      have ⟨hspace, hb⟩ := Bool.or_eq_false_iff.mp (hw c hc)
      ⟨hspace, fun _ => ⟨(hp c hc).1, hb⟩⟩
  | gap w g rest hw hg hsep hhead ih =>
    simp only [List.mem_append] at hp
    have hfits : ∀ c ∈ w, Fits false c := fun c hc =>
      have ⟨hspace, hb⟩ := Bool.or_eq_false_iff.mp (hw c hc)
      ⟨hspace, fun _ => ⟨(hp c (.inl hc)).1, hb⟩⟩
    have hrest := ih (fun c hc => hp c (.inr (.inr hc))) hafter.right_of_append.right_of_append
      hbefore.right_of_append.right_of_append
    have hstart := head_single indent hhead fun c hc => (hp c (.inr (.inr hc))).1
    have hkinds : ∀ c ∈ g, isSpace c = true ∨ isBreak c = true := fun c hc => Bool.or_eq_true_iff.mp (hsep c hc)
    rw [single_word indent fun c hc => (Bool.or_eq_false_iff.mp (hw c hc)).2]
    obtain ⟨c, g, rfl⟩ := List.exists_cons_of_ne_nil hg
    obtain hc | hc := hkinds c List.mem_cons_self
    · have hspaces := all_of_first hc hbefore.right_of_append.left_of_append fun d hd =>
        hkinds d (List.mem_cons_of_mem _ hd)
      rw [eq_blanks hspaces, List.length_cons]
      have hblanks : ∀ d ∈ blanks (g.length + 1), isBreak d = false := fun d hd => by
        rw [List.eq_of_mem_replicate hd]
        rfl
      rw [single_word indent hblanks, ← spell_false, flatMap_spell_blanks]
      exact .blanks _ hfits hstart hrest
    · have hbreaks := all_of_first hc hafter.right_of_append.left_of_append fun d hd =>
        (hkinds d (List.mem_cons_of_mem _ hd)).symm
      have hfeeds : ∀ d ∈ c :: g, isPrintable d = true ∧ d ≠ '\n' := fun d hd => hp d (.inr (.inl hd))
      have hnext : rest.head?.any isBreak = false := by
        cases rest with
        | nil => rfl
        | cons d rest => exact (Bool.or_eq_false_iff.mp hhead).2
      obtain ⟨n, hn, hline⟩ := single_behind hnext hindent
      rw [single_breaks hg (fun d hd => ⟨hbreaks d hd, (hfeeds d hd).2⟩), hline]
      exact .breaks n hfits hg (fun d hd => ⟨(hfeeds d hd).1, hbreaks d hd, (hfeeds d hd).2⟩) hstart hn hrest

end Writing

end SequencerHub.Yaml

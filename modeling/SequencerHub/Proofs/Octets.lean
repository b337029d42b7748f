import Mathlib.Data.UInt
import SequencerHub.Text.Octets

/-! Text that is encoded as octets is read back from them. -/
namespace SequencerHub.Octets

theorem toNat_ofNat {n : Nat} (h : n < 256) : (UInt8.ofNat n).toNat = n := by
  rw [UInt8.toNat_ofNat', Nat.mod_eq_of_lt (by simpa using h)]

theorem continuation?_ofNat {n : Nat} (h : n < 64) : continuation? (UInt8.ofNat (n + 128)) = some n := by
  obtain ⟨b, hb⟩ : ∃ b, b = UInt8.ofNat (n + 128) := ⟨_, rfl⟩
  have hn : b.toNat = n + 128 := by rw [hb, toNat_ofNat (by omega)]
  have hr : 128 ≤ b.toNat ∧ b.toNat < 192 := by omega
  rw [← hb]
  simpa [continuation?, UInt8.le_iff_toNat_le, UInt8.lt_iff_toNat_lt, hn] using h

theorem charOf?_toNat {c : Char} {least : Nat} (h : least ≤ c.toNat) : charOf? least c.toNat = some c := by
  have hv : c.toNat.isValidChar := c.valid
  simp [charOf?, h, hv]

section First

variable {a b b' b'' : UInt8} {m m' m'' : Nat} (bs : List UInt8)

theorem first?_one (h : a.toNat < 0x80) : first? (a :: bs) = some (Char.ofNat a.toNat, 0) := by
  simp [first?, UInt8.lt_iff_toNat_lt, h]

theorem first?_two (h : 0xc0 ≤ a.toNat ∧ a.toNat < 0xe0) (hb : continuation? b = some m) :
    first? (a :: b :: bs) = (charOf? 0x80 ((a.toNat - 0xc0) * 64 + m)).map (·, 1) := by
  have h₁ : ¬ a.toNat < 128 := by omega
  have h₂ : ¬ a.toNat < 192 := by omega
  simp [first?, UInt8.lt_iff_toNat_lt, h₁, h₂, h.2, hb]

theorem first?_three (h : 0xe0 ≤ a.toNat ∧ a.toNat < 0xf0) (hb : continuation? b = some m)
    (hb' : continuation? b' = some m') :
    first? (a :: b :: b' :: bs) = (charOf? 0x800 (((a.toNat - 0xe0) * 64 + m) * 64 + m')).map (·, 2) := by
  have h₁ : ¬ a.toNat < 128 := by omega
  have h₂ : ¬ a.toNat < 192 := by omega
  have h₃ : ¬ a.toNat < 224 := by omega
  simp [first?, UInt8.lt_iff_toNat_lt, h₁, h₂, h₃, h.2, hb, hb']

theorem first?_four (h : 0xf0 ≤ a.toNat ∧ a.toNat < 0xf8) (hb : continuation? b = some m)
    (hb' : continuation? b' = some m') (hb'' : continuation? b'' = some m'') :
    first? (a :: b :: b' :: b'' :: bs) =
      (charOf? 0x10000 ((((a.toNat - 0xf0) * 64 + m) * 64 + m') * 64 + m'')).map (·, 3) := by
  have h₁ : ¬ a.toNat < 128 := by omega
  have h₂ : ¬ a.toNat < 192 := by omega
  have h₃ : ¬ a.toNat < 224 := by omega
  have h₄ : ¬ a.toNat < 240 := by omega
  simp [first?, UInt8.lt_iff_toNat_lt, h₁, h₂, h₃, h₄, h.2, hb, hb', hb'']

end First

theorem first?_encodeChar (c : Char) (bs : List UInt8) :
    first? (String.utf8EncodeChar c ++ bs) = some (c, (String.utf8EncodeChar c).length - 1) := by
  have hc : c.val.toNat = c.toNat := rfl
  have hmax : c.toNat < 0x110000 := by
    have hv := c.valid
    simp only [UInt32.isValidChar, Nat.isValidChar] at hv
    omega
  unfold String.utf8EncodeChar
  simp only [hc]
  -- One case for each length of the code; the leading octet alone tells the decoder which it is.
  split_ifs with h₁ h₂ h₃
  · have ha : (UInt8.ofNat c.toNat).toNat = c.toNat := toNat_ofNat (by omega)
    rw [List.singleton_append, first?_one bs (by omega), ha, Char.ofNat_toNat]
    rfl
  · have ha : (UInt8.ofNat (c.toNat / 64 % 32 + 192)).toNat = c.toNat / 64 % 32 + 192 := toNat_ofNat (by omega)
    have hcode : (c.toNat / 64 % 32 + 192 - 0xc0) * 64 + c.toNat % 64 = c.toNat := by omega
    simp only [List.cons_append, List.nil_append]
    rw [first?_two bs (by omega) (continuation?_ofNat (Nat.mod_lt _ (by omega))), ha, hcode, charOf?_toNat (by omega)]
    rfl
  · have ha : (UInt8.ofNat (c.toNat / 4096 % 16 + 224)).toNat = c.toNat / 4096 % 16 + 224 := toNat_ofNat (by omega)
    have hcode : ((c.toNat / 4096 % 16 + 224 - 0xe0) * 64 + c.toNat / 64 % 64) * 64 + c.toNat % 64 = c.toNat := by
      omega
    simp only [List.cons_append, List.nil_append]
    rw [first?_three bs (by omega) (continuation?_ofNat (Nat.mod_lt _ (by omega)))
      (continuation?_ofNat (Nat.mod_lt _ (by omega))), ha, hcode, charOf?_toNat (by omega)]
    rfl
  · have ha : (UInt8.ofNat (c.toNat / 262144 % 8 + 240)).toNat = c.toNat / 262144 % 8 + 240 := toNat_ofNat (by omega)
    have hcode : (((c.toNat / 262144 % 8 + 240 - 0xf0) * 64 + c.toNat / 4096 % 64) * 64 + c.toNat / 64 % 64) * 64 +
        c.toNat % 64 = c.toNat := by
      omega
    simp only [List.cons_append, List.nil_append]
    rw [first?_four bs (by omega) (continuation?_ofNat (Nat.mod_lt _ (by omega)))
      (continuation?_ofNat (Nat.mod_lt _ (by omega))) (continuation?_ofNat (Nat.mod_lt _ (by omega))), ha, hcode,
      charOf?_toNat (by omega)]
    rfl

theorem characters_taken (bs rest : List UInt8) : characters bs.length (bs ++ rest) = characters 0 rest := by
  induction bs with
  | nil => rfl
  | cons b bs ih => exact ih

theorem characters_encode (cs : List Char) : characters 0 (encode cs) = cs.map some := by
  induction cs with
  | nil => rfl
  | cons c cs ih =>
    have hf := first?_encodeChar c (encode cs)
    obtain ⟨b, bs, hb⟩ := List.exists_cons_of_ne_nil (String.utf8EncodeChar_ne_nil (c := c))
    rw [hb, List.cons_append] at hf
    rw [encode, List.flatMap_cons, ← encode, hb, List.cons_append, characters, hf]
    simp [characters_taken, ih]

/-- What has been encoded is decoded again. -/
theorem decode?_encode (cs : List Char) : decode? (encode cs) = some cs := by
  rw [decode?, characters_encode]
  induction cs with
  | nil => rfl
  | cons c cs ih => simp [ih]

end SequencerHub.Octets

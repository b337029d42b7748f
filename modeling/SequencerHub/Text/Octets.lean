/-! Text as octets, in the encoding that takes one to four of them for a character. -/
namespace SequencerHub.Octets

def encode (cs : List Char) : List UInt8 := cs.flatMap String.utf8EncodeChar

/-- The six bits of an octet that continues a character. -/
def continuation? (b : UInt8) : Option Nat :=
  if 0x80 ≤ b ∧ b < 0xc0 then some (b.toNat - 0x80) else none

/-- A character with its code at least `least`, which rules out longer spellings than needed. -/
def charOf? (least code : Nat) : Option Char :=
  if least ≤ code ∧ code.isValidChar then some (Char.ofNat code) else none

/-- The character that octets begin with, and how many more octets than one it takes. -/
def first? : List UInt8 → Option (Char × Nat)
  | [] => none
  | a :: bs =>
    if a < 0x80 then some (Char.ofNat a.toNat, 0)
    else if a < 0xc0 then none
    else if a < 0xe0 then do
      let b ← bs.head?.bind continuation?
      (charOf? 0x80 ((a.toNat - 0xc0) * 64 + b)).map (·, 1)
    else if a < 0xf0 then do
      let b ← bs.head?.bind continuation?
      let c ← (bs.drop 1).head?.bind continuation?
      (charOf? 0x800 (((a.toNat - 0xe0) * 64 + b) * 64 + c)).map (·, 2)
    else if a < 0xf8 then do
      let b ← bs.head?.bind continuation?
      let c ← (bs.drop 1).head?.bind continuation?
      let d ← (bs.drop 2).head?.bind continuation?
      (charOf? 0x10000 ((((a.toNat - 0xf0) * 64 + b) * 64 + c) * 64 + d)).map (·, 3)
    else none

/-- The characters of octets; an octet that belongs to no character is kept as nothing. The first
`taken` octets belong to a character that has been read. -/
def characters (taken : Nat) : List UInt8 → List (Option Char)
  | [] => []
  | b :: bs =>
    match taken with
    | taken + 1 => characters taken bs
    | 0 =>
      match first? (b :: bs) with
      | some (c, more) => some c :: characters more bs
      | none => none :: characters 0 bs

/-- The text of octets, if they are text throughout. -/
def decode? (bytes : List UInt8) : Option (List Char) := (characters 0 bytes).mapM id

end SequencerHub.Octets

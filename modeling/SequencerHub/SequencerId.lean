/-! Identifiers of sequencers: 128-bit numbers, written as five groups of hexadecimal digits. -/
namespace SequencerHub

structure SequencerId where
  val : Nat
  lt : val < 0x100000000000000000000000000000000
  deriving DecidableEq

namespace SequencerId

instance : Inhabited SequencerId := ⟨⟨0, by decide⟩⟩

instance : Ord SequencerId := ⟨fun a b => compare a.val b.val⟩

def ofNat (n : Nat) : SequencerId := ⟨n % 0x100000000000000000000000000000000, Nat.mod_lt n (by decide)⟩

def groups : List Nat := [8, 4, 4, 4, 12]

/-- The lowest `count` hexadecimal digits of a number, highest first. -/
def hexDigits : Nat → Nat → List Char
  | 0, _ => []
  | count + 1, n => hexDigits count (n / 16) ++ [Nat.digitChar (n % 16)]

def hyphenate : List Nat → List Char → List Char
  | [], ds => ds
  | [size], ds => ds.take size
  | size :: more, ds => ds.take size ++ '-' :: hyphenate more (ds.drop size)

def digits (id : SequencerId) : List Char := hexDigits 32 id.val

def chars (id : SequencerId) : List Char := hyphenate groups id.digits

def toText (id : SequencerId) : String := String.ofList id.chars

instance : ToString SequencerId := ⟨toText⟩

end SequencerId
end SequencerHub

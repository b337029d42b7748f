import SequencerHub.Backend.Basic

/-! The placeholder backend: it keeps nothing but its configuration and adds numbers. -/
namespace SequencerHub.Dummy

def typeName : String := "dummy"

def sum (x y : Int32) : Outcome Int32 :=
  match checkedSum x y with
  | some s => .ok s
  | none => .failed ⟨s!"sum of {x.toInt} and {y.toInt} overflows a 32-bit integer", []⟩

def backend : Backend where
  sayHello := fun _ => ⟨[.log .helloWorld], none⟩
  computeSum := fun _ x y => ⟨[], sum x y⟩
  destroy := fun _ => ⟨[], .ok true⟩

def constructor (how : Construction) : Constructor := fun _ args =>
  ⟨[.log (.dummyMade how args.providerId)], .ok backend⟩

/-- There is no outside state, so both constructors do the same. -/
def constructors : Constructors := ⟨constructor .create, constructor .attach⟩

end SequencerHub.Dummy

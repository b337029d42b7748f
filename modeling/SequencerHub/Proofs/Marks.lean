import Mathlib.Tactic
import SequencerHub.Decode.Tagged

/-! Marks tell where something is wrong, never whether something is. What a reader makes of a tree is the same
without them. -/
namespace SequencerHub

variable {μ α β τ : Type}

mutual

def Node.bare : Node μ → Node Unit
  | .scalar v _ _ => .scalar v () ()
  | .plain t v _ _ => .plain t v () ()
  | .list _ items => .list () items.bare
  | .object _ members => .object () members.bare
  | .broken _ f _ => .broken () f ()

def Items.bare : Items μ → Items Unit
  | .item v rest => .item v.bare rest.bare
  | .done _ => .done ()
  | .broken f _ => .broken f ()

def Members.bare : Members μ → Members Unit
  | .member key _ _ v _ rest => .member key () () v.bare () rest.bare
  | .keyless found f _ => .keyless found.bare f ()
  | .done _ => .done ()
  | .broken f _ => .broken f ()

end

section Outcome

variable {ε : Type}

@[simp] theorem toOption_ok (a : α) : (Except.ok a : Except ε α).toOption = some a := rfl

@[simp] theorem toOption_error (e : ε) : (Except.error e : Except ε α).toOption = none := rfl

@[simp] theorem ok_bind (a : α) (f : α → Except ε β) : (Except.ok a >>= f) = f a := rfl

@[simp] theorem toOption_bind (x : Except ε α) (f : α → Except ε β) :
    (x >>= f).toOption = x.toOption.bind fun a => (f a).toOption := by
  cases x <;> rfl

@[simp] theorem toOption_inPart (s : Segment) (x : Decoded μ α) : (inPart s x).toOption = x.toOption := by
  cases x <;> rfl

theorem toOption_eq_some {x : Except ε α} {a : α} : x.toOption = some a ↔ x = .ok a := by
  cases x <;> simp

end Outcome

theorem Node.text_bare (expected : String) (n : Node μ) :
    (n.bare.text expected).toOption = (n.text expected).toOption := by
  cases n with
  | scalar v start stop => cases v <;> rfl
  | _ => rfl

mutual

theorem Node.toJson_bare (n : Node μ) : n.bare.toJson.toOption = n.toJson.toOption := by
  cases n with
  | scalar v start stop => rfl
  | plain t v start stop => rfl
  | list start items => simp [Node.bare, Node.toJson, items.toJson_bare 0]
  | object start members => simp [Node.bare, Node.toJson, members.toJson_bare]
  | broken start f place => rfl

theorem Items.toJson_bare (index : Nat) (items : Items μ) :
    (items.bare.toJson index).toOption = (items.toJson index).toOption := by
  cases items with
  | item v rest => simp [Items.bare, Items.toJson, v.toJson_bare, rest.toJson_bare (index + 1)]
  | done stop => rfl
  | broken f place => rfl

theorem Members.toJson_bare (members : Members μ) : members.bare.toJson.toOption = members.toJson.toOption := by
  cases members with
  | member key keyStop keyEnd v next rest => simp [Members.bare, Members.toJson, v.toJson_bare, rest.toJson_bare]
  | keyless found f place => rfl
  | done stop => rfl
  | broken f place => rfl

end

namespace Choice

@[simp] theorem named_toOption (c : Choice α) (name : String) (place : μ) :
    (c.named name place).toOption = c.find? name := by
  rw [named]
  cases c.find? name <;> rfl

end Choice

namespace Tag

variable (t : Tag τ)

theorem readName_bare (n : Node μ) : (t.readName n.bare).toOption = (t.readName n).toOption := by
  simp [readName, n.text_bare]

theorem readMembers_bare (tag : Option τ) (aside : List (String × Json)) (members : Members μ) :
    (t.readMembers tag aside members.bare).toOption = (t.readMembers tag aside members).toOption := by
  cases members with
  | member key keyStop keyEnd v next rest =>
    simp only [Members.bare, readMembers]
    split_ifs with hk
    · cases tag with
      | some tag => rfl
      | none =>
        have hn := t.readName_bare v
        simp only [inPart]
        cases hb : t.readName v.bare <;> cases hv : t.readName v <;> simp_all [readMembers_bare]
    · have hj := v.toJson_bare
      simp only [inPart]
      cases hb : v.bare.toJson <;> cases hv : v.toJson <;> simp_all [readMembers_bare]
  | keyless found f place => rfl
  | done stop => cases tag <;> rfl
  | broken f place => rfl

theorem split_bare (n : Node μ) : (t.split n.bare).toOption = (t.split n).toOption := by
  cases n with
  | scalar v start stop => rfl
  | plain text v start stop => rfl
  | list start items =>
    cases items with
    | item v rest => simp [Node.bare, Items.bare, split, t.readName_bare, rest.toJson_bare]
    | done stop => rfl
    | broken f place => rfl
  | object start members => exact t.readMembers_bare none [] members
  | broken start f place => rfl

/-- Whether a tagged value is read, and as what, does not depend on the marks. -/
theorem read_bare (form : τ → Node Unit → Decoded Unit α) (n : Node μ) :
    (t.read form n.bare).toOption = (t.read form n).toOption := by
  have hread : ∀ {ν : Type} (n : Node ν), (t.read form n).toOption =
      (t.split n).toOption.bind fun x => (form x.1 x.2.toNode).toOption := by
    intro ν n
    rw [read, toOption_bind]
    congr 1
    funext x
    obtain ⟨tag, content⟩ := x
    dsimp only
    cases form tag content.toNode <;> rfl
  rw [hread, hread, t.split_bare]

end Tag

mutual

theorem Node.toJson_ofJson (j : Json) : (Node.ofJson j).toJson = .ok j := by
  cases j with
  | array items => simp [Node.ofJson, Node.toJson, Items.toJson_ofJson 0 items]
  | object members => simp [Node.ofJson, Node.toJson, Members.toJson_ofJson members]
  | _ => rfl

theorem Items.toJson_ofJson (index : Nat) (items : List Json) : (Items.ofJson items).toJson index = .ok items := by
  cases items with
  | nil => rfl
  | cons j more => simp [Items.ofJson, Items.toJson, Node.toJson_ofJson j, Items.toJson_ofJson (index + 1) more, inPart]

theorem Members.toJson_ofJson (members : List (String × Json)) : (Members.ofJson members).toJson = .ok members := by
  cases members with
  | nil => rfl
  | cons m more =>
    obtain ⟨k, j⟩ := m
    simp [Members.ofJson, Members.toJson, Node.toJson_ofJson j, Members.toJson_ofJson more, inPart]

end

end SequencerHub

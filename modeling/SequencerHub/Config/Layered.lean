import SequencerHub.Tree

/-! Settings from several layers. Every value knows the layer it comes from; where two layers both have an object their
members are merged, elsewhere the later layer counts. -/
namespace SequencerHub

inductive Layer
  | defaults
  | file
  | environment
  deriving DecidableEq, Repr

inductive Setting
  | scalar (value : Scalar) (layer : Layer)
  | list (items : List Setting) (layer : Layer)
  | dict (members : List (String × Setting)) (layer : Layer)

namespace Setting

def put (key : String) (v : Setting) : List (String × Setting) → List (String × Setting)
  | [] => [(key, v)]
  | (k, w) :: more =>
    if key < k then (key, v) :: (k, w) :: more
    else if key = k then (key, v) :: more
    else (k, w) :: put key v more

def find? (key : String) (members : List (String × Setting)) : Option Setting :=
  (members.find? (·.1 = key)).map (·.2)

mutual

/-- The later value over the earlier one. -/
def merge (earlier : Setting) : Setting → Setting
  | .dict later layer =>
    match earlier with
    | .dict members _ => .dict (mergeMembers members later) layer
    | _ => .dict later layer
  | later => later

def mergeMembers (earlier : List (String × Setting)) :
    List (String × Setting) → List (String × Setting)
  | [] => earlier
  | (key, v) :: more =>
    let merged := match find? key earlier with
      | some w => merge w v
      | none => v
    mergeMembers (put key merged earlier) more

end

mutual

/-- The tree for typed readers; a value's mark is its layer. -/
def toNode : Setting → Node Layer
  | .scalar v layer => .scalar v layer layer
  | .list items layer => .list layer (toItems layer items)
  | .dict members layer => .object layer (toMembers layer members)

def toItems (layer : Layer) : List Setting → Items Layer
  | [] => .done layer
  | v :: more => .item v.toNode (toItems layer more)

def toMembers (layer : Layer) : List (String × Setting) → Members Layer
  | [] => .done layer
  | (key, v) :: more =>
    let n := v.toNode
    .member key n.start n.start n n.start (toMembers layer more)

end

mutual

def ofJson (layer : Layer) : Json → Setting
  | .null => .scalar .null layer
  | .bool b => .scalar (.bool b) layer
  | .number n => .scalar (.number n) layer
  | .string s => .scalar (.string s) layer
  | .array items => .list (ofItems layer items) layer
  | .object members => .dict (ofMembers layer [] members) layer

def ofItems (layer : Layer) : List Json → List Setting
  | [] => []
  | j :: more => ofJson layer j :: ofItems layer more

def ofMembers (layer : Layer) (sorted : List (String × Setting)) :
    List (String × Json) → List (String × Setting)
  | [] => sorted
  | (key, j) :: more => ofMembers layer (put key (ofJson layer j) sorted) more

end

end Setting
end SequencerHub

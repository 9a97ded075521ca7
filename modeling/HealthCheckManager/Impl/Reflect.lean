import Mathlib.Data.List.Basic

/-!
# `reflect.DeepEqual`

The predicates decide whether an update matters by comparing the old and new
object with `reflect.DeepEqual`: the labels of a cluster, the `Spec` of a
`HealthCheckReport` or a `HealthCheck`, the `Status.FeatureSummaries` of a
`ClusterSummary`. This is Go's `deepValueEqual` over the kinds those types are
made of: scalars (bools, integers, strings, compared with `==`), slices and
pointers that may be nil, structs, and maps with `string` keys that may be nil.
The API types have no float, function, channel or interface field, and their
values are finite trees, so neither the `NaN` case nor the cycle guard of
`deepValueEqual` can change a result.

A Go map has distinct keys; `Value.WellFormed` says so of every map in a
value, and `GoValue` and `GoMap` carry it, so that an ill-formed map cannot be
built.
-/

namespace HCM

/-- The kinds `deepValueEqual` compares with `==` (its `default` case). -/
inductive Scalar where
  | bool (b : Bool)
  | int (i : Int)
  | uint (n : Nat)
  | string (s : String)
  deriving DecidableEq, Repr

/-- A Go value seen through reflection. `none` is a nil slice, pointer or map;
map entries are in iteration order. -/
inductive Value where
  | scalar (x : Scalar)
  | slice (elems : Option (List Value))
  | pointer (elem : Option Value)
  | struct (fields : List Value)
  | map (entries : Option (List (String × Value)))

namespace Value

mutual
/-- `deepValueEqual`: nil and non-nil never match; slices and structs compare
element by element, pointers by what they point to; maps of equal length
match when every key of the first has a deeply equal value in the second
(`MapIndex`). -/
def deepValueEqual : Value → Value → Bool
  | .scalar x, .scalar y => x == y
  | .slice none, .slice none => true
  | .slice (some xs), .slice (some ys) => elemsEqual xs ys
  | .pointer none, .pointer none => true
  | .pointer (some x), .pointer (some y) => deepValueEqual x y
  | .struct xs, .struct ys => elemsEqual xs ys
  | .map none, .map none => true
  | .map (some m₁), .map (some m₂) => m₁.length == m₂.length && entriesEqual m₁ m₂
  | _, _ => false

/-- Elements (or fields) pairwise, and the same number of them. -/
def elemsEqual : List Value → List Value → Bool
  | [], [] => true
  | x :: xs, y :: ys => deepValueEqual x y && elemsEqual xs ys
  | _, _ => false

/-- The loop over `MapRange` of the first map. -/
def entriesEqual : List (String × Value) → List (String × Value) → Bool
  | [], _ => true
  | (k, v) :: m₁, m₂ =>
    (match m₂.lookup k with
     | some w => deepValueEqual v w
     | none => false) && entriesEqual m₁ m₂
end

mutual
/-- Every map in the value has distinct keys. -/
def WellFormed : Value → Prop
  | .scalar _ => True
  | .slice none => True
  | .slice (some xs) => ElemsWellFormed xs
  | .pointer none => True
  | .pointer (some x) => WellFormed x
  | .struct xs => ElemsWellFormed xs
  | .map none => True
  | .map (some m) => (m.map Prod.fst).Nodup ∧ EntriesWellFormed m

def ElemsWellFormed : List Value → Prop
  | [] => True
  | x :: xs => WellFormed x ∧ ElemsWellFormed xs

def EntriesWellFormed : List (String × Value) → Prop
  | [] => True
  | (_, v) :: m => WellFormed v ∧ EntriesWellFormed m
end

theorem entriesWellFormed_strings :
    ∀ m : List (String × String), EntriesWellFormed (m.map fun e => (e.1, .scalar (.string e.2)))
  | [] => trivial
  | _ :: m => ⟨trivial, entriesWellFormed_strings m⟩

end Value

/-- A value of an API type compared whole (a `Spec`, `Status.FeatureSummaries`). -/
structure GoValue where
  val : Value
  wellFormed : val.WellFormed

/-- A Go `map[string]β`: its entries in iteration order, keys distinct. -/
structure GoMap (β : Type) where
  entries : List (String × β)
  nodupKeys : (entries.map Prod.fst).Nodup

/-- The types the predicates pass to `reflect.DeepEqual`, with `reflect.ValueOf`;
a value of a Go type is well formed. -/
class ToValue (α : Type) where
  valueOf : α → Value
  wellFormed_valueOf (x : α) : (valueOf x).WellFormed

instance : ToValue GoValue := ⟨GoValue.val, GoValue.wellFormed⟩

/-- `ObjectMeta.Labels`, a `map[string]string`; `none` is the nil map. -/
instance : ToValue (Option (GoMap String)) where
  valueOf l := .map (l.map fun m => m.entries.map fun e => (e.1, .scalar (.string e.2)))
  wellFormed_valueOf
    | none => trivial
    | some m => ⟨by simpa [Function.comp_def] using m.nodupKeys, Value.entriesWellFormed_strings _⟩

/-- `reflect.DeepEqual` on two values of one type. -/
def deepEqual {α : Type} [ToValue α] (x y : α) : Bool :=
  Value.deepValueEqual (ToValue.valueOf x) (ToValue.valueOf y)

end HCM

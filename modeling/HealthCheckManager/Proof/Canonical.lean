import Mathlib.Data.List.Sort
import Mathlib.Data.String.Basic
import HealthCheckManager.Proof.DeepEqual

/-!
# What `reflect.DeepEqual` decides

`deepValueEqual` decides, with a length check and a loop of lookups, that two
values are the same tree up to the order of map entries. `Value.canonical` is
that tree with the entries of every map, at any depth, sorted by key; it keeps
every nil, so a nil map or slice and an empty one keep different canonical
forms. On well-formed values:

* `deepValueEqual_canonical`: a value is deeply equal to its canonical form,
  both ways;
* `canonical_eq_of_deepValueEqual`: deeply equal values have one canonical form,
  since entries with distinct keys, once sorted, are determined by their lookups
  (`insertionSort_eq_of_lookup_eq`);
* `deepValueEqual_iff_canonical_eq`: the two together.
-/

namespace HCM.Value

/-- Map entries ordered by key. -/
def KeyLE (a b : String × Value) : Prop := a.1 ≤ b.1

/-- Decided on the keys' characters, so that `canonical` evaluates by `rfl`. -/
instance : DecidableRel KeyLE := fun a b =>
  decidable_of_iff (¬b.1.data < a.1.data) (not_congr String.lt_iff_toList_lt).symm

instance : IsTotal (String × Value) KeyLE := ⟨fun a b => le_total a.1 b.1⟩

instance : IsTrans (String × Value) KeyLE := ⟨fun _ _ _ => le_trans⟩

mutual
/-- The value with the entries of every map in it sorted by key. -/
def canonical : Value → Value
  | .scalar x => .scalar x
  | .slice none => .slice none
  | .slice (some xs) => .slice (some (canonicalElems xs))
  | .pointer none => .pointer none
  | .pointer (some x) => .pointer (some x.canonical)
  | .struct xs => .struct (canonicalElems xs)
  | .map none => .map none
  | .map (some m) => .map (some ((canonicalEntries m).insertionSort KeyLE))

def canonicalElems : List Value → List Value
  | [] => []
  | x :: xs => x.canonical :: canonicalElems xs

def canonicalEntries : List (String × Value) → List (String × Value)
  | [] => []
  | (k, v) :: m => (k, v.canonical) :: canonicalEntries m
end

example : (Value.map (some [("b", .scalar (.int 2)), ("a", .slice none)])).canonical =
    .map (some [("a", .slice none), ("b", .scalar (.int 2))]) := by
  rfl

/-! ## Sorted entries -/

section Sorted

variable {m l l₁ l₂ : List (String × Value)} {k : String}

@[simp] theorem canonicalEntries_keys : (canonicalEntries m).map Prod.fst = m.map Prod.fst := by
  induction m with
  | nil => rfl
  | cons e m ih => obtain ⟨k, v⟩ := e; exact congrArg (k :: ·) ih

@[simp] theorem lookup_canonicalEntries : (canonicalEntries m).lookup k = (m.lookup k).map canonical := by
  induction m with
  | nil => rfl
  | cons e m ih =>
    obtain ⟨k', v⟩ := e
    show ((k', v.canonical) :: canonicalEntries m).lookup k = _
    rw [List.lookup_cons, List.lookup_cons]
    cases k == k' <;> simp [ih]

theorem lookup_eq_of_perm (hp : l₁.Perm l₂) (hn : (l₁.map Prod.fst).Nodup) :
    l₁.lookup k = l₂.lookup k :=
  have hn₂ : (l₂.map Prod.fst).Nodup := (hp.map Prod.fst).nodup_iff.mp hn
  Option.ext fun _ => ⟨fun h => lookup_eq_some_of_mem hn₂ (hp.subset (mem_of_lookup_eq_some h)),
    fun h => lookup_eq_some_of_mem hn (hp.symm.subset (mem_of_lookup_eq_some h))⟩

theorem keys_insertionSort_nodup (hn : (l.map Prod.fst).Nodup) :
    ((l.insertionSort KeyLE).map Prod.fst).Nodup :=
  ((List.perm_insertionSort KeyLE l).map Prod.fst).nodup_iff.mpr hn

/-- Sorting entries with distinct keys orders them strictly by key. -/
theorem sorted_lt_insertionSort (hn : (l.map Prod.fst).Nodup) :
    (l.insertionSort KeyLE).Sorted fun a b => a.1 < b.1 :=
  (List.sorted_insertionSort KeyLE l).imp₂ (fun _ _ => lt_of_le_of_ne)
    (List.pairwise_map.mp (keys_insertionSort_nodup hn))

/-- Entries with distinct keys, once sorted, are determined by their lookups. -/
theorem insertionSort_eq_of_lookup_eq (hn₁ : (l₁.map Prod.fst).Nodup)
    (hn₂ : (l₂.map Prod.fst).Nodup) (h : ∀ k, l₁.lookup k = l₂.lookup k) :
    l₁.insertionSort KeyLE = l₂.insertionSort KeyLE := by
  have : IsAntisymm (String × Value) fun a b => a.1 < b.1 :=
    ⟨fun _ _ h₁ h₂ => absurd (h₁.trans h₂) (lt_irrefl _)⟩
  have hp : l₁.Perm l₂ := (List.perm_ext_iff_of_nodup (hn₁.of_map _) (hn₂.of_map _)).mpr
    fun ⟨k, _⟩ => ⟨fun hv => mem_of_lookup_eq_some ((h k).symm.trans (lookup_eq_some_of_mem hn₁ hv)),
      fun hv => mem_of_lookup_eq_some ((h k).trans (lookup_eq_some_of_mem hn₂ hv))⟩
  exact List.eq_of_perm_of_sorted
    (((List.perm_insertionSort _ _).trans hp).trans (List.perm_insertionSort _ _).symm)
    (sorted_lt_insertionSort hn₁) (sorted_lt_insertionSort hn₂)

/-- The canonical entries of a map, looked up. -/
theorem lookup_insertionSort_canonicalEntries (hn : (m.map Prod.fst).Nodup) :
    ((canonicalEntries m).insertionSort KeyLE).lookup k = (m.lookup k).map canonical :=
  (lookup_eq_of_perm (List.perm_insertionSort KeyLE _)
    (keys_insertionSort_nodup (canonicalEntries_keys.symm ▸ hn))).trans lookup_canonicalEntries

end Sorted

theorem rel_map_self {r : Value → Value → Prop} {f : Value → Value} {o : Option Value}
    (h : ∀ v, o = some v → r v (f v) ∧ r (f v) v) :
    Option.Rel r o (o.map f) ∧ Option.Rel r (o.map f) o := by
  cases o with
  | none => exact ⟨.none, .none⟩
  | some v => exact ⟨.some (h v rfl).1, .some (h v rfl).2⟩

theorem rel_map_eq {r : Value → Value → Prop} {f : Value → Value} {o₁ o₂ : Option Value}
    (h : Option.Rel r o₁ o₂) (hf : ∀ v w, o₁ = some v → o₂ = some w → r v w → f v = f w) :
    o₁.map f = o₂.map f := by
  cases h with
  | none => rfl
  | some hvw => exact congrArg some (hf _ _ rfl rfl hvw)

/-! ## Deep equality and canonical forms -/

mutual
theorem deepValueEqual_canonical : ∀ (a : Value), a.WellFormed →
    deepValueEqual a a.canonical = true ∧ deepValueEqual a.canonical a = true
  | .scalar _, _ => ⟨deepValueEqual_scalar.mpr rfl, deepValueEqual_scalar.mpr rfl⟩
  | .slice none, _ | .pointer none, _ | .map none, _ => ⟨rfl, rfl⟩
  | .slice (some xs), h =>
    have hx := elemsEqual_canonical xs h
    ⟨deepValueEqual_slice_some.mpr ⟨_, rfl, hx.1⟩, deepValueEqual_slice_some.mpr ⟨_, rfl, hx.2⟩⟩
  | .pointer (some x), h =>
    have hx := deepValueEqual_canonical x h
    ⟨deepValueEqual_pointer_some.mpr ⟨_, rfl, hx.1⟩, deepValueEqual_pointer_some.mpr ⟨_, rfl, hx.2⟩⟩
  | .struct xs, h =>
    have hx := elemsEqual_canonical xs h
    ⟨deepValueEqual_struct.mpr ⟨_, rfl, hx.1⟩, deepValueEqual_struct.mpr ⟨_, rfl, hx.2⟩⟩
  | .map (some m), h => by
    have hn := keys_insertionSort_nodup (canonicalEntries_keys.symm ▸ h.1)
    have hr (k : String) := rel_map_self (r := fun v w => deepValueEqual v w = true)
      (f := canonical) fun v hv => entries_canonical m h.2 (_, v) (mem_of_lookup_eq_some (k := k) hv)
    refine ⟨(deepValueEqual_map_iff h.1 hn).mpr fun k => ?_, (deepValueEqual_map_iff hn h.1).mpr fun k => ?_⟩
    · exact lookup_insertionSort_canonicalEntries h.1 ▸ (hr k).1
    · exact lookup_insertionSort_canonicalEntries h.1 ▸ (hr k).2

theorem elemsEqual_canonical : ∀ (xs : List Value), ElemsWellFormed xs →
    elemsEqual xs (canonicalElems xs) = true ∧ elemsEqual (canonicalElems xs) xs = true
  | [], _ => ⟨rfl, rfl⟩
  | x :: xs, h =>
    have hx := deepValueEqual_canonical x h.1
    have hxs := elemsEqual_canonical xs h.2
    ⟨elemsEqual_cons.mpr ⟨_, _, rfl, hx.1, hxs.1⟩, elemsEqual_cons.mpr ⟨_, _, rfl, hx.2, hxs.2⟩⟩

theorem entries_canonical : ∀ (m : List (String × Value)), EntriesWellFormed m → ∀ e ∈ m,
    deepValueEqual e.2 e.2.canonical = true ∧ deepValueEqual e.2.canonical e.2 = true
  | [], _, _, he => absurd he (List.not_mem_nil _)
  | (_, v) :: m, h, e, he => by
    rcases List.mem_cons.mp he with rfl | he
    · exact deepValueEqual_canonical v h.1
    · exact entries_canonical m h.2 e he
end

mutual
theorem canonical_eq_of_deepValueEqual : ∀ (a : Value) {b : Value}, a.WellFormed →
    b.WellFormed → deepValueEqual a b = true → a.canonical = b.canonical
  | .scalar _, _, _, _, h => by rw [deepValueEqual_scalar.mp h]
  | .slice none, _, _, _, h => by rw [deepValueEqual_slice_none.mp h]
  | .pointer none, _, _, _, h => by rw [deepValueEqual_pointer_none.mp h]
  | .map none, _, _, _, h => by rw [deepValueEqual_map_none.mp h]
  | .slice (some xs), _, ha, hb, h => by
    obtain ⟨ys, rfl, h⟩ := deepValueEqual_slice_some.mp h
    exact congrArg (slice ∘ some) (canonicalElems_eq_of_elemsEqual xs ha hb h)
  | .pointer (some x), _, ha, hb, h => by
    obtain ⟨y, rfl, h⟩ := deepValueEqual_pointer_some.mp h
    exact congrArg (pointer ∘ some) (canonical_eq_of_deepValueEqual x ha hb h)
  | .struct xs, _, ha, hb, h => by
    obtain ⟨ys, rfl, h⟩ := deepValueEqual_struct.mp h
    exact congrArg struct (canonicalElems_eq_of_elemsEqual xs ha hb h)
  | .map (some m₁), _, ha, hb, h => by
    obtain ⟨m₂, rfl, -⟩ := deepValueEqual_map_some.mp h
    refine congrArg (map ∘ some) (insertionSort_eq_of_lookup_eq (canonicalEntries_keys.symm ▸ ha.1)
      (canonicalEntries_keys.symm ▸ hb.1) fun k => ?_)
    rw [lookup_canonicalEntries, lookup_canonicalEntries]
    exact rel_map_eq ((deepValueEqual_map_iff ha.1 hb.1).mp h k) fun v w hv hw =>
      entries_canonical_eq m₁ ha.2 (k, v) (mem_of_lookup_eq_some hv)
        (entriesWellFormed_mem hb.2 (mem_of_lookup_eq_some hw))
termination_by structural a => a

theorem canonicalElems_eq_of_elemsEqual : ∀ (xs : List Value) {ys : List Value},
    ElemsWellFormed xs → ElemsWellFormed ys → elemsEqual xs ys = true →
      canonicalElems xs = canonicalElems ys
  | [], _, _, _, h => by rw [elemsEqual_nil.mp h]
  | x :: xs, _, ha, hb, h => by
    obtain ⟨y, ys, rfl, hx, h⟩ := elemsEqual_cons.mp h
    exact congrArg₂ List.cons (canonical_eq_of_deepValueEqual x ha.1 hb.1 hx)
      (canonicalElems_eq_of_elemsEqual xs ha.2 hb.2 h)
termination_by structural xs => xs

theorem entries_canonical_eq : ∀ (m : List (String × Value)), EntriesWellFormed m → ∀ e ∈ m,
    ∀ {w : Value}, w.WellFormed → deepValueEqual e.2 w = true → e.2.canonical = w.canonical
  | [], _, _, he, _, _, _ => absurd he (List.not_mem_nil _)
  | (_, v) :: m, h, e, he, _, hw, hd => by
    rcases List.mem_cons.mp he with rfl | he
    · exact canonical_eq_of_deepValueEqual v h.1 hw hd
    · exact entries_canonical_eq m h.2 e he hw hd
termination_by structural m => m
end

/-- On well-formed values, `deepValueEqual` is equality of canonical forms. -/
theorem deepValueEqual_iff_canonical_eq {a b : Value} (ha : a.WellFormed) (hb : b.WellFormed) :
    deepValueEqual a b = true ↔ a.canonical = b.canonical :=
  ⟨canonical_eq_of_deepValueEqual a ha hb, fun h =>
    deepValueEqual_trans a (deepValueEqual_canonical a ha).1 (h ▸ (deepValueEqual_canonical b hb).2)⟩

end HCM.Value

namespace HCM

theorem deepEqual_iff_canonical_eq {α : Type} [ToValue α] {x y : α} :
    deepEqual x y = true ↔ (ToValue.valueOf x).canonical = (ToValue.valueOf y).canonical :=
  Value.deepValueEqual_iff_canonical_eq (ToValue.wellFormed_valueOf x) (ToValue.wellFormed_valueOf y)

end HCM

import Mathlib.Data.List.Perm.Subperm
import HealthCheckManager.Impl.Reflect

/-!
# `reflect.DeepEqual` is an equivalence

What the run theorems need of `deepValueEqual`: on well-formed values it is
reflexive, symmetric and transitive (`deepValueEqual_refl`,
`deepValueEqual_symm`, `deepValueEqual_trans`, the last with no
well-formedness at all), so `deepEqual` is an equivalence on the values of
every Go type (`deepEqual_equivalence`). Each is one `mutual` induction over
the value and its lists of elements and entries, from one inversion lemma per
constructor.

Two maps compare as key/value functions: two non-nil maps are deeply equal
exactly when each key is absent from both or has deeply equal values in both
(`deepValueEqual_map_iff`), whatever the order of their entries. For labels
this is `deepEqual_labels_iff`: both nil, or both non-nil with the same
key/value pairs.
-/

namespace HCM.Value

/-! ## Inversion -/

@[simp] theorem deepValueEqual_scalar {x : Scalar} {b : Value} :
    deepValueEqual (.scalar x) b = true ↔ b = .scalar x := by
  rcases b with y | _ | _ | _ | _ <;>
    first
    | exact iff_of_false Bool.false_ne_true nofun
    | exact beq_iff_eq.trans (by rw [Value.scalar.injEq, eq_comm])

@[simp] theorem deepValueEqual_slice_none {b : Value} :
    deepValueEqual (.slice none) b = true ↔ b = .slice none := by
  rcases b with _ | (_ | ys) | _ | _ | _ <;>
    first
    | exact iff_of_false Bool.false_ne_true nofun
    | exact iff_of_true rfl rfl

@[simp] theorem deepValueEqual_slice_some {xs : List Value} {b : Value} :
    deepValueEqual (.slice (some xs)) b = true ↔
      ∃ ys, b = .slice (some ys) ∧ elemsEqual xs ys = true := by
  rcases b with _ | (_ | ys) | _ | _ | _ <;>
    first
    | exact iff_of_false Bool.false_ne_true nofun
    | exact ⟨fun h => ⟨ys, rfl, h⟩, fun ⟨_, h, h'⟩ => by cases h; exact h'⟩

@[simp] theorem deepValueEqual_pointer_none {b : Value} :
    deepValueEqual (.pointer none) b = true ↔ b = .pointer none := by
  rcases b with _ | _ | (_ | y) | _ | _ <;>
    first
    | exact iff_of_false Bool.false_ne_true nofun
    | exact iff_of_true rfl rfl

@[simp] theorem deepValueEqual_pointer_some {x b : Value} :
    deepValueEqual (.pointer (some x)) b = true ↔
      ∃ y, b = .pointer (some y) ∧ deepValueEqual x y = true := by
  rcases b with _ | _ | (_ | y) | _ | _ <;>
    first
    | exact iff_of_false Bool.false_ne_true nofun
    | exact ⟨fun h => ⟨y, rfl, h⟩, fun ⟨_, h, h'⟩ => by cases h; exact h'⟩

@[simp] theorem deepValueEqual_struct {xs : List Value} {b : Value} :
    deepValueEqual (.struct xs) b = true ↔ ∃ ys, b = .struct ys ∧ elemsEqual xs ys = true := by
  rcases b with _ | _ | _ | ys | _ <;>
    first
    | exact iff_of_false Bool.false_ne_true nofun
    | exact ⟨fun h => ⟨ys, rfl, h⟩, fun ⟨_, h, h'⟩ => by cases h; exact h'⟩

@[simp] theorem deepValueEqual_map_none {b : Value} :
    deepValueEqual (.map none) b = true ↔ b = .map none := by
  rcases b with _ | _ | _ | _ | (_ | m) <;>
    first
    | exact iff_of_false Bool.false_ne_true nofun
    | exact iff_of_true rfl rfl

@[simp] theorem deepValueEqual_map_some {m : List (String × Value)} {b : Value} :
    deepValueEqual (.map (some m)) b = true ↔
      ∃ m', b = .map (some m') ∧ m.length = m'.length ∧ entriesEqual m m' = true := by
  rcases b with _ | _ | _ | _ | (_ | m') <;>
    first
    | exact iff_of_false Bool.false_ne_true nofun
    | exact (Bool.and_eq_true_iff.trans (and_congr_left' beq_iff_eq)).trans
        ⟨fun h => ⟨m', rfl, h⟩, fun ⟨_, h, h'⟩ => by cases h; exact h'⟩

@[simp] theorem elemsEqual_nil {ys : List Value} : elemsEqual [] ys = true ↔ ys = [] := by
  cases ys
  · exact iff_of_true rfl rfl
  · exact iff_of_false Bool.false_ne_true nofun

@[simp] theorem elemsEqual_cons {x : Value} {xs ys : List Value} :
    elemsEqual (x :: xs) ys = true ↔
      ∃ y ys', ys = y :: ys' ∧ deepValueEqual x y = true ∧ elemsEqual xs ys' = true := by
  cases ys with
  | nil => exact iff_of_false Bool.false_ne_true nofun
  | cons y ys =>
    exact Bool.and_eq_true_iff.trans ⟨fun h => ⟨y, ys, rfl, h⟩, fun ⟨_, _, h, h'⟩ => by
      cases h; exact h'⟩

/-! ## Map entries -/

section Entries

variable {m m₁ m₂ : List (String × Value)} {k : String} {v : Value}

theorem mem_of_lookup_eq_some (h : m.lookup k = some v) : (k, v) ∈ m := by
  obtain ⟨l₁, l₂, rfl, -⟩ := List.lookup_eq_some_iff.mp h
  simp

theorem lookup_eq_some_of_mem (hn : (m.map Prod.fst).Nodup) (h : (k, v) ∈ m) :
    m.lookup k = some v := by
  induction m with
  | nil => simp at h
  | cons e m ih =>
    obtain ⟨k', v'⟩ := e
    simp only [List.map_cons, List.nodup_cons, List.mem_map] at hn
    rcases List.mem_cons.mp h with h | h
    · cases h; simp
    · have hk : k ≠ k' := fun he => hn.1 ⟨_, h, he⟩
      rw [List.lookup_cons, beq_false_of_ne hk]
      exact ih hn.2 h

theorem lookup_isSome_iff_mem_keys : (m.lookup k).isSome ↔ k ∈ m.map Prod.fst := by
  simp only [List.lookup_isSome_iff, beq_iff_eq, List.mem_map]
  exact ⟨fun ⟨p, hp, h⟩ => ⟨p, hp, h.symm⟩, fun ⟨p, hp, h⟩ => ⟨p, hp, h.symm⟩⟩

theorem entriesWellFormed_mem {e : String × Value} (hw : EntriesWellFormed m) (he : e ∈ m) :
    e.2.WellFormed := by
  induction m with
  | nil => simp at he
  | cons e' m ih =>
    obtain ⟨_, _⟩ := e'
    rcases List.mem_cons.mp he with rfl | he
    · exact hw.1
    · exact ih hw.2 he

/-- `entriesEqual` is the loop it models: every entry of the first map has a
deeply equal value under its key in the second. -/
theorem entriesEqual_iff :
    entriesEqual m₁ m₂ = true ↔
      ∀ e ∈ m₁, ∃ w, m₂.lookup e.1 = some w ∧ deepValueEqual e.2 w = true := by
  induction m₁ with
  | nil => simp [entriesEqual]
  | cons e m₁ ih =>
    obtain ⟨k, v⟩ := e
    rw [List.forall_mem_cons, ← ih, entriesEqual, Bool.and_eq_true]
    cases m₂.lookup k <;> simp

/-- Maps of equal length whose first one's keys all occur in the second have
the same keys: `deepValueEqual` compares key sets without an inverse loop. -/
theorem keys_perm_of_entriesEqual (hn : (m₁.map Prod.fst).Nodup) (hl : m₁.length = m₂.length)
    (h : entriesEqual m₁ m₂ = true) : (m₁.map Prod.fst).Perm (m₂.map Prod.fst) := by
  refine (hn.subperm fun k hk => ?_).perm_of_length_le (by simp [hl])
  obtain ⟨e, he, rfl⟩ := List.mem_map.mp hk
  obtain ⟨w, hw, -⟩ := entriesEqual_iff.mp h e he
  exact List.mem_map.mpr ⟨_, mem_of_lookup_eq_some hw, rfl⟩

theorem exists_mem_of_entriesEqual {e : String × Value} (hn : (m₁.map Prod.fst).Nodup)
    (hl : m₁.length = m₂.length) (h : entriesEqual m₁ m₂ = true) (he : e ∈ m₂) :
    ∃ v, (e.1, v) ∈ m₁ := by
  obtain ⟨⟨k, v⟩, hv, hk⟩ :=
    List.mem_map.mp ((keys_perm_of_entriesEqual hn hl h).symm.subset (List.mem_map_of_mem _ he))
  exact ⟨v, hk ▸ hv⟩

end Entries

/-! ## Equivalence -/

mutual
theorem deepValueEqual_refl : ∀ (a : Value), a.WellFormed → deepValueEqual a a = true
  | .scalar _, _ => deepValueEqual_scalar.mpr rfl
  | .slice none, _ | .pointer none, _ | .map none, _ => rfl
  | .slice (some xs), h => deepValueEqual_slice_some.mpr ⟨xs, rfl, elemsEqual_refl xs h⟩
  | .pointer (some x), h => deepValueEqual_pointer_some.mpr ⟨x, rfl, deepValueEqual_refl x h⟩
  | .struct xs, h => deepValueEqual_struct.mpr ⟨xs, rfl, elemsEqual_refl xs h⟩
  | .map (some m), h => deepValueEqual_map_some.mpr ⟨m, rfl, rfl,
      entriesEqual_iff.mpr fun e he => ⟨e.2, lookup_eq_some_of_mem h.1 he, entries_refl m h.2 e he⟩⟩

theorem elemsEqual_refl : ∀ (xs : List Value), ElemsWellFormed xs → elemsEqual xs xs = true
  | [], _ => rfl
  | x :: xs, h => elemsEqual_cons.mpr ⟨x, xs, rfl, deepValueEqual_refl x h.1, elemsEqual_refl xs h.2⟩

theorem entries_refl : ∀ (m : List (String × Value)), EntriesWellFormed m →
    ∀ e ∈ m, deepValueEqual e.2 e.2 = true
  | [], _, _, he => absurd he (List.not_mem_nil _)
  | (_, v) :: m, h, e, he => by
    rcases List.mem_cons.mp he with rfl | he
    · exact deepValueEqual_refl v h.1
    · exact entries_refl m h.2 e he
end

mutual
theorem deepValueEqual_trans : ∀ (a : Value) {b c : Value}, deepValueEqual a b = true →
    deepValueEqual b c = true → deepValueEqual a c = true
  | .scalar _, _, _, h₁, h₂ => deepValueEqual_scalar.mp h₁ ▸ h₂
  | .slice none, _, _, h₁, h₂ => deepValueEqual_slice_none.mp h₁ ▸ h₂
  | .pointer none, _, _, h₁, h₂ => deepValueEqual_pointer_none.mp h₁ ▸ h₂
  | .map none, _, _, h₁, h₂ => deepValueEqual_map_none.mp h₁ ▸ h₂
  | .slice (some xs), _, _, h₁, h₂ => by
    obtain ⟨ys, rfl, h₁⟩ := deepValueEqual_slice_some.mp h₁
    obtain ⟨zs, rfl, h₂⟩ := deepValueEqual_slice_some.mp h₂
    exact deepValueEqual_slice_some.mpr ⟨zs, rfl, elemsEqual_trans xs h₁ h₂⟩
  | .pointer (some x), _, _, h₁, h₂ => by
    obtain ⟨y, rfl, h₁⟩ := deepValueEqual_pointer_some.mp h₁
    obtain ⟨z, rfl, h₂⟩ := deepValueEqual_pointer_some.mp h₂
    exact deepValueEqual_pointer_some.mpr ⟨z, rfl, deepValueEqual_trans x h₁ h₂⟩
  | .struct xs, _, _, h₁, h₂ => by
    obtain ⟨ys, rfl, h₁⟩ := deepValueEqual_struct.mp h₁
    obtain ⟨zs, rfl, h₂⟩ := deepValueEqual_struct.mp h₂
    exact deepValueEqual_struct.mpr ⟨zs, rfl, elemsEqual_trans xs h₁ h₂⟩
  | .map (some m₁), _, _, h₁, h₂ => by
    obtain ⟨m₂, rfl, hl₁, h₁⟩ := deepValueEqual_map_some.mp h₁
    obtain ⟨m₃, rfl, hl₂, h₂⟩ := deepValueEqual_map_some.mp h₂
    refine deepValueEqual_map_some.mpr ⟨m₃, rfl, hl₁.trans hl₂, entriesEqual_iff.mpr fun e he => ?_⟩
    obtain ⟨w, hw, hew⟩ := entriesEqual_iff.mp h₁ e he
    obtain ⟨u, hu, hwu⟩ := entriesEqual_iff.mp h₂ (e.1, w) (mem_of_lookup_eq_some hw)
    exact ⟨u, hu, entries_trans m₁ e he hew hwu⟩

theorem elemsEqual_trans : ∀ (xs : List Value) {ys zs : List Value}, elemsEqual xs ys = true →
    elemsEqual ys zs = true → elemsEqual xs zs = true
  | [], _, _, h₁, h₂ => by rw [elemsEqual_nil] at h₁; exact h₁ ▸ h₂
  | x :: xs, _, _, h₁, h₂ => by
    obtain ⟨y, ys, rfl, hx, h₁⟩ := elemsEqual_cons.mp h₁
    obtain ⟨z, zs, rfl, hy, h₂⟩ := elemsEqual_cons.mp h₂
    exact elemsEqual_cons.mpr ⟨z, zs, rfl, deepValueEqual_trans x hx hy, elemsEqual_trans xs h₁ h₂⟩

theorem entries_trans : ∀ (m : List (String × Value)), ∀ e ∈ m, ∀ {w u : Value},
    deepValueEqual e.2 w = true → deepValueEqual w u = true → deepValueEqual e.2 u = true
  | [], _, he, _, _, _, _ => absurd he (List.not_mem_nil _)
  | (_, v) :: m, e, he, _, _, h₁, h₂ => by
    rcases List.mem_cons.mp he with rfl | he
    · exact deepValueEqual_trans v h₁ h₂
    · exact entries_trans m e he h₁ h₂
end

mutual
theorem deepValueEqual_symm : ∀ (a : Value) {b : Value}, a.WellFormed → b.WellFormed →
    deepValueEqual a b = true → deepValueEqual b a = true
  | .scalar _, _, _, _, h => deepValueEqual_scalar.mp h ▸ h
  | .slice none, _, _, _, h => deepValueEqual_slice_none.mp h ▸ h
  | .pointer none, _, _, _, h => deepValueEqual_pointer_none.mp h ▸ h
  | .map none, _, _, _, h => deepValueEqual_map_none.mp h ▸ h
  | .slice (some xs), _, ha, hb, h => by
    obtain ⟨ys, rfl, h⟩ := deepValueEqual_slice_some.mp h
    exact deepValueEqual_slice_some.mpr ⟨xs, rfl, elemsEqual_symm xs ha hb h⟩
  | .pointer (some x), _, ha, hb, h => by
    obtain ⟨y, rfl, h⟩ := deepValueEqual_pointer_some.mp h
    exact deepValueEqual_pointer_some.mpr ⟨x, rfl, deepValueEqual_symm x ha hb h⟩
  | .struct xs, _, ha, hb, h => by
    obtain ⟨ys, rfl, h⟩ := deepValueEqual_struct.mp h
    exact deepValueEqual_struct.mpr ⟨xs, rfl, elemsEqual_symm xs ha hb h⟩
  | .map (some m₁), _, ha, hb, h => by
    obtain ⟨m₂, rfl, hl, h⟩ := deepValueEqual_map_some.mp h
    refine deepValueEqual_map_some.mpr ⟨m₁, rfl, hl.symm, entriesEqual_iff.mpr fun e he => ?_⟩
    obtain ⟨v, hv⟩ := exists_mem_of_entriesEqual ha.1 hl h he
    obtain ⟨w, hw, hvw⟩ := entriesEqual_iff.mp h _ hv
    obtain rfl : w = e.2 := Option.some.inj (hw.symm.trans (lookup_eq_some_of_mem hb.1 he))
    exact ⟨v, lookup_eq_some_of_mem ha.1 hv,
      entries_symm m₁ ha.2 _ hv (entriesWellFormed_mem hb.2 he) hvw⟩

theorem elemsEqual_symm : ∀ (xs : List Value) {ys : List Value}, ElemsWellFormed xs →
    ElemsWellFormed ys → elemsEqual xs ys = true → elemsEqual ys xs = true
  | [], _, _, _, h => by rw [elemsEqual_nil] at h; subst h; rfl
  | x :: xs, _, ha, hb, h => by
    obtain ⟨y, ys, rfl, hx, h⟩ := elemsEqual_cons.mp h
    exact elemsEqual_cons.mpr ⟨x, xs, rfl, deepValueEqual_symm x ha.1 hb.1 hx,
      elemsEqual_symm xs ha.2 hb.2 h⟩

theorem entries_symm : ∀ (m : List (String × Value)), EntriesWellFormed m → ∀ e ∈ m,
    ∀ {w : Value}, w.WellFormed → deepValueEqual e.2 w = true → deepValueEqual w e.2 = true
  | [], _, _, he, _, _, _ => absurd he (List.not_mem_nil _)
  | (_, v) :: m, h, e, he, _, hw, hd => by
    rcases List.mem_cons.mp he with rfl | he
    · exact deepValueEqual_symm v h.1 hw hd
    · exact entries_symm m h.2 e he hw hd
end

/-! ## Maps as key/value functions -/

theorem rel_isSome {r : Value → Value → Prop} {o₁ o₂ : Option Value} (h : Option.Rel r o₁ o₂) :
    o₁.isSome = o₂.isSome := by
  cases h <;> rfl

/-- Two non-nil maps with distinct keys are deeply equal exactly when, key by
key, both lookups miss or both find deeply equal values. -/
theorem deepValueEqual_map_iff {m₁ m₂ : List (String × Value)} (hn₁ : (m₁.map Prod.fst).Nodup)
    (hn₂ : (m₂.map Prod.fst).Nodup) :
    deepValueEqual (.map (some m₁)) (.map (some m₂)) = true ↔
      ∀ k, Option.Rel (fun v w => deepValueEqual v w = true) (m₁.lookup k) (m₂.lookup k) := by
  simp only [deepValueEqual_map_some, Value.map.injEq, Option.some.injEq, exists_eq_left']
  constructor
  · rintro ⟨hl, h⟩ k
    cases h₁ : m₁.lookup k with
    | none =>
      cases h₂ : m₂.lookup k with
      | none => exact .none
      | some w =>
        obtain ⟨v, hv⟩ := exists_mem_of_entriesEqual hn₁ hl h (mem_of_lookup_eq_some h₂)
        simp [lookup_eq_some_of_mem hn₁ hv] at h₁
    | some v =>
      obtain ⟨w, hw, hvw⟩ := entriesEqual_iff.mp h _ (mem_of_lookup_eq_some h₁)
      exact hw ▸ .some hvw
  · intro h
    have hkeys : (m₁.map Prod.fst).Perm (m₂.map Prod.fst) :=
      (List.perm_ext_iff_of_nodup hn₁ hn₂).mpr fun k => by
        rw [← lookup_isSome_iff_mem_keys, ← lookup_isSome_iff_mem_keys, rel_isSome (h k)]
    refine ⟨by simpa using hkeys.length_eq, entriesEqual_iff.mpr fun e he => ?_⟩
    have hk := h e.1
    rw [lookup_eq_some_of_mem hn₁ he] at hk
    generalize m₂.lookup e.1 = o at hk
    cases hk with
    | some hd => exact ⟨_, rfl, hd⟩

example : deepValueEqual (.map (some [("a", .scalar (.int 1)), ("b", .slice none)]))
    (.map (some [("b", .slice none), ("a", .scalar (.int 1))])) = true := by decide

theorem lookup_map_string (m : List (String × String)) (k : String) :
    (m.map fun e => (e.1, Value.scalar (.string e.2))).lookup k =
      (m.lookup k).map fun s => .scalar (.string s) := by
  induction m with
  | nil => rfl
  | cons e m ih =>
    obtain ⟨k', s⟩ := e
    simp only [List.map_cons, List.lookup_cons]
    cases k == k' <;> simp [ih]

theorem rel_map_string_iff {o₁ o₂ : Option String} :
    Option.Rel (fun v w => deepValueEqual v w = true) (o₁.map fun s => .scalar (.string s))
      (o₂.map fun s => .scalar (.string s)) ↔ o₁ = o₂ := by
  cases o₁ <;> cases o₂
  · exact iff_of_true .none rfl
  · exact iff_of_false nofun nofun
  · exact iff_of_false nofun nofun
  · exact ⟨fun | .some h => by cases deepValueEqual_scalar.mp h; rfl,
      fun h => .some (deepValueEqual_scalar.mpr (by cases h; rfl))⟩

end HCM.Value

namespace HCM

section ToValue

variable {α : Type} [ToValue α]

theorem deepEqual_refl (x : α) : deepEqual x x = true :=
  Value.deepValueEqual_refl _ (ToValue.wellFormed_valueOf x)

theorem deepEqual_symm {x y : α} (h : deepEqual x y = true) : deepEqual y x = true :=
  Value.deepValueEqual_symm _ (ToValue.wellFormed_valueOf x) (ToValue.wellFormed_valueOf y) h

theorem deepEqual_trans {x y z : α} (h₁ : deepEqual x y = true) (h₂ : deepEqual y z = true) :
    deepEqual x z = true :=
  Value.deepValueEqual_trans _ h₁ h₂

end ToValue

/-- `reflect.DeepEqual` is an equivalence on the values of every type it is
applied to here. -/
theorem deepEqual_equivalence (α : Type) [ToValue α] :
    Equivalence fun x y : α => deepEqual x y = true :=
  ⟨deepEqual_refl, deepEqual_symm, deepEqual_trans⟩

/-- Labels compare as key/value maps, in any order of their entries, and a nil
map is not deeply equal to an empty one. -/
theorem deepEqual_labels_iff {l₁ l₂ : Option (GoMap String)} :
    deepEqual l₁ l₂ = true ↔
      l₁.isSome = l₂.isSome ∧
        ∀ k, (l₁.bind fun m => m.entries.lookup k) = l₂.bind fun m => m.entries.lookup k := by
  rcases l₁ with _ | m₁ <;> rcases l₂ with _ | m₂
  · simp [deepEqual, ToValue.valueOf]
  · simp [deepEqual, ToValue.valueOf]
  · simp [deepEqual, ToValue.valueOf]
  · have hn (m : GoMap String) :
        ((m.entries.map fun e => (e.1, Value.scalar (.string e.2))).map Prod.fst).Nodup := by
      simpa [Function.comp_def] using m.nodupKeys
    simp only [deepEqual, ToValue.valueOf, Option.map_some', Option.isSome_some, Option.some_bind,
      true_and, Value.deepValueEqual_map_iff (hn m₁) (hn m₂), Value.lookup_map_string,
      Value.rel_map_string_iff]

end HCM

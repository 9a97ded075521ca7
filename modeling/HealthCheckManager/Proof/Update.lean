import HealthCheckManager.Proof.Canonical
import HealthCheckManager.Impl.Predicates

/-!
# What each Update predicate drops

One lemma per Update predicate says exactly when it returns false on an update
with an old object (`ClusterPredicate.update_some_eq_false`,
`sveltosCluster_updateFunc_some_eq_false`, `updateOnChange_some_eq_false`), or
exactly when it returns true (`MachinePredicate.update_eq_true`); the run
theorems use only these.

`update_false_of_unchanged`: an update that changes nothing a predicate
watches is dropped: labels with the same key/value pairs, and a
`Status.FeatureSummaries` or `Spec` that is the same value, its maps compared
as key/value pairs (`Value.canonical`). A nil map or slice is a different
value from an empty one, at any depth, and going from one to the other alone
is not dropped (`update_true_of_nil_to_empty`).
-/

namespace HCM

/-! ## Spec lemmas -/

theorem ClusterPredicate.update_some_eq_false {old new : Cluster} :
    ClusterPredicate.update ⟨some old, new⟩ = false ↔
      (old.spec.paused = true → new.spec.paused = true) ∧ deepEqual old.labels new.labels = true := by
  obtain ⟨l, ⟨p⟩⟩ := old
  obtain ⟨l', ⟨p'⟩⟩ := new
  cases p <;> cases p' <;> simp [ClusterPredicate.update]

theorem sveltosCluster_updateFunc_some_eq_false {old new : SveltosCluster} :
    sveltosClusterPredicates.updateFunc ⟨some old, new⟩ = false ↔
      (old.spec.paused = true → new.spec.paused = true) ∧
        (old.status.ready = false → new.status.ready = false) ∧
          deepEqual old.labels new.labels = true := by
  obtain ⟨l, ⟨p⟩, ⟨r⟩⟩ := old
  obtain ⟨l', ⟨p'⟩, ⟨r'⟩⟩ := new
  cases p <;> cases p' <;> cases r <;> cases r' <;> simp [sveltosClusterPredicates]

theorem MachinePredicate.update_eq_true {e : UpdateEvent Machine} :
    MachinePredicate.update e = true ↔
      e.objectNew.status.getTypedPhase = .running ∧
        ∀ old ∈ e.objectOld, old.status.getTypedPhase ≠ .running := by
  obtain ⟨_ | old, new⟩ := e <;> by_cases h : new.status.getTypedPhase = .running <;>
    simp [MachinePredicate.update, h]

theorem updateOnChange_some_eq_false {α : Type} {watched : α → GoValue} {old new : α} :
    updateOnChange watched ⟨some old, new⟩ = false ↔
      deepEqual (watched old) (watched new) = true := by
  cases hd : deepEqual (watched old) (watched new) <;> simp [updateOnChange, hd]

/-! ## Unchanged updates -/

/-- An update that changes nothing a predicate watches is dropped: labels both
nil, or both non-nil with the same key/value pairs, no unpausing (and for a
SveltosCluster, not becoming ready); a `Status.FeatureSummaries` or `Spec`
with the same canonical form, that is the same value once every map's entries
are in key order. -/
theorem update_false_of_unchanged :
    (∀ old new : Cluster, old.labels.isSome = new.labels.isSome →
      (∀ k, (old.labels.bind fun m => m.entries.lookup k) = new.labels.bind fun m => m.entries.lookup k) →
      ¬(old.spec.paused = true ∧ new.spec.paused = false) →
      ClusterPredicate.update ⟨some old, new⟩ = false) ∧
    (∀ old new : SveltosCluster, old.labels.isSome = new.labels.isSome →
      (∀ k, (old.labels.bind fun m => m.entries.lookup k) = new.labels.bind fun m => m.entries.lookup k) →
      ¬(old.spec.paused = true ∧ new.spec.paused = false) →
      ¬(old.status.ready = false ∧ new.status.ready = true) →
      sveltosClusterPredicates.updateFunc ⟨some old, new⟩ = false) ∧
    (∀ old new : ClusterSummary,
      old.status.featureSummaries.val.canonical = new.status.featureSummaries.val.canonical →
      clusterSummaryPredicates.updateFunc ⟨some old, new⟩ = false) ∧
    (∀ old new : HealthCheckReport, old.spec.val.canonical = new.spec.val.canonical →
      healthCheckReportPredicates.updateFunc ⟨some old, new⟩ = false) ∧
    (∀ old new : HealthCheck, old.spec.val.canonical = new.spec.val.canonical →
      healthCheckPredicates.updateFunc ⟨some old, new⟩ = false) := by
  refine ⟨fun old new hs hl hp => ?_, fun old new hs hl hp hr => ?_, fun _ _ h => ?_,
    fun _ _ h => ?_, fun _ _ h => ?_⟩
  · refine ClusterPredicate.update_some_eq_false.mpr ⟨fun h => ?_, deepEqual_labels_iff.mpr ⟨hs, hl⟩⟩
    simpa [h] using hp
  · refine sveltosCluster_updateFunc_some_eq_false.mpr ⟨fun h => ?_, fun h => ?_,
      deepEqual_labels_iff.mpr ⟨hs, hl⟩⟩
    · simpa [h] using hp
    · simpa [h] using hr
  all_goals exact updateOnChange_some_eq_false.mpr (deepEqual_iff_canonical_eq.mpr h)

/-- A HealthCheck `Spec` whose nested map gets its entries in another order has
the same canonical form, and the update is dropped. -/
theorem healthCheck_update_reordered_spec :
    let old : HealthCheck := ⟨⟨.struct [.map (some [("a", .scalar (.int 1)), ("b", .slice none)])],
      ⟨⟨by decide, trivial, trivial, trivial⟩, trivial⟩⟩⟩
    let new : HealthCheck := ⟨⟨.struct [.map (some [("b", .slice none), ("a", .scalar (.int 1))])],
      ⟨⟨by decide, trivial, trivial, trivial⟩, trivial⟩⟩⟩
    old.spec.val.canonical = new.spec.val.canonical ∧
      healthCheckPredicates.updateFunc ⟨some old, new⟩ = false := by
  intro old new
  have h : old.spec.val.canonical = new.spec.val.canonical := rfl
  exact ⟨h, update_false_of_unchanged.2.2.2.2 old new h⟩

/-- Going from nil labels to empty ones, or from a nil slice to an empty one
inside a `Spec`, is not dropped. -/
theorem update_true_of_nil_to_empty :
    (let old : Cluster := ⟨none, ⟨false⟩⟩
     let new : Cluster := ⟨some ⟨[], List.nodup_nil⟩, ⟨false⟩⟩
     (∀ k, (old.labels.bind fun m => m.entries.lookup k) = new.labels.bind fun m => m.entries.lookup k) ∧
       ¬(old.spec.paused = true ∧ new.spec.paused = false) ∧
       ClusterPredicate.update ⟨some old, new⟩ = true) ∧
    (let old : HealthCheck := ⟨⟨.struct [.slice none], ⟨trivial, trivial⟩⟩⟩
     let new : HealthCheck := ⟨⟨.struct [.slice (some [])], ⟨trivial, trivial⟩⟩⟩
     healthCheckPredicates.updateFunc ⟨some old, new⟩ = true) :=
  ⟨⟨fun _ => rfl, by simp, by decide⟩, by decide⟩

end HCM

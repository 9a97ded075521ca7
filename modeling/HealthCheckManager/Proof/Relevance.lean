import HealthCheckManager.Proof.Update
import HealthCheckManager.Proof.Watch

/-!
# What each predicate reacts to

For each watch, the preorder `covers` of a `Relevance`: what a reconciliation
that saw one state of an object has already accounted for in a later one. For
a CAPI Cluster, labels deeply equal and paused if it was paused
(`ClusterPredicate.relevance`); for a SveltosCluster, also not ready if it was
not ready (`sveltosClusterRelevance`); for a Machine, not `Running` if it was
not `Running` (`MachinePredicate.relevance`); for a ClusterSummary,
HealthCheckReport or HealthCheck, the watched sub-structure deeply equal
(`Relevance.onChange`).

Each is built from the spec lemma of the predicate's Update, which also drops
every covered update (`Relevance.Exact`); the run theorems use both.

`update_false_iff_canonical_eq` says what the predicates compare without
`reflect.DeepEqual`: an update is dropped exactly when, the pause and
readiness flags apart, what the predicate compares has one canonical form in
both objects, so that reordering map entries, at any depth, is never seen and
every other change is.
-/

namespace HCM

/-- Labels deeply equal, and paused if paused before. -/
def ClusterPredicate.relevance : Relevance ClusterPredicate.funcs.updateFunc where
  covers a b := deepEqual a.labels b.labels = true ∧ (a.spec.paused = true → b.spec.paused = true)
  refl _ := ⟨deepEqual_refl _, id⟩
  trans h₁ h₂ := ⟨deepEqual_trans h₁.1 h₂.1, h₂.2 ∘ h₁.2⟩
  update_false h := (ClusterPredicate.update_some_eq_false.mp h).symm

theorem ClusterPredicate.relevance_exact : ClusterPredicate.relevance.Exact := fun h =>
  ClusterPredicate.update_some_eq_false.mpr h.symm

/-- Labels deeply equal, paused if paused before, not ready if not ready
before. -/
def sveltosClusterRelevance : Relevance sveltosClusterPredicates.updateFunc where
  covers a b := deepEqual a.labels b.labels = true ∧
    (a.spec.paused = true → b.spec.paused = true) ∧ (a.status.ready = false → b.status.ready = false)
  refl _ := ⟨deepEqual_refl _, id, id⟩
  trans h₁ h₂ := ⟨deepEqual_trans h₁.1 h₂.1, h₂.2.1 ∘ h₁.2.1, h₂.2.2 ∘ h₁.2.2⟩
  update_false h :=
    have h := sveltosCluster_updateFunc_some_eq_false.mp h
    ⟨h.2.2, h.1, h.2.1⟩

theorem sveltosClusterRelevance_exact : sveltosClusterRelevance.Exact := fun h =>
  sveltosCluster_updateFunc_some_eq_false.mpr ⟨h.2.1, h.2.2, h.1⟩

/-- Not `Running` if not `Running` before. -/
def MachinePredicate.relevance : Relevance MachinePredicate.funcs.updateFunc where
  covers a b := a.status.getTypedPhase ≠ .running → b.status.getTypedPhase ≠ .running
  refl _ := id
  trans h₁ h₂ := h₂ ∘ h₁
  update_false h ha hb := Bool.false_ne_true <| h.symm.trans <|
    MachinePredicate.update_eq_true.mpr ⟨hb, fun _ ho => Option.some.inj ho ▸ ha⟩

theorem MachinePredicate.relevance_exact : MachinePredicate.relevance.Exact := fun {a _} h =>
  Bool.eq_false_iff.mpr fun ht => (MachinePredicate.update_eq_true.mp ht).elim fun hb ha =>
    h (ha a rfl) hb

theorem clusterSummaryPredicates_updateFunc :
    clusterSummaryPredicates.updateFunc = updateOnChange fun s => s.status.featureSummaries := rfl

theorem healthCheckReportPredicates_updateFunc :
    healthCheckReportPredicates.updateFunc = updateOnChange fun r => r.spec := rfl

theorem healthCheckPredicates_updateFunc :
    healthCheckPredicates.updateFunc = updateOnChange fun h => h.spec := rfl

/-- The watched sub-structure deeply equal. -/
def Relevance.onChange {α : Type} {watched : α → GoValue} {p : Funcs α}
    (hp : p.updateFunc = updateOnChange watched) : Relevance p.updateFunc where
  covers a b := deepEqual (watched a) (watched b) = true
  refl _ := deepEqual_refl _
  trans := deepEqual_trans
  update_false h := updateOnChange_some_eq_false.mp (hp ▸ h)

theorem Relevance.onChange_exact {α : Type} {watched : α → GoValue} {p : Funcs α}
    (hp : p.updateFunc = updateOnChange watched) : (Relevance.onChange hp).Exact := fun h =>
  hp ▸ updateOnChange_some_eq_false.mpr h

/-- The Update predicates that compare with `reflect.DeepEqual` drop an update
with an old object exactly when, the pause and readiness flags apart, the
labels, `Status.FeatureSummaries` or `Spec` of the two objects have one
canonical form: the same tree once every map's entries are in key order. -/
theorem update_false_iff_canonical_eq :
    (∀ a b : Cluster, ClusterPredicate.update ⟨some a, b⟩ = false ↔
      (a.spec.paused = true → b.spec.paused = true) ∧
        (ToValue.valueOf a.labels).canonical = (ToValue.valueOf b.labels).canonical) ∧
    (∀ a b : SveltosCluster, sveltosClusterPredicates.updateFunc ⟨some a, b⟩ = false ↔
      (a.spec.paused = true → b.spec.paused = true) ∧
        (a.status.ready = false → b.status.ready = false) ∧
          (ToValue.valueOf a.labels).canonical = (ToValue.valueOf b.labels).canonical) ∧
    (∀ a b : ClusterSummary, clusterSummaryPredicates.updateFunc ⟨some a, b⟩ = false ↔
      a.status.featureSummaries.val.canonical = b.status.featureSummaries.val.canonical) ∧
    (∀ a b : HealthCheckReport, healthCheckReportPredicates.updateFunc ⟨some a, b⟩ = false ↔
      a.spec.val.canonical = b.spec.val.canonical) ∧
    (∀ a b : HealthCheck, healthCheckPredicates.updateFunc ⟨some a, b⟩ = false ↔
      a.spec.val.canonical = b.spec.val.canonical) :=
  ⟨fun _ _ => ClusterPredicate.update_some_eq_false.trans (and_congr_right' deepEqual_iff_canonical_eq),
    fun _ _ => sveltosCluster_updateFunc_some_eq_false.trans
      (and_congr_right' (and_congr_right' deepEqual_iff_canonical_eq)),
    fun _ _ => updateOnChange_some_eq_false.trans deepEqual_iff_canonical_eq,
    fun _ _ => updateOnChange_some_eq_false.trans deepEqual_iff_canonical_eq,
    fun _ _ => updateOnChange_some_eq_false.trans deepEqual_iff_canonical_eq⟩

end HCM

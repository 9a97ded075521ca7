import HealthCheckManager.Impl.Reflect

/-!
# The predicates of the ClusterHealthCheck controller

`controllers/clusterhealthcheck_predicates.go`: for each kind the controller
watches, a verdict on every event of an object of that kind; a true verdict
makes the controller reconcile the ClusterHealthChecks that use the object.
`ClusterPredicate` and `MachinePredicate` are typed predicates with one method
per event; the other four are `predicate.Funcs` built by a function of the
logger. The logger only carries diagnostics and is left out, and so are the
fields the predicates only log (`Name`, `Namespace`).

The objects are the fields of the CAPI and Sveltos API types that the
predicates read, under their Go field paths. A `Spec` or a
`Status.FeatureSummaries` that is compared whole is a `GoValue`.
`sveltosCluster_updateFunc_eq` relates the SveltosCluster predicate to
`ClusterPredicate`.
-/

namespace HCM

/-! ## Events -/

/-- `event.TypedCreateEvent`: the object created. -/
structure CreateEvent (α : Type) where
  object : α

/-- `event.TypedUpdateEvent`: the object before and after the update; `none`
for an `ObjectOld` that is a nil pointer of the object's type. In the
`predicate.Funcs` predicates, an `ObjectOld` that is a nil interface instead
makes the type assertion `e.ObjectOld.(*T)` panic, and a nil `ObjectNew`
panics when its `Namespace` is read for the log: neither is modelled. -/
structure UpdateEvent (α : Type) where
  objectOld : Option α
  objectNew : α

/-- `event.TypedDeleteEvent`: the object's last known state. -/
structure DeleteEvent (α : Type) where
  object : α

/-- `event.TypedGenericEvent`: an event on the object from a source other than
the API server's watch. -/
structure GenericEvent (α : Type) where
  object : α

/-- `predicate.Funcs`: the verdict on each kind of event. -/
structure Funcs (α : Type) where
  updateFunc : UpdateEvent α → Bool
  createFunc : CreateEvent α → Bool
  deleteFunc : DeleteEvent α → Bool
  genericFunc : GenericEvent α → Bool

/-! ## Watched objects -/

/-- `clusterv1.ClusterSpec`, its `Paused` field. -/
structure ClusterSpec where
  paused : Bool

/-- A CAPI `Cluster`: `Labels` and `Spec`. -/
structure Cluster where
  labels : Option (GoMap String)
  spec : ClusterSpec

/-- `clusterv1.MachinePhase`. -/
inductive MachinePhase where
  | pending | provisioning | provisioned | running | deleting | deleted | failed | unknown
  deriving DecidableEq, Repr

/-- `clusterv1.MachineStatus`, its `Phase` string. -/
structure MachineStatus where
  phase : String

/-- `MachineStatus.GetTypedPhase` of cluster-api: the phase the string names,
`Unknown` for any other string. -/
def MachineStatus.getTypedPhase (s : MachineStatus) : MachinePhase :=
  match s.phase with
  | "Pending" => .pending
  | "Provisioning" => .provisioning
  | "Provisioned" => .provisioned
  | "Running" => .running
  | "Deleting" => .deleting
  | "Deleted" => .deleted
  | "Failed" => .failed
  | _ => .unknown

/-- A CAPI `Machine`: its `Status`. -/
structure Machine where
  status : MachineStatus

/-- `libsveltosv1beta1.SveltosClusterSpec`, its `Paused` field. -/
structure SveltosClusterSpec where
  paused : Bool

/-- `libsveltosv1beta1.SveltosClusterStatus`, its `Ready` field. -/
structure SveltosClusterStatus where
  ready : Bool

/-- A `SveltosCluster`: `Labels`, `Spec` and `Status`. -/
structure SveltosCluster where
  labels : Option (GoMap String)
  spec : SveltosClusterSpec
  status : SveltosClusterStatus

/-- `configv1beta1.ClusterSummaryStatus`, its `FeatureSummaries` slice. -/
structure ClusterSummaryStatus where
  featureSummaries : GoValue

/-- A `ClusterSummary`: its `Status`. -/
structure ClusterSummary where
  status : ClusterSummaryStatus

/-- A `HealthCheckReport`: its `Spec`. -/
structure HealthCheckReport where
  spec : GoValue

/-- A `HealthCheck`: its `Spec`. -/
structure HealthCheck where
  spec : GoValue

/-! ## CAPI clusters and machines -/

namespace ClusterPredicate

/-- Reconcile for a cluster created unpaused. -/
def create (obj : CreateEvent Cluster) : Bool :=
  !obj.object.spec.paused

/-- Reconcile when the old cluster is nil, when the cluster was unpaused, or
when its labels changed. -/
def update (obj : UpdateEvent Cluster) : Bool :=
  match obj.objectOld with
  | none => true
  | some oldCluster =>
    if oldCluster.spec.paused && !obj.objectNew.spec.paused then true
    else if !deepEqual oldCluster.labels obj.objectNew.labels then true
    else false

def delete (_ : DeleteEvent Cluster) : Bool := true

def generic (_ : GenericEvent Cluster) : Bool := false

/-- The methods of `ClusterPredicate`, as the watch calls them. -/
def funcs : Funcs Cluster := ⟨update, create, delete, generic⟩

end ClusterPredicate

namespace MachinePredicate

/-- Reconcile for a machine created `Running`. -/
def create (obj : CreateEvent Machine) : Bool :=
  obj.object.status.getTypedPhase == .running

/-- Reconcile only for a machine now `Running`: when the old machine is nil,
or its typed phase was another one. -/
def update (obj : UpdateEvent Machine) : Bool :=
  if obj.objectNew.status.getTypedPhase != .running then false
  else
    match obj.objectOld with
    | none => true
    | some oldMachine =>
      if oldMachine.status.getTypedPhase != obj.objectNew.status.getTypedPhase then true
      else false

def delete (_ : DeleteEvent Machine) : Bool := false

def generic (_ : GenericEvent Machine) : Bool := false

/-- The methods of `MachinePredicate`, as the watch calls them. -/
def funcs : Funcs Machine := ⟨update, create, delete, generic⟩

end MachinePredicate

/-! ## Sveltos objects -/

/-- `SveltosClusterPredicates`: as `ClusterPredicate`, and an update also
matters when the cluster became ready. -/
def sveltosClusterPredicates : Funcs SveltosCluster where
  updateFunc e :=
    match e.objectOld with
    | none => true
    | some oldCluster =>
      if oldCluster.spec.paused && !e.objectNew.spec.paused then true
      else if !oldCluster.status.ready && e.objectNew.status.ready then true
      else if !deepEqual oldCluster.labels e.objectNew.labels then true
      else false
  createFunc e := !e.object.spec.paused
  deleteFunc _ := true
  genericFunc _ := false

/-- The labels and pause flag of a SveltosCluster, as a CAPI `Cluster`. -/
def SveltosCluster.toCluster (s : SveltosCluster) : Cluster := ⟨s.labels, ⟨s.spec.paused⟩⟩

/-- The SveltosCluster predicate's Update is `ClusterPredicate.update` on the same
labels and pause flag, or the cluster became ready. -/
theorem sveltosCluster_updateFunc_eq (e : UpdateEvent SveltosCluster) :
    sveltosClusterPredicates.updateFunc e =
      (ClusterPredicate.update ⟨e.objectOld.map SveltosCluster.toCluster, e.objectNew.toCluster⟩ ||
        e.objectOld.any fun old => !old.status.ready && e.objectNew.status.ready) := by
  obtain ⟨_ | ⟨l, ⟨p⟩, ⟨r⟩⟩, ⟨l', ⟨p'⟩, ⟨r'⟩⟩⟩ := e
  · rfl
  · simp only [sveltosClusterPredicates, ClusterPredicate.update, SveltosCluster.toCluster,
      Option.map_some', Option.any_some]
    cases p <;> cases p' <;> cases r <;> cases r' <;> simp

/-- The `UpdateFunc` of `ClusterSummaryPredicates`, `HealthCheckReportPredicates`
and `HealthCheckPredicates`: reconcile when the old object is nil or the
sub-structure `watched` reads is not `DeepEqual` across the update. -/
def updateOnChange {α : Type} (watched : α → GoValue) (e : UpdateEvent α) : Bool :=
  match e.objectOld with
  | none => true
  | some old => if !deepEqual (watched old) (watched e.objectNew) then true else false

/-- `ClusterSummaryPredicates`: watches `Status.FeatureSummaries`; a created
summary is not acted on. -/
def clusterSummaryPredicates : Funcs ClusterSummary where
  updateFunc := updateOnChange fun s => s.status.featureSummaries
  createFunc _ := false
  deleteFunc _ := true
  genericFunc _ := false

/-- `HealthCheckReportPredicates`: watches `Spec`. -/
def healthCheckReportPredicates : Funcs HealthCheckReport where
  updateFunc := updateOnChange fun r => r.spec
  createFunc _ := true
  deleteFunc _ := true
  genericFunc _ := false

/-- `HealthCheckPredicates`: watches `Spec`. -/
def healthCheckPredicates : Funcs HealthCheck where
  updateFunc := updateOnChange fun h => h.spec
  createFunc _ := true
  deleteFunc _ := true
  genericFunc _ := false

end HCM

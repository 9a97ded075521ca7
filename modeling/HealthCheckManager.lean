import HealthCheckManager.Impl.Reflect
import HealthCheckManager.Impl.Predicates
import HealthCheckManager.Proof.DeepEqual
import HealthCheckManager.Proof.Canonical
import HealthCheckManager.Proof.Watch
import HealthCheckManager.Proof.Update
import HealthCheckManager.Proof.Relevance
import HealthCheckManager.Proof.Runs

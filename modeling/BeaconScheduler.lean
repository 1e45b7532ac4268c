import BeaconScheduler.Main
import BeaconScheduler.Proofs.Accounting
import BeaconScheduler.Proofs.Attempts
import BeaconScheduler.Proofs.Beacons
import BeaconScheduler.Proofs.Ceiling
import BeaconScheduler.Proofs.Complement
import BeaconScheduler.Proofs.Consistency
import BeaconScheduler.Proofs.Contention
import BeaconScheduler.Proofs.Course
import BeaconScheduler.Proofs.Delivery
import BeaconScheduler.Proofs.Documents
import BeaconScheduler.Proofs.Exchange
import BeaconScheduler.Proofs.FirstFit
import BeaconScheduler.Proofs.Geometry
import BeaconScheduler.Proofs.Grants
import BeaconScheduler.Proofs.Growth
import BeaconScheduler.Proofs.Independence
import BeaconScheduler.Proofs.Loading
import BeaconScheduler.Proofs.Modification
import BeaconScheduler.Proofs.Notifications
import BeaconScheduler.Proofs.PartitionCheck
import BeaconScheduler.Proofs.PeriodicGrants
import BeaconScheduler.Proofs.Responses
import BeaconScheduler.Proofs.Resubmission
import BeaconScheduler.Proofs.RoundTrip
import BeaconScheduler.Proofs.RunLengths
import BeaconScheduler.Proofs.Scripted
import BeaconScheduler.Proofs.Spacing
import BeaconScheduler.Proofs.Statics
import BeaconScheduler.Proofs.Tenure
import BeaconScheduler.Proofs.Uniqueness
import BeaconScheduler.Proofs.Validity
import BeaconScheduler.Proofs.WholeDti
import BeaconScheduler.Proofs.Withdrawal

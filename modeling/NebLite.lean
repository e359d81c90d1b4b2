import NebLite.Rides.RaceOutcome
import NebLite.Rides.DuelOutcome
import NebLite.Rides.Withdrawal
import NebLite.Rides.OneUnfinished
import NebLite.Rides.Handshake
import NebLite.Rides.SettlementOutcome
import NebLite.Rides.Retries
import NebLite.Rides.InterruptedTransition
import NebLite.Rides.Confirmation
import NebLite.Rides.Candidates
import NebLite.Rides.FareLaws
import NebLite.Rides.RouteReply
import NebLite.Rides.Negotiation
import NebLite.Rides.Refusals
import NebLite.Rides.UnreadRide
import NebLite.Rides.FieldOverride
import NebLite.Rides.RideReaders
import NebLite.Rides.StoredRides
import NebLite.Rides.RouteJobs
import NebLite.Rides.ClaimStatements
import NebLite.Tracking.EventPlaces
import NebLite.Tracking.BilledDistance
import NebLite.Tracking.Batches
import NebLite.Tracking.MarkRace
import NebLite.Tracking.LostBatch
import NebLite.Tracking.Statements
import NebLite.Tracking.EncodedFlush
import NebLite.Payment.OneOrder
import NebLite.Payment.Redelivery
import NebLite.Payment.Bookkeeping
import NebLite.Payment.DetailRace
import NebLite.Payment.DetailTransaction
import NebLite.Payment.Provenance
import NebLite.Payment.LedgerRuns
import NebLite.Payment.RetriedPayment
import NebLite.Payment.CurrentViews
import NebLite.Location.LiveDrivers
import NebLite.Location.DriverUpdates
import NebLite.Location.NearestDrivers
import NebLite.Location.CleanupRuns
import NebLite.Gateway.RideIsolation
import NebLite.Gateway.StreamDelivery
import NebLite.Gateway.Subscriptions
import NebLite.Gateway.DeafClients
import NebLite.Gateway.SessionIsolation
import NebLite.Gateway.NotifiedParties
import NebLite.Location.Dispatch
import NebLite.Iam.Sessions
import NebLite.Iam.SpentOnce
import NebLite.Iam.OtpDelivery
import NebLite.Iam.Lifetimes
import NebLite.Client.SignupExclusivity
import NebLite.Client.LockHygiene
import NebLite.Client.DataEncryption

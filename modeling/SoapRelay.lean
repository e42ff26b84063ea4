import SoapRelay.Bridge
import SoapRelay.ClientSession
import SoapRelay.Consumer.Script
import SoapRelay.PlatformSession
import SoapRelay.Proofs.Answering
import SoapRelay.Proofs.Callers
import SoapRelay.Proofs.Cleanup
import SoapRelay.Proofs.CommonName
import SoapRelay.Proofs.Content
import SoapRelay.Proofs.Counters
import SoapRelay.Proofs.Deadline
import SoapRelay.Proofs.Delivery
import SoapRelay.Proofs.Destination
import SoapRelay.Proofs.Disposition
import SoapRelay.Proofs.Envelope
import SoapRelay.Proofs.Exchange
import SoapRelay.Proofs.Forward
import SoapRelay.Proofs.Identity
import SoapRelay.Proofs.Isolation
import SoapRelay.Proofs.KeyStore
import SoapRelay.Proofs.LastInstant
import SoapRelay.Proofs.Noting
import SoapRelay.Proofs.Octets
import SoapRelay.Proofs.Outcome
import SoapRelay.Proofs.Overrides
import SoapRelay.Proofs.Overtaking
import SoapRelay.Proofs.Polling
import SoapRelay.Proofs.Provenance
import SoapRelay.Proofs.Punctual
import SoapRelay.Proofs.Queue
import SoapRelay.Proofs.Refused
import SoapRelay.Proofs.Relay
import SoapRelay.Proofs.RoundTrip
import SoapRelay.Proofs.Rsa
import SoapRelay.Proofs.Serve
import SoapRelay.Proofs.Session
import SoapRelay.Proofs.Shards
import SoapRelay.Proofs.Signed
import SoapRelay.Proofs.Spelling
import SoapRelay.Proofs.Token
import SoapRelay.Proofs.Trailer
import SoapRelay.Proofs.Watch
import SoapRelay.Proofs.Wiring
import SoapRelay.Proofs.Workload
import SoapRelay.Registry.Session
import SoapRelay.Relay

import Airlock.Main
import Airlock.Peer.Exchange
import Airlock.Peer.Gallery
import Airlock.Session.Waiting
import Airlock.Proofs.Channel.Delivery
import Airlock.Proofs.Channel.Transit
import Airlock.Proofs.Client.Hooks
import Airlock.Proofs.Codec.Surplus
import Airlock.Proofs.Session.Quiescence
import Airlock.Proofs.Session.Sequential
import Airlock.Proofs.Client.Dispatch
import Airlock.Proofs.Client.Ending
import Airlock.Proofs.Client.Dismissal
import Airlock.Proofs.Client.OrderlyEnd
import Airlock.Proofs.Session.Hosting
import Airlock.Proofs.Session.Conclusion
import Airlock.Proofs.Session.Closing
import Airlock.Proofs.Session.Responding
import Airlock.Proofs.Cli.Conversing
import Airlock.Proofs.Codec.Transcoding
import Airlock.Proofs.Codec.Truncation
import Airlock.Proofs.Client.Insertion
import Airlock.Proofs.Cli.Replaying
import Airlock.Proofs.Cli.Calling
import Airlock.Proofs.Session.Lifecycle
import Airlock.Proofs.Session.Farewell
import Airlock.Proofs.Client.Requesting
import Airlock.Proofs.Session.Answering
import Airlock.Proofs.Codec.Grammar
import Airlock.Proofs.Codec.Classification
import Airlock.Proofs.Document.Places
import Airlock.Proofs.Document.Store
import Airlock.Proofs.Client.Events
import Airlock.Proofs.Script.Composition

import Cjet.Route.Correlate
import Cjet.Route.Ids
import Cjet.Route.Teardown
import Cjet.Route.Answer
import Cjet.Route.Resource
import Cjet.Store.Relation
import Cjet.Store.View
import Cjet.Store.Isolation
import Cjet.Store.Rollback
import Cjet.Store.Consistency
import Cjet.Store.Get
import Cjet.Store.Matching
import Cjet.Access.Control
import Cjet.Access.Noninterference
import Cjet.Hash.KeyTable
import Cjet.Hash.Map
import Cjet.Hash.Capacity
import Cjet.Hash.Interrupt
import Cjet.Hash.Rounds
import Cjet.Io.EventLoop
import Cjet.Io.Reading
import Cjet.Io.Framing
import Cjet.Io.Message
import Cjet.Ws.Installed
import Cjet.Ws.Delivery
import Cjet.Ws.Teardown
import Cjet.Ws.RoundTrip
import Cjet.Ws.Upgrade
import Cjet.Store.FetchIds
import Cjet.Access.Bits
import Cjet.Access.PasswordOwner
import Cjet.Ws.Words
import Cjet.Ws.InPlace
import Cjet.Ws.OfferGrammar
import Cjet.Ws.Fallback
import Cjet.Io.Closed
import Cjet.Ws.Announced
import Cjet.Ws.SubProtocol
import Cjet.Ws.Compression
import Cjet.Ws.Inflation
import Cjet.Ws.Reassembly
import Cjet.Ws.Deflation
import Cjet.Route.Ownership
import Cjet.Model.Heap
import Cjet.Route.PeerLog
import Cjet.JsonText.Message
import Cjet.Store.Lists
import Cjet.Store.Registry
import Cjet.Ws.Accept
import Cjet.Io.Exchange

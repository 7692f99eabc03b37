import Keydock.Foundation.Interleaving
import Keydock.Foundation.Keyspace
import Keydock.Foundation.Postcard
import Keydock.Foundation.PercentCoding
import Keydock.Foundation.Base64
import Keydock.Foundation.Json
import Keydock.Foundation.Decimal
import Keydock.Fjall.Listing
import Keydock.Fjall.Counters
import Keydock.Fjall.Faults
import Keydock.Fjall.Formats
import Keydock.Fjall.Observed
import Keydock.Http.Txn
import Keydock.Http.Tokens
import Keydock.Http.Buckets
import Keydock.Http.Listing
import Keydock.Http.Isolation
import Keydock.Http.Confidential
import Keydock.Http.Sweeping
import Keydock.Http.Deletion
import Keydock.Http.TokenRuns
import Keydock.Http.KeyListing
import Keydock.Http.ScopedListing
import Keydock.Http.KeyNames
import Keydock.Http.TimeToLive
import Keydock.Http.PatchMeaning
import Keydock.Http.PolicyRuns
import Keydock.Http.ConfiguredKeys
import Keydock.Http.TxnMeaning
import Keydock.Http.TxnValues
import Keydock.Http.JsonListing
import Keydock.Http.Renderings
import Keydock.Http.DefaultTtl
import Keydock.Http.Processes
import Keydock.Http.Channels
import Keydock.Sdk.Deltas
import Keydock.Sdk.Buckets
import Keydock.Sdk.Delivery

import AssetTracker.Lib.Codec
import AssetTracker.Lib.Machine
import AssetTracker.Wire
import AssetTracker.Scanner.Store
import AssetTracker.Scanner.Advertisement
import AssetTracker.Scanner.Frame
import AssetTracker.Scanner.Run
import AssetTracker.Scanner.StoreInvariant
import AssetTracker.Scanner.Retention
import AssetTracker.Gateway.Receiver
import AssetTracker.Link.RoundTrip
import AssetTracker.Gateway.Chunking
import AssetTracker.Link.Resync
import AssetTracker.Link.CutFrame
import AssetTracker.Gateway.Update
import AssetTracker.Link.Age
import AssetTracker.Lib.Json
import AssetTracker.Proxy.Convert
import AssetTracker.Proxy.Report
import AssetTracker.Lib.Sync
import AssetTracker.Gateway.Coap
import AssetTracker.Scanner.Format
import AssetTracker.Advertiser
import AssetTracker.Scanner.Prefix
import AssetTracker.Gateway.Location
import AssetTracker.Gateway.Mqtt
import AssetTracker.Gateway.Updates
import AssetTracker.Gateway.Power
import AssetTracker.Gateway.Pacing
import AssetTracker.Gateway.Position
import AssetTracker.Gateway.Cycle
import AssetTracker.Gateway.Backoff
import AssetTracker.Gateway.Status
import AssetTracker.Proxy.Server
import AssetTracker.Proxy.Payload
import AssetTracker.Scanner.TagScanner
import AssetTracker.Scanner.Interleaving
import AssetTracker.Scanner.Timestamps
import AssetTracker.Scanner.Posting
import AssetTracker.Link.CoapExchange
import AssetTracker.Link.Freshness
import AssetTracker.Link.Acknowledgement
import AssetTracker.Link.Tracker
import AssetTracker.Link.Traced
import AssetTracker.Link.Arrival
import AssetTracker.Advertiser.Beacon
import AssetTracker.Link.Sighting
import AssetTracker.Link.Air
import AssetTracker.Link.Field
import AssetTracker.Link.Deployment
import AssetTracker.Link.Elapsed
import AssetTracker.Link.Roster
import AssetTracker.Link.HttpScanner
import AssetTracker.Gateway.Progress
import AssetTracker.Link.Recovery
import AssetTracker.Link.Autonomy
import AssetTracker.Link.Delivery

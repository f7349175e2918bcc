import VanetzaIdf.Runtime.Ownership
import VanetzaIdf.Credentials
import VanetzaIdf.Decompression
import VanetzaIdf.Identity.Responder
import VanetzaIdf.Identity.Progress
import VanetzaIdf.Identity.Lock
import VanetzaIdf.Geonet.Beacon
import VanetzaIdf.Geonet.Repeater
import VanetzaIdf.Geonet.CbfCapacity
import VanetzaIdf.Geonet.LifetimeCoding
import VanetzaIdf.Dcc.Queues
import VanetzaIdf.Dcc.BurstBudget
import VanetzaIdf.Dcc.FullyMeshed
import VanetzaIdf.Dcc.Limeric
import VanetzaIdf.Geonet.Wire.LayerViews
import VanetzaIdf.Geonet.Wire.SerialOrder
import VanetzaIdf.Geonet.Wire.SoftState
import VanetzaIdf.Geonet.Wire.CbrAggregator
import VanetzaIdf.Geonet.Wire.Network
import VanetzaIdf.Geonet.Wire.GbcMemory
import VanetzaIdf.Geodesy.CountryData
import VanetzaIdf.Hil
import VanetzaIdf.ItsTime
import VanetzaIdf.V2.Grammar
import VanetzaIdf.V2.CertificateCache
import VanetzaIdf.Stack.Pseudonym
import VanetzaIdf.Stack.Prepare
import VanetzaIdf.Stack.Accept
import VanetzaIdf.V3.Expiry
import VanetzaIdf.V3.Inherited
import VanetzaIdf.V3.OwnTickets
import VanetzaIdf.Geonet.Wire.OwnPackets
import VanetzaIdf.V3.Heard
import VanetzaIdf.V3.Forged
import VanetzaIdf.V3.Bounded
import VanetzaIdf.V3.Refused
import VanetzaIdf.Pki.Applied
import VanetzaIdf.Pki.Ecies
import VanetzaIdf.Pqc.HybridValidator

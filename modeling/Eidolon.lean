import Eidolon.Client.PositionRecords
import Eidolon.Client.Session
import Eidolon.Core.AuthorityFencing
import Eidolon.Core.BehaviorTermination
import Eidolon.Core.LockExclusion
import Eidolon.Core.LoginFencing
import Eidolon.Core.PriceTimePriority
import Eidolon.Net.BackpressureOrder
import Eidolon.Net.BitstreamPaths
import Eidolon.Net.ChannelAck
import Eidolon.Net.ChannelDelivery
import Eidolon.Net.Crypto
import Eidolon.Net.DeltaFlags
import Eidolon.Net.DeltaXor
import Eidolon.Net.HeaderKind
import Eidolon.Net.IoUring
import Eidolon.Net.MultiResBounds
import Eidolon.Net.RansRoundTrip
import Eidolon.Net.ReorderBuffer
import Eidolon.Net.ReplayWindow
import Eidolon.Server.CastSequence
import Eidolon.Server.ClockGovernor
import Eidolon.Server.DispatchAgreement
import Eidolon.Server.DurableTransactions
import Eidolon.Server.EgressBudget
import Eidolon.Server.EquipmentAgreement
import Eidolon.Server.MigrationOwnership
import Eidolon.Server.PacketQueue
import Eidolon.Server.PreAuthReplication
import Eidolon.Server.SessionBinding
import Eidolon.Server.StealConservation
import Eidolon.Spatial.GridRepresentation
import Eidolon.Spatial.HotspotRepresentation
import Eidolon.Spatial.MortonExactness
import Eidolon.Spatial.RankedSelection
import Eidolon.Spatial.RaycastClosest
import Eidolon.World.ChunkManifest
import Eidolon.World.ClusterRuns
import Eidolon.World.CooldownRuns
import Eidolon.World.CurrencyConservation
import Eidolon.World.EscrowAgreement
import Eidolon.World.FlightRecorder
import Eidolon.World.GuildAuthority
import Eidolon.World.Hibernation
import Eidolon.World.InstanceUniqueness
import Eidolon.World.ItemNesting
import Eidolon.World.Partition
import Eidolon.World.Party
import Eidolon.World.PreAuthTokens
import Eidolon.World.ReplicationDurability
import Eidolon.World.RoomLifetime
import Eidolon.World.ScriptSafety
import Eidolon.World.SeamMigration
import Eidolon.World.SectorRuns
import Eidolon.World.ShardRuns
import Eidolon.World.SqpollJournal
import Eidolon.World.StorageAgreement
import Eidolon.World.StructureCollapse
import Eidolon.World.Threat
import Eidolon.World.TransactionDurability
import Eidolon.World.UnitConservation
import Eidolon.World.WeightConservation

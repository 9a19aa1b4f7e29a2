import TibServer.Addition
import TibServer.Consent
import TibServer.Overfilling
import TibServer.Membership
import TibServer.Framing
import TibServer.Spectators
import TibServer.Bookkeeping
import TibServer.Stacking
import TibServer.Flagging
import TibServer.Persistence
import TibServer.Serialization
import TibServer.Queueing
import TibServer.NameIndex
import TibServer.KnownCreatures
import TibServer.ClientMap
import TibServer.TreeLoading
import TibServer.Expiry
import TibServer.Levels
import TibServer.ItemRows
import TibServer.DecayRuns
import TibServer.WalkAgreement
import TibServer.Spawning
import TibServer.OutfitStore
import TibServer.MountSpeed
import TibServer.Scheduling
import TibServer.OpenPages
import TibServer.ChatMembers
import TibServer.Awareness
import TibServer.EquipmentBalance
import TibServer.Autosend
import TibServer.TaskOrder
import TibServer.RaidLifecycle
import TibServer.Handshake
import TibServer.PlayerSave
import TibServer.Beds
import TibServer.Payment
import TibServer.Store
import TibServer.StorePurchase
import TibServer.MoneyRemoval
import TibServer.DryRun
import TibServer.PathPruning
import TibServer.DeathLoss
import TibServer.Tokens
import TibServer.DamageSum
import TibServer.AttributeList
import TibServer.RowBatches
import TibServer.CoinTransfer
import TibServer.SpellWords
import TibServer.CombatArea
import TibServer.CombatHealth
import TibServer.SightLine
import TibServer.Transforming
import TibServer.OfferGrants
import TibServer.AttributeEquality
import TibServer.TileIndex
import TibServer.ContainerWalk
import TibServer.Secrets
import TibServer.KeepDistance
import TibServer.SpellCadence
import TibServer.MapSectors
import TibServer.DecayTiming
import TibServer.GuestLists
import TibServer.HousePrivacy
import TibServer.HouseRent
import TibServer.CreatureLists
import TibServer.FirstMessage
import TibServer.ConnectionThrottle
import TibServer.CreatureHeartbeat
import TibServer.ClientSessions
import TibServer.CreatureReferences

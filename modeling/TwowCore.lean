import TwowCore.GuildBank.MoneyLaw
import TwowCore.GuildBank.Places
import TwowCore.GuildBank.Persistence
import TwowCore.GuildBank.Conservation
import TwowCore.GuildBank.Stacks
import TwowCore.GuildBank.Unlocking
import TwowCore.GuildBank.WeeklyLimit
import TwowCore.GuildBank.ItemRoundTrip
import TwowCore.GuildBank.PositionSafety
import TwowCore.Shop.Coins
import TwowCore.Groups.Rolls
import TwowCore.Groups.Structure
import TwowCore.Groups.Resolution
import TwowCore.Guilds.Reload
import TwowCore.Guilds.Registry
import TwowCore.Guilds.Loading
import TwowCore.Guilds.Switch
import TwowCore.Guilds.EventLog
import TwowCore.Guilds.Roster
import TwowCore.LFT.Completion
import TwowCore.LFT.Signups
import TwowCore.Looting.Count
import TwowCore.Looting.HandOut
import TwowCore.Looting.SetPieces
import TwowCore.Mail.Ledger
import TwowCore.Mail.MailCap
import TwowCore.Auctions.Index
import TwowCore.Auctions.Settlement
import TwowCore.Auctions.Listing
import TwowCore.Database.Results
import TwowCore.Database.Migrations
import TwowCore.Database.Script
import TwowCore.Player.Placement
import TwowCore.Threat.Choice
import TwowCore.Network.Input
import TwowCore.Network.ByteBufferReads
import TwowCore.RealmMerge.References
import TwowCore.RealmMerge.Names
import TwowCore.Battlegrounds.Matches
import TwowCore.Battlegrounds.InvitedCount
import TwowCore.Battlegrounds.Fill
import TwowCore.Realmd.Login
import TwowCore.Realmd.Pin
import TwowCore.PlayerDump.Edits
import TwowCore.Player.DestroyCount
import TwowCore.Trade.TradeData
import TwowCore.Trade.Integrity
import TwowCore.Maps.TerrainCleanup
import TwowCore.Maps.ContinentRegions
import TwowCore.Logging.Refinement
import TwowCore.Pools.Orphans
import TwowCore.Lib.Multimap
import TwowCore.Events.Update
import TwowCore.LFT.FirstFit
import TwowCore.Looting.Slots
import TwowCore.Looting.RaidRealised
import TwowCore.Player.ActionButtons
import TwowCore.Player.Skills
import TwowCore.Conditions.Meaning
import TwowCore.Chat.Safety
import TwowCore.GameEvents.Schedule
import TwowCore.Maps.PackInstances

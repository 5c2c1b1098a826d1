import TwowCore.RealmMerge.Statements

/-!
# The families of keys

The columns that the two methods of each family update, in the order of the statements, and what a cell
of such a column refers to.
-/

namespace TwowCore.RealmMerge

/-- When a number in a column of a family is a key of it: the sender of a mail is a character only when
the mail is a normal one, and a `bot_identity` is one of DB-2 only in its realm. The guid of a caster
is a full one, and so a character's only when it is the key of one. -/
def Target.meaning (t : Target) : Condition :=
  if t.place = ("mail", "sender") then .isZero "messageType"
  else if t.place = ("bot_identity", "guid") then .ofRealm
  else .all

/-- The columns that conditions read. -/
def readColumns : List String := ["mailTemplateId", "messageType", "realm"]

/-- A family: the column of its keys, and the columns that the methods update. -/
structure Family where
  key : String × String
  fast : List Target
  slow : List Target
  fastOnce : (fast.map Target.place).Nodup := by decide +kernel
  slowOnce : (slow.map Target.place).Nodup := by decide +kernel
  unread : ∀ t ∈ fast ++ slow, t.column ∉ readColumns := by decide +kernel
  fastReads : ∀ t ∈ fast, ∀ column ∈ t.condition.reads, column ∈ readColumns := by decide +kernel
  slowOfRow : ∀ t ∈ slow, t.condition = .all ∨ t.condition = .ofRealm := by decide +kernel

/-- The fast method of `UpdateCharacterGuids`. -/
def characterGuidsFast : List Target :=
  [⟨"auction", "itemowner", .all⟩, ⟨"auction", "buyguid", .nonzero⟩, ⟨"characters", "guid", .all⟩,
    ⟨"bot_identity", "guid", .ofRealm⟩, ⟨"character_action", "guid", .all⟩,
    ⟨"character_armory_stats", "guid", .all⟩, ⟨"character_aura", "guid", .all⟩,
    ⟨"character_aura", "caster_guid", .upToMax⟩, ⟨"character_aura_suspended", "guid", .all⟩,
    ⟨"character_aura_suspended", "caster_guid", .upToMax⟩,
    ⟨"character_battleground_data", "guid", .all⟩, ⟨"character_bgqueue", "PlayerGUID", .all⟩,
    ⟨"character_deleted_items", "player_guid", .all⟩,
    ⟨"character_destroyed_items", "player_guid", .all⟩, ⟨"character_egg_loot", "playerGuid", .all⟩,
    ⟨"character_forgotten_skills", "guid", .all⟩, ⟨"character_gifts", "guid", .all⟩,
    ⟨"character_homebind", "guid", .all⟩, ⟨"character_honor_cp", "guid", .all⟩,
    ⟨"character_instance", "guid", .all⟩, ⟨"character_inventory", "guid", .all⟩,
    ⟨"character_item_logs", "playerLowGuid", .all⟩, ⟨"character_pet", "owner", .all⟩,
    ⟨"character_queststatus", "guid", .all⟩, ⟨"character_reputation", "guid", .all⟩,
    ⟨"character_skills", "guid", .all⟩, ⟨"character_social", "guid", .all⟩,
    ⟨"character_social", "friend", .all⟩, ⟨"character_spell", "guid", .all⟩,
    ⟨"character_spell_cooldown", "guid", .all⟩, ⟨"character_spell_dual_spec", "guid", .all⟩,
    ⟨"character_stats", "guid", .all⟩, ⟨"character_ticket", "guid", .all⟩,
    ⟨"character_titles", "guid", .all⟩, ⟨"character_transmogs", "guid", .all⟩,
    ⟨"character_variables", "lowGuid", .all⟩, ⟨"character_xp_from_log", "guid", .all⟩,
    ⟨"corpse", "player", .all⟩, ⟨"gm_tickets", "guid", .all⟩, ⟨"gm_tickets", "closedBy", .nonzero⟩,
    ⟨"gm_tickets", "assignedTo", .nonzero⟩, ⟨"groups", "leaderGuid", .all⟩,
    ⟨"groups", "mainTank", .nonzero⟩, ⟨"groups", "mainAssistant", .nonzero⟩,
    ⟨"groups", "looterGuid", .nonzero⟩, ⟨"group_instance", "leaderGuid", .all⟩,
    ⟨"group_member", "memberGuid", .all⟩, ⟨"guild", "leaderguid", .all⟩,
    ⟨"guild_bank", "creatorGuid", .nonzero⟩, ⟨"guild_bank", "giftCreatorGuid", .nonzero⟩,
    ⟨"guild_bank_log", "player", .nonzero⟩, ⟨"guild_eventlog", "PlayerGuid1", .nonzero⟩,
    ⟨"guild_eventlog", "PlayerGuid2", .nonzero⟩, ⟨"guild_member", "guid", .all⟩,
    ⟨"hardcore_deaths", "lowGuid", .all⟩, ⟨"item_instance", "owner_guid", .all⟩,
    ⟨"item_instance", "creatorGuid", .nonzero⟩, ⟨"item_instance", "giftCreatorGuid", .nonzero⟩,
    ⟨"item_loot", "owner_guid", .all⟩, ⟨"logs_movement", "guid", .all⟩,
    ⟨"logs_warden", "guid", .nonzero⟩, ⟨"mail", "sender", .isZero "mailTemplateId"⟩,
    ⟨"mail", "receiver", .all⟩, ⟨"mail_items", "receiver", .all⟩, ⟨"petition", "ownerguid", .all⟩,
    ⟨"petition_sign", "ownerguid", .all⟩, ⟨"petition_sign", "playerguid", .all⟩,
    ⟨"pet_aura", "caster_guid", .upToMax⟩, ⟨"store_racechange", "guid", .all⟩,
    ⟨"whisper_targets", "target_guid", .all⟩]

/-- The slow method of `UpdateCharacterGuids`. -/
def characterGuidsSlow : List Target :=
  [⟨"auction", "itemowner", .all⟩, ⟨"auction", "buyguid", .all⟩, ⟨"characters", "guid", .all⟩,
    ⟨"bot_identity", "guid", .ofRealm⟩, ⟨"character_action", "guid", .all⟩,
    ⟨"character_armory_stats", "guid", .all⟩, ⟨"character_aura", "guid", .all⟩,
    ⟨"character_aura", "caster_guid", .all⟩, ⟨"character_aura_suspended", "guid", .all⟩,
    ⟨"character_aura_suspended", "caster_guid", .all⟩,
    ⟨"character_battleground_data", "guid", .all⟩, ⟨"character_bgqueue", "PlayerGUID", .all⟩,
    ⟨"character_deleted_items", "player_guid", .all⟩,
    ⟨"character_destroyed_items", "player_guid", .all⟩, ⟨"character_egg_loot", "playerGuid", .all⟩,
    ⟨"character_forgotten_skills", "guid", .all⟩, ⟨"character_gifts", "guid", .all⟩,
    ⟨"character_homebind", "guid", .all⟩, ⟨"character_honor_cp", "guid", .all⟩,
    ⟨"character_instance", "guid", .all⟩, ⟨"character_inventory", "guid", .all⟩,
    ⟨"character_item_logs", "playerLowGuid", .all⟩, ⟨"character_pet", "owner", .all⟩,
    ⟨"character_queststatus", "guid", .all⟩, ⟨"character_reputation", "guid", .all⟩,
    ⟨"character_skills", "guid", .all⟩, ⟨"character_social", "guid", .all⟩,
    ⟨"character_social", "friend", .all⟩, ⟨"character_spell", "guid", .all⟩,
    ⟨"character_spell_cooldown", "guid", .all⟩, ⟨"character_spell_dual_spec", "guid", .all⟩,
    ⟨"character_stats", "guid", .all⟩, ⟨"character_ticket", "guid", .all⟩,
    ⟨"character_titles", "guid", .all⟩, ⟨"character_transmogs", "guid", .all⟩,
    ⟨"character_variables", "lowGuid", .all⟩, ⟨"character_xp_from_log", "guid", .all⟩,
    ⟨"corpse", "player", .all⟩, ⟨"gm_tickets", "guid", .all⟩, ⟨"gm_tickets", "closedBy", .all⟩,
    ⟨"gm_tickets", "assignedTo", .all⟩, ⟨"groups", "leaderGuid", .all⟩,
    ⟨"groups", "mainTank", .all⟩, ⟨"groups", "mainAssistant", .all⟩,
    ⟨"groups", "looterGuid", .all⟩, ⟨"group_instance", "leaderGuid", .all⟩,
    ⟨"group_member", "memberGuid", .all⟩, ⟨"guild", "leaderguid", .all⟩,
    ⟨"guild_bank", "creatorGuid", .all⟩, ⟨"guild_bank", "giftCreatorGuid", .all⟩,
    ⟨"guild_bank_log", "player", .all⟩, ⟨"guild_eventlog", "PlayerGuid1", .all⟩,
    ⟨"guild_eventlog", "PlayerGuid2", .all⟩, ⟨"guild_member", "guid", .all⟩,
    ⟨"hardcore_deaths", "lowGuid", .all⟩, ⟨"item_instance", "owner_guid", .all⟩,
    ⟨"item_instance", "creatorGuid", .all⟩, ⟨"item_instance", "giftCreatorGuid", .all⟩,
    ⟨"item_loot", "owner_guid", .all⟩, ⟨"logs_movement", "guid", .all⟩,
    ⟨"logs_warden", "guid", .all⟩, ⟨"mail", "sender", .all⟩, ⟨"mail", "receiver", .all⟩,
    ⟨"mail_items", "receiver", .all⟩, ⟨"petition", "ownerguid", .all⟩,
    ⟨"petition_sign", "ownerguid", .all⟩, ⟨"petition_sign", "playerguid", .all⟩,
    ⟨"pet_aura", "caster_guid", .all⟩, ⟨"store_racechange", "guid", .all⟩,
    ⟨"whisper_targets", "target_guid", .all⟩]

/-- `UpdateCharacterGuids`. -/
def characterGuids : Family where
  key := ("characters", "guid")
  fast := characterGuidsFast
  slow := characterGuidsSlow

/-- The fast method of `UpdateItemGuids`. -/
def itemGuidsFast : List Target :=
  [⟨"auction", "itemguid", .all⟩, ⟨"character_aura", "item_guid", .nonzero⟩,
    ⟨"character_aura_suspended", "item_guid", .nonzero⟩, ⟨"character_egg_loot", "itemGuid", .all⟩,
    ⟨"character_gifts", "item_guid", .all⟩, ⟨"character_inventory", "item", .all⟩,
    ⟨"character_inventory", "bag", .nonzero⟩, ⟨"character_item_logs", "itemLowGuid", .all⟩,
    ⟨"item_instance", "guid", .all⟩, ⟨"item_loot", "guid", .all⟩,
    ⟨"mail_items", "item_guid", .all⟩, ⟨"petition", "charterguid", .all⟩,
    ⟨"pet_aura", "item_guid", .nonzero⟩]

/-- The slow method of `UpdateItemGuids`. -/
def itemGuidsSlow : List Target :=
  [⟨"auction", "itemguid", .all⟩, ⟨"character_aura", "item_guid", .all⟩,
    ⟨"character_aura_suspended", "item_guid", .all⟩, ⟨"character_egg_loot", "itemGuid", .all⟩,
    ⟨"character_gifts", "item_guid", .all⟩, ⟨"character_inventory", "item", .all⟩,
    ⟨"character_inventory", "bag", .all⟩, ⟨"character_item_logs", "itemLowGuid", .all⟩,
    ⟨"item_instance", "guid", .all⟩, ⟨"item_loot", "guid", .all⟩,
    ⟨"mail_items", "item_guid", .all⟩, ⟨"petition", "charterguid", .all⟩,
    ⟨"pet_aura", "item_guid", .all⟩]

/-- `UpdateItemGuids`. -/
def itemGuids : Family where
  key := ("item_instance", "guid")
  fast := itemGuidsFast
  slow := itemGuidsSlow

/-- The fast method of `UpdatePetitionGuids`. -/
def petitionGuidsFast : List Target :=
  [⟨"petition", "petitionguid", .all⟩, ⟨"petition_sign", "petitionguid", .all⟩]

/-- The slow method of `UpdatePetitionGuids`. -/
def petitionGuidsSlow : List Target :=
  [⟨"petition", "petitionguid", .all⟩, ⟨"petition_sign", "petitionguid", .all⟩]

/-- `UpdatePetitionGuids`. -/
def petitionGuids : Family where
  key := ("petition", "petitionguid")
  fast := petitionGuidsFast
  slow := petitionGuidsSlow

/-- The fast method of `UpdatePetGuids`. -/
def petGuidsFast : List Target :=
  [⟨"character_pet", "id", .all⟩, ⟨"pet_aura", "guid", .all⟩, ⟨"pet_spell", "guid", .all⟩,
    ⟨"pet_spell_cooldown", "guid", .all⟩]

/-- The slow method of `UpdatePetGuids`. -/
def petGuidsSlow : List Target :=
  [⟨"character_pet", "id", .all⟩, ⟨"pet_aura", "guid", .all⟩, ⟨"pet_spell", "guid", .all⟩,
    ⟨"pet_spell_cooldown", "guid", .all⟩]

/-- `UpdatePetGuids`. -/
def petGuids : Family where
  key := ("character_pet", "id")
  fast := petGuidsFast
  slow := petGuidsSlow

/-- The fast method of `UpdateCorpseGuids`. -/
def corpseGuidsFast : List Target :=
  [⟨"corpse", "guid", .all⟩]

/-- The slow method of `UpdateCorpseGuids`. -/
def corpseGuidsSlow : List Target :=
  [⟨"corpse", "guid", .all⟩]

/-- `UpdateCorpseGuids`. -/
def corpseGuids : Family where
  key := ("corpse", "guid")
  fast := corpseGuidsFast
  slow := corpseGuidsSlow

/-- The fast method of `UpdateGroupIds`. -/
def groupIdsFast : List Target :=
  [⟨"groups", "groupId", .all⟩, ⟨"group_member", "groupId", .all⟩]

/-- The slow method of `UpdateGroupIds`. -/
def groupIdsSlow : List Target :=
  [⟨"groups", "groupId", .all⟩, ⟨"group_member", "groupId", .all⟩]

/-- `UpdateGroupIds`. -/
def groupIds : Family where
  key := ("groups", "groupId")
  fast := groupIdsFast
  slow := groupIdsSlow

/-- The fast method of `UpdateGuildIds`. -/
def guildIdsFast : List Target :=
  [⟨"guild", "guildid", .all⟩, ⟨"guild_bank", "guildid", .all⟩,
    ⟨"guild_bank_log", "guildid", .all⟩, ⟨"guild_bank_money", "guildid", .all⟩,
    ⟨"guild_bank_tabs", "guildid", .all⟩, ⟨"guild_eventlog", "guildid", .all⟩,
    ⟨"guild_house", "guild_id", .all⟩, ⟨"guild_member", "guildid", .all⟩,
    ⟨"guild_rank", "guildid", .all⟩]

/-- The slow method of `UpdateGuildIds`. -/
def guildIdsSlow : List Target :=
  [⟨"guild", "guildid", .all⟩, ⟨"guild_bank", "guildid", .all⟩,
    ⟨"guild_bank_log", "guildid", .all⟩, ⟨"guild_bank_money", "guildid", .all⟩,
    ⟨"guild_bank_tabs", "guildid", .all⟩, ⟨"guild_eventlog", "guildid", .all⟩,
    ⟨"guild_house", "guildid", .all⟩, ⟨"guild_member", "guildid", .all⟩,
    ⟨"guild_rank", "guildid", .all⟩]

/-- `UpdateGuildIds`. -/
def guildIds : Family where
  key := ("guild", "guildid")
  fast := guildIdsFast
  slow := guildIdsSlow

/-- The fast method of `UpdateInstanceIds`. -/
def instanceIdsFast : List Target :=
  [⟨"bugreports", "playerInstanceId", .nonzero⟩,
    ⟨"character_battleground_data", "instance_id", .nonzero⟩,
    ⟨"character_instance", "instance", .all⟩, ⟨"corpse", "instance", .nonzero⟩,
    ⟨"creature_respawn", "instance", .nonzero⟩, ⟨"gameobject_respawn", "instance", .nonzero⟩,
    ⟨"group_instance", "instance", .all⟩, ⟨"instance", "id", .all⟩]

/-- The slow method of `UpdateInstanceIds`. -/
def instanceIdsSlow : List Target :=
  [⟨"bugreports", "playerInstanceId", .all⟩, ⟨"character_battleground_data", "instance_id", .all⟩,
    ⟨"character_instance", "instance", .all⟩, ⟨"corpse", "instance", .all⟩,
    ⟨"creature_respawn", "instance", .all⟩, ⟨"gameobject_respawn", "instance", .all⟩,
    ⟨"group_instance", "instance", .all⟩, ⟨"instance", "id", .all⟩]

/-- `UpdateInstanceIds`. -/
def instanceIds : Family where
  key := ("instance", "id")
  fast := instanceIdsFast
  slow := instanceIdsSlow

/-- The fast method of `UpdateMailIds`. -/
def mailIdsFast : List Target :=
  [⟨"mail", "id", .all⟩, ⟨"mail_items", "mail_id", .all⟩]

/-- The slow method of `UpdateMailIds`. -/
def mailIdsSlow : List Target :=
  [⟨"mail", "id", .all⟩, ⟨"mail_items", "mail_id", .all⟩]

/-- `UpdateMailIds`. -/
def mailIds : Family where
  key := ("mail", "id")
  fast := mailIdsFast
  slow := mailIdsSlow

/-- The fast method of `UpdateItemTextIds`. -/
def itemTextIdsFast : List Target :=
  [⟨"guild_bank", "text", .nonzero⟩, ⟨"item_instance", "text", .nonzero⟩,
    ⟨"item_text", "id", .all⟩, ⟨"mail", "itemTextId", .nonzero⟩]

/-- The slow method of `UpdateItemTextIds`. -/
def itemTextIdsSlow : List Target :=
  [⟨"guild_bank", "text", .all⟩, ⟨"item_instance", "text", .all⟩, ⟨"item_text", "id", .all⟩,
    ⟨"mail", "itemTextId", .all⟩]

/-- `UpdateItemTextIds`. -/
def itemTextIds : Family where
  key := ("item_text", "id")
  fast := itemTextIdsFast
  slow := itemTextIdsSlow

/-- The fast method of `UpdateTransmogIds`. -/
def transmogIdsFast : List Target :=
  [⟨"item_transmogs", "ID", .all⟩, ⟨"item_instance", "transmogrifyId", .nonzero⟩,
    ⟨"guild_bank", "transmogrifyId", .nonzero⟩]

/-- The slow method of `UpdateTransmogIds`. -/
def transmogIdsSlow : List Target :=
  [⟨"item_transmogs", "ID", .all⟩, ⟨"item_instance", "transmogrifyId", .all⟩,
    ⟨"guild_bank", "transmogrifyId", .all⟩]

/-- `UpdateTransmogIds`. -/
def transmogIds : Family where
  key := ("item_transmogs", "ID")
  fast := transmogIdsFast
  slow := transmogIdsSlow

/-- The fast method of `UpdateAuctionIds`. -/
def auctionIdsFast : List Target :=
  [⟨"auction", "id", .all⟩]

/-- The slow method of `UpdateAuctionIds`. -/
def auctionIdsSlow : List Target :=
  [⟨"auction", "id", .all⟩]

/-- `UpdateAuctionIds`. -/
def auctionIds : Family where
  key := ("auction", "id")
  fast := auctionIdsFast
  slow := auctionIdsSlow

/-- The fast method of `UpdateTicketIds`. -/
def ticketIdsFast : List Target :=
  [⟨"gm_tickets", "ticketId", .all⟩]

/-- The slow method of `UpdateTicketIds`. -/
def ticketIdsSlow : List Target :=
  [⟨"gm_tickets", "ticketId", .all⟩]

/-- `UpdateTicketIds`. -/
def ticketIds : Family where
  key := ("gm_tickets", "ticketId")
  fast := ticketIdsFast
  slow := ticketIdsSlow

/-- All families, in the order of the merge. -/
def families : List Family :=
  [characterGuids, itemGuids, petitionGuids, petGuids, corpseGuids, groupIds, guildIds, instanceIds,
    mailIds, itemTextIds, transmogIds, auctionIds, ticketIds]

end TwowCore.RealmMerge

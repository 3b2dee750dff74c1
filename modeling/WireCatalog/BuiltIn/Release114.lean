import WireCatalog.BuiltIn.Row

/-! # The packet types of release 1.14

Each channel's rows, in the order in which they are registered. -/

namespace WireCatalog.BuiltIn

namespace Release114

/-- Handshaking, from the client. -/
def handshakingIn : List Row :=
  [ .packet "SET_PROTOCOL" "SetProtocol" 0x00 0x00 ]

/-- Handshaking, from the server: nothing. -/
def handshakingOut : List Row := []

/-- Play, from the client. -/
def playIn : List Row :=
  [ .packet "TELEPORT_ACCEPT" "TeleportAccept" 0x00 0x00,
    .packet "TILE_NBT_QUERY" "TileNBTQuery" 0x01 0x01,
    .packet "DIFFICULTY_CHANGE" "DifficultyChange" 0x02 unknownId,
    .packet "CHAT" "Chat" 0x03 0x02,
    .packet "CLIENT_COMMAND" "ClientCommand" 0x04 0x03,
    .packet "SETTINGS" "Settings" 0x05 0x04,
    .packet "TAB_COMPLETE" "TabComplete" 0x06 0x05,
    .packet "TRANSACTION" "Transaction" 0x07 0x06,
    .packet "ENCHANT_ITEM" "EnchantItem" 0x08 0x07,
    .packet "WINDOW_CLICK" "WindowClick" 0x09 0x08,
    .packet "CLOSE_WINDOW" "CloseWindow" 0x0A 0x09,
    .packet "CUSTOM_PAYLOAD" "CustomPayload" 0x0B 0x0A,
    .packet "B_EDIT" "BEdit" 0x0C 0x0B,
    .packet "ENTITY_NBT_QUERY" "EntityNBTQuery" 0x0D 0x0C,
    .packet "USE_ENTITY" "UseEntity" 0x0E 0x0D,
    .packet "KEEP_ALIVE" "KeepAlive" 0x0F 0x0E,
    .packet "DIFFICULTY_LOCK" "DifficultyLock" 0x10 unknownId,
    .packet "POSITION" "Position" 0x11 0x10,
    .packet "POSITION_LOOK" "PositionLook" 0x12 0x11,
    .packet "LOOK" "Look" 0x13 0x12,
    .packet "FLYING" "Flying" 0x14 0x0F,
    .packet "VEHICLE_MOVE" "VehicleMove" 0x15 0x13,
    .packet "BOAT_MOVE" "BoatMove" 0x16 0x14,
    .packet "PICK_ITEM" "PickItem" 0x17 0x15,
    .packet "AUTO_RECIPE" "AutoRecipe" 0x18 0x16,
    .packet "ABILITIES" "Abilities" 0x19 0x17,
    .packet "BLOCK_DIG" "BlockDig" 0x1A 0x18,
    .packet "ENTITY_ACTION" "EntityAction" 0x1B 0x19,
    .packet "STEER_VEHICLE" "SteerVehicle" 0x1C 0x1A,
    .packet "RECIPE_DISPLAYED" "RecipeDisplayed" 0x1D 0x1B,
    .packet "ITEM_NAME" "ItemName" 0x1E 0x1C,
    .packet "RESOURCE_PACK_STATUS" "ResourcePackStatus" 0x1F 0x1D,
    .packet "ADVANCEMENTS" "Advancements" 0x20 0x1E,
    .packet "TR_SEL" "TrSel" 0x21 0x1F,
    .packet "BEACON" "Beacon" 0x22 0x20,
    .packet "HELD_ITEM_SLOT" "HeldItemSlot" 0x23 0x21,
    .packet "SET_COMMAND_BLOCK" "SetCommandBlock" 0x24 0x22,
    .packet "SET_COMMAND_MINECART" "SetCommandMinecart" 0x25 0x23,
    .packet "SET_CREATIVE_SLOT" "SetCreativeSlot" 0x26 0x24,
    .packet "SET_JIGSAW" "SetJigsaw" 0x27 unknownId,
    .packet "STRUCT" "Struct" 0x28 0x25,
    .packet "UPDATE_SIGN" "UpdateSign" 0x29 0x26,
    .packet "ARM_ANIMATION" "ArmAnimation" 0x2A 0x27,
    .packet "SPECTATE" "Spectate" 0x2B 0x28,
    .packet "USE_ITEM" "UseItem" 0x2C 0x29,
    .packet "BLOCK_PLACE" "BlockPlace" 0x2D 0x2A ]

/-- Play, from the server. -/
def playOut : List Row :=
  [ .packet "SPAWN_ENTITY" "SpawnEntity" 0x00 0x00,
    .packet "SPAWN_ENTITY_EXPERIENCE_ORB" "SpawnEntityExperienceOrb" 0x01 0x01,
    .packet "SPAWN_ENTITY_WEATHER" "SpawnEntityWeather" 0x02 0x02,
    .packet "SPAWN_ENTITY_LIVING" "SpawnEntityLiving" 0x03 0x03,
    .packet "SPAWN_ENTITY_PAINTING" "SpawnEntityPainting" 0x04 0x04,
    .packet "NAMED_ENTITY_SPAWN" "NamedEntitySpawn" 0x05 0x05,
    .packet "ANIMATION" "Animation" 0x06 0x06,
    .packet "STATISTIC" "Statistic" 0x07 0x07,
    .packet "BLOCK_BREAK_ANIMATION" "BlockBreakAnimation" 0x08 0x08,
    .packet "TILE_ENTITY_DATA" "TileEntityData" 0x09 0x09,
    .packet "BLOCK_ACTION" "BlockAction" 0x0A 0x0A,
    .packet "BLOCK_CHANGE" "BlockChange" 0x0B 0x0B,
    .packet "BOSS" "Boss" 0x0C 0x0C,
    .packet "SERVER_DIFFICULTY" "ServerDifficulty" 0x0D 0x0D,
    .packet "CHAT" "Chat" 0x0E 0x0E,
    .packet "MULTI_BLOCK_CHANGE" "MultiBlockChange" 0x0F 0x0F,
    .packet "TAB_COMPLETE" "TabComplete" 0x10 0x10,
    .packet "COMMANDS" "Commands" 0x11 0x11,
    .packet "TRANSACTION" "Transaction" 0x12 0x12,
    .packet "CLOSE_WINDOW" "CloseWindow" 0x13 0x13,
    .packet "WINDOW_ITEMS" "WindowItems" 0x14 0x15,
    .packet "WINDOW_DATA" "WindowData" 0x15 0x16,
    .packet "SET_SLOT" "SetSlot" 0x16 0x17,
    .packet "SET_COOLDOWN" "SetCooldown" 0x17 0x18,
    .packet "CUSTOM_PAYLOAD" "CustomPayload" 0x18 0x19,
    .packet "CUSTOM_SOUND_EFFECT" "CustomSoundEffect" 0x19 0x1A,
    .packet "KICK_DISCONNECT" "KickDisconnect" 0x1A 0x1B,
    .packet "ENTITY_STATUS" "EntityStatus" 0x1B 0x1C,
    .packet "EXPLOSION" "Explosion" 0x1C 0x1E,
    .packet "UNLOAD_CHUNK" "UnloadChunk" 0x1D unknownId,
    .packet "GAME_STATE_CHANGE" "GameStateChange" 0x1E 0x20,
    .packet "OPEN_WINDOW_HORSE" "OpenWindowHorse" 0x1F 0x1F,
    .packet "KEEP_ALIVE" "KeepAlive" 0x20 0x21,
    .packet "MAP_CHUNK" "MapChunk" 0x21 0x22,
    .packet "WORLD_EVENT" "WorldEvent" 0x22 0x23,
    .packet "WORLD_PARTICLES" "WorldParticles" 0x23 unknownId,
    .packet "LIGHT_UPDATE" "LightUpdate" 0x24 0x24,
    .packet "LOGIN" "Login" 0x25 0x25,
    .packet "MAP" "Map" 0x26 0x26,
    .packet "OPEN_WINDOW_MERCHANT" "OpenWindowMerchant" 0x27 unknownId,
    .packet "REL_ENTITY_MOVE" "RelEntityMove" 0x28 0x28,
    .packet "REL_ENTITY_MOVE_LOOK" "RelEntityMoveLook" 0x29 0x29,
    .packet "ENTITY_LOOK" "EntityLook" 0x2A 0x2A,
    .packet "ENTITY" "Entity" 0x2B 0x27,
    .packet "VEHICLE_MOVE" "VehicleMove" 0x2C 0x2B,
    .packet "OPEN_BOOK" "OpenBook" 0x2D unknownId,
    .packet "OPEN_WINDOW" "OpenWindow" 0x2E 0x14,
    .packet "OPEN_SIGN_EDITOR" "OpenSignEditor" 0x2F 0x2C,
    .packet "AUTO_RECIPE" "AutoRecipe" 0x30 0x2D,
    .packet "ABILITIES" "Abilities" 0x31 0x2E,
    .packet "COMBAT_EVENT" "CombatEvent" 0x32 0x2F,
    .packet "PLAYER_INFO" "PlayerInfo" 0x33 0x30,
    .packet "LOOK_AT" "LookAt" 0x34 0x31,
    .packet "POSITION" "Position" 0x35 0x32,
    .packet "RECIPES" "Recipes" 0x36 0x34,
    .packet "ENTITY_DESTROY" "EntityDestroy" 0x37 0x35,
    .packet "REMOVE_ENTITY_EFFECT" "RemoveEntityEffect" 0x38 0x36,
    .packet "RESOURCE_PACK_SEND" "ResourcePackSend" 0x39 0x37,
    .packet "RESPAWN" "Respawn" 0x3A 0x38,
    .packet "ENTITY_HEAD_ROTATION" "EntityHeadRotation" 0x3B 0x39,
    .packet "SELECT_ADVANCEMENT_TAB" "SelectAdvancementTab" 0x3C 0x3A,
    .packet "WORLD_BORDER" "WorldBorder" 0x3D 0x3B,
    .packet "CAMERA" "Camera" 0x3E 0x3C,
    .packet "HELD_ITEM_SLOT" "HeldItemSlot" 0x3F 0x3D,
    .packet "VIEW_CENTRE" "ViewCentre" 0x40 unknownId,
    .packet "VIEW_DISTANCE" "ViewDistance" 0x41 unknownId,
    .packet "SCOREBOARD_DISPLAY_OBJECTIVE" "ScoreboardDisplayObjective" 0x42 0x3E,
    .packet "ENTITY_METADATA" "EntityMetadata" 0x43 0x3F,
    .packet "ATTACH_ENTITY" "AttachEntity" 0x44 0x40,
    .packet "ENTITY_VELOCITY" "EntityVelocity" 0x45 0x41,
    .packet "ENTITY_EQUIPMENT" "EntityEquipment" 0x46 0x42,
    .packet "EXPERIENCE" "Experience" 0x47 0x43,
    .packet "UPDATE_HEALTH" "UpdateHealth" 0x48 0x44,
    .packet "SCOREBOARD_OBJECTIVE" "ScoreboardObjective" 0x49 0x45,
    .packet "MOUNT" "Mount" 0x4A 0x46,
    .packet "SCOREBOARD_TEAM" "ScoreboardTeam" 0x4B 0x47,
    .packet "SCOREBOARD_SCORE" "ScoreboardScore" 0x4C 0x48,
    .packet "SPAWN_POSITION" "SpawnPosition" 0x4D 0x49,
    .packet "UPDATE_TIME" "UpdateTime" 0x4E 0x4A,
    .packet "TITLE" "Title" 0x4F 0x4B,
    .packet "ENTITY_SOUND" "EntitySound" 0x50 unknownId,
    .packet "NAMED_SOUND_EFFECT" "NamedSoundEffect" 0x51 0x4D,
    .packet "STOP_SOUND" "StopSound" 0x52 0x4C,
    .packet "PLAYER_LIST_HEADER_FOOTER" "PlayerListHeaderFooter" 0x53 0x4E,
    .packet "NBT_QUERY" "NBTQuery" 0x54 0x1D,
    .packet "COLLECT" "Collect" 0x55 0x4F,
    .packet "ENTITY_TELEPORT" "EntityTeleport" 0x56 0x50,
    .packet "ADVANCEMENTS" "Advancements" 0x57 0x51,
    .packet "UPDATE_ATTRIBUTES" "UpdateAttributes" 0x58 0x52,
    .packet "ENTITY_EFFECT" "EntityEffect" 0x59 0x53,
    .packet "RECIPE_UPDATE" "RecipeUpdate" 0x5A 0x54,
    .packet "TAGS" "Tags" 0x5B 0x55,
    .packet "BLOCK_BREAK" "BlockBreak" 0x5C 0x5C,
    -- Removed in 1.9.
    .removed "MAP_CHUNK_BULK" "MapChunkBulk" 255,
    .removed "SET_COMPRESSION" "SetCompression" 254,
    .removed "UPDATE_ENTITY_NBT" "UpdateEntityNBT" 253,
    -- Removed in 1.14; its last id now belongs to PLAYER_INFO.
    .removed "USE_BED" "UseBed" 0x33,
    .renamed "CRAFT_PROGRESS_BAR" "WINDOW_DATA",
    .renamed "ENTITY_MOVE_LOOK" "REL_ENTITY_MOVE_LOOK",
    .renamed "STATISTICS" "STATISTIC",
    .renamed "OPEN_SIGN_ENTITY" "OPEN_SIGN_EDITOR",
    .renamed "UPDATE_SIGN" "TILE_ENTITY_DATA" ]

/-- Status, from the client. -/
def statusIn : List Row :=
  [ .packet "START" "Start" 0x00 0x00,
    .packet "PING" "Ping" 0x01 0x01 ]

/-- Status, from the server. -/
def statusOut : List Row :=
  [ .asyncPacket "SERVER_INFO" "ServerInfo" 0x00 0x00,
    .packet "PONG" "Pong" 0x01 0x01,
    .renamed "OUT_SERVER_INFO" "SERVER_INFO" ]

/-- Login, from the client. -/
def loginIn : List Row :=
  [ .packet "START" "Start" 0x00 0x00,
    .packet "ENCRYPTION_BEGIN" "EncryptionBegin" 0x01 0x01,
    .packet "CUSTOM_PAYLOAD" "CustomPayload" 0x02 unknownId ]

/-- Login, from the server. -/
def loginOut : List Row :=
  [ .packet "DISCONNECT" "Disconnect" 0x00 0x00,
    .packet "ENCRYPTION_BEGIN" "EncryptionBegin" 0x01 0x01,
    .packet "SUCCESS" "Success" 0x02 0x02,
    .packet "SET_COMPRESSION" "SetCompression" 0x03 0x03,
    .packet "CUSTOM_PAYLOAD" "CustomPayload" 0x04 unknownId ]

/-- Old wire format, from the client. -/
def legacyIn : List Row :=
  [ .legacy "LOGIN" "Login" 1,
    .legacy "RESPAWN" "Respawn" 9,
    .legacy "DISCONNECT" "Disconnect" 255 ]

/-- Old wire format, from the server. -/
def legacyOut : List Row :=
  [ .legacy "PLAYER_FLYING" "PlayerFlying" 10,
    .legacy "PLAYER_POSITION" "PlayerPosition" 11,
    .legacy "PLAYER_POSITON_LOOK" "PlayerPositionLook" 12,
    -- Removed in 1.4.6.
    .legacy "PICKUP_SPAWN" "PickupSpawn" 21,
    -- Removed in 1.7.2.
    .legacy "SET_CREATIVE_SLOT" "SetCreativeSlot" 107,
    .legacy "KEY_RESPONSE" "KeyResponse" 252 ]

end Release114

/-- The packet types of release 1.14. -/
def release114 : Table where
  version := .villageUpdate
  channels :=
    [ (⟨.handshaking, .clientToServer⟩, Release114.handshakingIn),
      (⟨.handshaking, .serverToClient⟩, Release114.handshakingOut),
      (⟨.play, .clientToServer⟩, Release114.playIn),
      (⟨.play, .serverToClient⟩, Release114.playOut),
      (⟨.status, .clientToServer⟩, Release114.statusIn),
      (⟨.status, .serverToClient⟩, Release114.statusOut),
      (⟨.login, .clientToServer⟩, Release114.loginIn),
      (⟨.login, .serverToClient⟩, Release114.loginOut),
      (⟨.legacy, .clientToServer⟩, Release114.legacyIn),
      (⟨.legacy, .serverToClient⟩, Release114.legacyOut) ]

/-- Every table, the newest release first. -/
def tables : List Table := [release114]

/-- The newest table that is not newer than a version, or else the oldest one. -/
def tableFor (v : Version) : Table :=
  (tables.find? fun t => v.atLeast t.version).getD release114

end WireCatalog.BuiltIn

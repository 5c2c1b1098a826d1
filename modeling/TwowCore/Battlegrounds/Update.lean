import TwowCore.Battlegrounds.Queue

/-!
# Updating the battleground queue

`Update` removes players who should not be queued any more, fills the battlegrounds that have room,
and then looks for new matches, with `CheckPremadeMatch` and once or twice with `CheckNormalMatch`.
What it reads outside the queue (the players in the world, the battlegrounds, the configuration, the
clock, the shuffles) is its environment.

`Match` records each battleground that is created for the groups of the queue, with the queue as it
was when the check that found it began.
-/

namespace TwowCore.Battlegrounds

/-- `std::shuffle` with some random engine. -/
structure Shuffle where
  apply : List GroupPtr → List GroupPtr
  perm : ∀ groups, (apply groups).Perm groups

/-- A battleground of `BGFreeSlotQueue`, as `FillPlayersToBG` finds it. -/
structure FreeSlotBG where
  instanceId : UInt32
  clientInstanceId : UInt32
  typeId : ℕ
  bracketId : BattleGroundBracketId
  /-- the status is after `STATUS_WAIT_QUEUE` and before `STATUS_WAIT_LEAVE` -/
  running : Bool
  isArena : Bool
  freeSlots : Team → ℕ

/-- The configuration. -/
structure BGConfig where
  randomize : Bool
  invitationType : ℕ
  premadeQueueGroupMinSize : ℕ
  premadeGroupWaitForMatch : UInt32
  avMinPlayersInQueue : ℕ
  avInitialMaxPlayers : ℕ
  isTesting : Bool
  deriving DecidableEq, Repr

/-- The players per team of a battleground template. -/
structure BGTemplate where
  minPlayersPerTeam : ℕ
  maxPlayersPerTeam : ℕ
  deriving DecidableEq, Repr

/-- What one `Update` is called with and reads outside the queue. -/
structure UpdateEnv where
  bgTypeId : ℕ
  bracketId : BattleGroundBracketId
  now : UInt32
  world : ObjectGuid → Option WorldPlayer
  /-- the battleground with this instance and type is there and waits for its players to leave -/
  ended : UInt32 → ℕ → Bool
  config : BGConfig
  shuffle : Team → Shuffle
  avShuffle : Team → Shuffle
  freeSlotBGs : List FreeSlotBG
  bgTemplate : Option BGTemplate
  /-- the instance of the battleground `CreateNewBattleGround` makes when it is called for the
  first, second, ... time -/
  createNewBattleGround : ℕ → Option UInt32
  /-- what `IsAllQueuesEmpty` reads past the lists of the last bracket -/
  emptyPastEnd : Bool

/-- `BATTLEGROUND_AV`. -/
def battlegroundAV : ℕ := 1

/-- `OFFLINE_BG_QUEUE_TIME`, in milliseconds. -/
def offlineBGQueueTime : UInt32 := 60000

/-- `getMSTimeDiff`. -/
def getMSTimeDiff (old new : UInt32) : UInt32 :=
  if new < old then min ((0xFFFFFFFF - old) + new) (old - new) else new - old

namespace SelectionPool

variable (infos : GroupPtr → Option GroupQueueInfo) (world : ObjectGuid → Option WorldPlayer)

/-- Adds groups from the front of a list as long as `AddGroup` returns true; what is left of the
list. -/
def addWhile (desiredCount : ℕ) (bgInstanceId : UInt32) (pool : SelectionPool) :
    List GroupPtr → SelectionPool × List GroupPtr
  | [] => (pool, [])
  | ptr :: rest =>
      match pool.addGroup infos world ptr desiredCount bgInstanceId with
      | (true, pool') => addWhile desiredCount bgInstanceId pool' rest
      | (false, pool') => (pool', ptr :: rest)

/-- The loop of the two checks over a list: groups that are eligible are tried until the pool has
`minPlayers`. The list it returns begins with the group it has stopped at. -/
def walk (eligible : GroupPtr → Bool) (minPlayers maxPlayers : ℕ) (pool : SelectionPool) :
    List GroupPtr → SelectionPool × List GroupPtr
  | [] => (pool, [])
  | ptr :: rest =>
      if eligible ptr then
        let pool' := (pool.addGroup infos world ptr maxPlayers 0).2
        if minPlayers ≤ pool'.playerCount then (pool', ptr :: rest)
        else walk eligible minPlayers maxPlayers pool' rest
      else walk eligible minPlayers maxPlayers pool rest

/-- The loop of `CheckNormalMatch` that tries to give both sides the same number of players. -/
def balance (eligible : GroupPtr → Bool) (desiredCount : ℕ) (pool : SelectionPool) :
    List GroupPtr → SelectionPool
  | [] => pool
  | ptr :: rest =>
      if eligible ptr then
        match pool.addGroup infos world ptr desiredCount 0 with
        | (true, pool') => balance eligible desiredCount pool' rest
        | (false, pool') => pool'
      else balance eligible desiredCount pool rest

end SelectionPool

/-- The pools of the two sides and the groups each has still to try, in `FillPlayersToBG`. -/
structure Filling where
  pool : Team → SelectionPool
  rest : Team → List GroupPtr

namespace Filling

variable (infos : GroupPtr → Option GroupQueueInfo) (world : ObjectGuid → Option WorldPlayer)
  (bg : FreeSlotBG)

/-- `AddGroup` for the groups of a side as long as it returns true. -/
def add (s : Filling) (team : Team) (desiredCount : ℕ) : Filling :=
  let added := (s.pool team).addWhile infos world desiredCount bg.clientInstanceId (s.rest team)
  ⟨Function.update s.pool team added.1, Function.update s.rest team added.2⟩

/-- `KickGroup` in the pool of a side. -/
def kick (s : Filling) (team : Team) (size : ℕ) : Bool × Filling :=
  let kicked := (s.pool team).kickGroup infos size
  (kicked.1, { s with pool := Function.update s.pool team kicked.2 })

/-- The free slots the selection leaves to a side, `diffAli` or `diffHorde`. -/
def diff (s : Filling) (team : Team) : ℤ :=
  (bg.freeSlots team : ℤ) - (s.pool team).playerCount

/-- The condition of the loop that evens out the two sides. -/
def Uneven (s : Filling) : Prop :=
  (if bg.typeId = battlegroundAV then 3 else 0) < (s.diff bg .alliance - s.diff bg .horde).natAbs ∧
    (0 < (s.pool .horde).playerCount ∨ 0 < (s.pool .alliance).playerCount)

instance (s : Filling) : Decidable (s.Uneven bg) := inferInstanceAs (Decidable (_ ∧ _))

/-- One turn of that loop for the side that has the fewer free slots, and whether it goes on; it does
not after the `break`. -/
def evenOut (s : Filling) (team : Team) : Bool × Filling :=
  let gap := (s.diff bg team.other - s.diff bg team).toNat
  let kicked := s.kick infos team gap
  let s' :=
    if kicked.1 then
      kicked.2.add infos world bg team ((bg.freeSlots team : ℤ) - s.diff bg team.other).toNat
    else kicked.2
  if (s'.pool team).playerCount = 0 then
    if (bg.freeSlots team : ℤ) ≤ s.diff bg team.other + 1 then (false, s')
    else (true, (s'.kick infos team.other gap).2)
  else (true, s')

/-- The loop, with an upper bound on its turns: each kicks a group or gets on in a list. -/
def evenOutLoop : ℕ → Filling → Filling
  | 0, s => s
  | turns + 1, s =>
      if s.Uneven bg then
        match s.evenOut infos world bg
            (if s.diff bg .alliance < s.diff bg .horde then .alliance else .horde) with
        | (false, s') => s'
        | (true, s') => evenOutLoop turns s'
      else s

end Filling

/-- A battleground that is created for the groups of the queue. -/
structure Match where
  premade : Bool
  /-- the queue when the check that found the match began -/
  before : BattleGroundQueue
  /-- the queue when the check has returned true -/
  selected : BattleGroundQueue
  minPlayers : ℕ
  maxPlayers : ℕ

/-- What becomes of an `Update`: the queue after it and the battlegrounds created, in their order. -/
structure Updated where
  queue : BattleGroundQueue
  created : List Match

namespace BattleGroundQueue

variable (env : UpdateEnv)

section Remove

/-- The player should not be queued any more: offline for long, or invited to a battleground that
has ended. -/
def stale (q : BattleGroundQueue) (info : PlayerQueueInfo) : Bool :=
  (!info.online && offlineBGQueueTime < getMSTimeDiff info.lastOnlineTime env.now) ||
    match q.groupInfos info.groupInfo with
    | none => false
    | some g =>
        !decide g.Waits && env.ended g.isInvitedToBGInstanceGUID g.bgTypeId

/-- The first loop of `Update`, which begins again after each removal; with a bound on the
removals. -/
def removeStale : ℕ → BattleGroundQueue → BattleGroundQueue
  | 0, q => q
  | removals + 1, q =>
      match q.queuedPlayers.find? fun entry => q.stale env entry.2 with
      | none => q
      | some entry => removeStale removals (q.removePlayer entry.1)

/-- `IsAllQueuesEmpty`. Its loop runs to `BG_QUEUE_MAX`, which is 6, over the four lists of a
bracket, and so reads the first two of the next one. -/
def isAllQueuesEmpty (q : BattleGroundQueue) (bracket : BattleGroundBracketId) : Bool :=
  (q.queuedGroups bracket (.premade .alliance)).isEmpty &&
    (q.queuedGroups bracket (.premade .horde)).isEmpty &&
    (q.queuedGroups bracket (.normal .alliance)).isEmpty &&
    (q.queuedGroups bracket (.normal .horde)).isEmpty &&
    if h : bracket.val + 1 < 8 then
      (q.queuedGroups ⟨bracket.val + 1, h⟩ (.premade .alliance)).isEmpty &&
        (q.queuedGroups ⟨bracket.val + 1, h⟩ (.premade .horde)).isEmpty
    else env.emptyPastEnd

end Remove

/-- A normal list is shuffled. -/
def shuffleNormal (q : BattleGroundQueue) (team : Team) (shuffle : List GroupPtr → List GroupPtr) :
    BattleGroundQueue :=
  q.setGroups env.bracketId (.normal team) (shuffle (q.queuedGroups env.bracketId (.normal team)))

/-- Both pools are cleared. -/
def initPools (q : BattleGroundQueue) : BattleGroundQueue :=
  { q with selectionPools := fun _ => SelectionPool.init }

section Fill

/-- `FillPlayersToBG`. -/
def fillPlayersToBG (q : BattleGroundQueue) (bg : FreeSlotBG) : BattleGroundQueue :=
  if bg.isArena then q
  else
    let ali := q.queuedGroups env.bracketId (.normal .alliance)
    let horde := q.queuedGroups env.bracketId (.normal .horde)
    let start : Filling :=
      ⟨q.selectionPools, fun team => q.queuedGroups env.bracketId (.normal team)⟩
    let filled := (start.add q.groupInfos env.world bg .alliance (bg.freeSlots .alliance)).add
      q.groupInfos env.world bg .horde (bg.freeSlots .horde)
    if env.config.invitationType = 0 then { q with selectionPools := filled.pool }
    else
      { q with
        selectionPools := (filled.evenOutLoop q.groupInfos env.world bg
          (2 * (ali.length + horde.length) + 1)).pool }

/-- One battleground of the loop of `Update` over those with free slots. -/
def fillOne (q : BattleGroundQueue) (bg : FreeSlotBG) : BattleGroundQueue :=
  if bg.typeId = env.bgTypeId ∧ bg.bracketId = env.bracketId ∧ bg.running then
    (q.initPools.fillPlayersToBG env bg).inviteAllGroupsToBg bg.instanceId env.now
  else q

end Fill

section Checks

/-- The group waits. -/
def waits (q : BattleGroundQueue) (ptr : GroupPtr) : Bool :=
  match q.groupInfos ptr with
  | none => false
  | some g => decide g.Waits

/-- The group waits and is large enough for a premade match. -/
def waitsPremade (q : BattleGroundQueue) (ptr : GroupPtr) : Bool :=
  q.waits ptr &&
    decide (env.config.premadeQueueGroupMinSize ≤ SelectionPool.sizeOf q.groupInfos ptr)

/-- The loop of `CheckPremadeMatch` over one list, into the pool of its side. -/
def walkPremade (minPlayers maxPlayers : ℕ) (q : BattleGroundQueue) (index : GroupTypes) :
    BattleGroundQueue :=
  { q with
    selectionPools := Function.update q.selectionPools index.team
      ((q.selectionPools index.team).walk q.groupInfos env.world (q.waitsPremade env) minPlayers
        maxPlayers (q.queuedGroups env.bracketId index)).1 }

/-- The group has been in the premade queue for too long, or has got too small. -/
def leavesPremade (q : BattleGroundQueue) (minPlayers : ℕ) (ptr : GroupPtr) : Bool :=
  match q.groupInfos ptr with
  | none => false
  | some g =>
      decide g.Waits && (g.joinTime < env.now - env.config.premadeGroupWaitForMatch ||
        decide (g.players.length < minPlayers))

/-- The first group of a premade list may move to the normal list. -/
def movePremade (minPlayers : ℕ) (q : BattleGroundQueue) (team : Team) : BattleGroundQueue :=
  match q.queuedGroups env.bracketId (.premade team) with
  | [] => q
  | ptr :: rest =>
      if q.leavesPremade env minPlayers ptr then
        (q.setGroups env.bracketId (.normal team)
          (q.queuedGroups env.bracketId (.normal team) ++ [ptr])).setGroups env.bracketId
            (.premade team) rest
      else q

/-- `GetPlayerCount` of the pool of a side. -/
def playerCount (q : BattleGroundQueue) (team : Team) : ℕ := (q.selectionPools team).playerCount

/-- Both pools have the players they need; in testing mode one player is enough. -/
def enoughPlayers (q : BattleGroundQueue) (minPlayers : ℕ) : Bool :=
  (env.config.isTesting && decide (0 < q.playerCount .alliance ∨ 0 < q.playerCount .horde)) ||
    decide (minPlayers ≤ q.playerCount .alliance ∧ minPlayers ≤ q.playerCount .horde)

/-- `CheckPremadeMatch`. -/
def checkPremadeMatch (q : BattleGroundQueue) (minPlayers maxPlayers : ℕ) :
    Bool × BattleGroundQueue :=
  let q' := [GroupTypes.premade .alliance, .premade .horde, .normal .alliance, .normal .horde].foldl
    (walkPremade env minPlayers maxPlayers) q
  if q'.enoughPlayers env minPlayers then (true, q')
  else (false, [Team.alliance, .horde].foldl (movePremade env minPlayers) q')

/-- The loop of `CheckNormalMatch` over the normal list of a side. -/
def walkNormal (q : BattleGroundQueue) (minPlayers maxPlayers : ℕ) (team : Team) :
    SelectionPool × List GroupPtr :=
  (q.selectionPools team).walk q.groupInfos env.world q.waits minPlayers maxPlayers
    (q.queuedGroups env.bracketId (.normal team))

/-- The pools after both loops. -/
def walkBoth (q : BattleGroundQueue) (minPlayers maxPlayers : ℕ) : BattleGroundQueue :=
  { q with selectionPools := fun team => (q.walkNormal env minPlayers maxPlayers team).1 }

/-- The side that gets more groups: `j`. -/
def behind (q : BattleGroundQueue) : Team :=
  if q.playerCount .horde < q.playerCount .alliance then .horde else .alliance

/-- The side that is behind gets more groups from what is left of its list. -/
def catchUp (q : BattleGroundQueue) (rest : List GroupPtr) : BattleGroundQueue :=
  { q with
    selectionPools := Function.update q.selectionPools q.behind
      ((q.selectionPools q.behind).balance q.groupInfos env.world q.waits
        (q.playerCount q.behind.other) rest) }

/-- `CheckNormalMatch`. It is `none` when the iterator of the side that is behind is moved on from
the end of its list, where nothing more can be said. -/
def checkNormalMatch (q : BattleGroundQueue) (minPlayers maxPlayers : ℕ) :
    Option (Bool × BattleGroundQueue) :=
  let walked := q.walkBoth env minPlayers maxPlayers
  if env.config.invitationType ≠ 0 ∧ minPlayers ≤ walked.playerCount .horde ∧
      minPlayers ≤ walked.playerCount .alliance then
    match (q.walkNormal env minPlayers maxPlayers walked.behind).2 with
    | [] => none
    | _ :: rest =>
        let caught := walked.catchUp env rest
        if 1 < ((caught.playerCount .horde : ℤ) - caught.playerCount .alliance).natAbs then
          some (false, caught)
        else some (caught.enoughPlayers env minPlayers, caught)
  else some (walked.enoughPlayers env minPlayers, walked)

/-- What follows a check that has returned true: a battleground is created and the groups of the
pools are invited; `none` when it cannot be created. -/
def startMatch (q : BattleGroundQueue) (call : ℕ) : Option BattleGroundQueue :=
  (env.createNewBattleGround call).map fun bgInstance =>
    (q.inviteAllGroupsToBg bgInstance env.now).initPools

/-- The attempts to create a normal match; `call` counts the battlegrounds created. -/
def normalMatches (minPlayers maxPlayers : ℕ) :
    ℕ → ℕ → BattleGroundQueue → Updated
  | 0, _, q => ⟨q, []⟩
  | attempts + 1, call, q =>
      match q.checkNormalMatch env minPlayers maxPlayers with
      | none => ⟨q, []⟩
      | some (false, q') => normalMatches minPlayers maxPlayers attempts call q'
      | some (true, q') =>
          match q'.startMatch env call with
          | none => ⟨q', []⟩
          | some q'' =>
              let later := normalMatches minPlayers maxPlayers attempts (call + 1) q''
              ⟨later.queue, ⟨false, q, q', minPlayers, maxPlayers⟩ :: later.created⟩

/-- The end of `Update`, from where the pools are cleared. -/
def createMatches (q : BattleGroundQueue) (minPlayers maxPlayers attempts : ℕ) : Updated :=
  match q.initPools.checkPremadeMatch env minPlayers maxPlayers with
  | (false, q') => q'.normalMatches env minPlayers maxPlayers attempts 0
  | (true, q') =>
      match q'.startMatch env 0 with
      | none => ⟨q', []⟩
      | some q'' =>
          let later := q''.normalMatches env minPlayers maxPlayers attempts 1
          ⟨later.queue, ⟨true, q.initPools, q', minPlayers, maxPlayers⟩ :: later.created⟩

end Checks

section Limits

/-- `playersInQueuePerTeam`: the groups of a normal list that wait. -/
def playersInQueue (q : BattleGroundQueue) (team : Team) : ℕ :=
  (q.queuedGroups env.bracketId (.normal team)).countP q.waits

/-- The minimum of players in the queue of Alterac Valley is checked. -/
def avMinimum : Bool :=
  env.bgTypeId = battlegroundAV && env.config.avMinPlayersInQueue ≠ 0 && !env.config.isTesting

/-- There are fewer groups than that minimum. -/
def avTooFew (q : BattleGroundQueue) : Bool :=
  q.playersInQueue env .alliance < env.config.avMinPlayersInQueue ||
    q.playersInQueue env .horde < env.config.avMinPlayersInQueue

/-- The front of a normal list of Alterac Valley is shuffled. -/
def shuffleFront (team : Team) (groups : List GroupPtr) : List GroupPtr :=
  (env.avShuffle team).apply (groups.take env.config.avMinPlayersInQueue) ++
    groups.drop env.config.avMinPlayersInQueue

/-- The first part of `Update`: removals, and a shuffle if there is one. -/
def prepared (q : BattleGroundQueue) : BattleGroundQueue :=
  [Team.alliance, .horde].foldl
    (fun q' team =>
      if env.config.randomize then q'.shuffleNormal env team (env.shuffle team).apply else q') q

/-- The part for the minimum of Alterac Valley: the queue and `normalMatchesCreationAttempts`. -/
def avQueue (q : BattleGroundQueue) : BattleGroundQueue × ℕ :=
  if avMinimum env then
    if q.avTooFew env then (q, 0)
    else
      ([Team.alliance, .horde].foldl
        (fun q' team => q'.shuffleNormal env team (shuffleFront env team)) q, 1)
  else (q, 1)

/-- The part for the larger start of Alterac Valley: `MaxPlayersPerTeam` and the attempts. -/
def avLimits (tmpl : BGTemplate) (attempts : ℕ) : ℕ × ℕ :=
  if env.bgTypeId = battlegroundAV ∧ env.config.avInitialMaxPlayers ≠ 0 ∧
      env.config.isTesting = false ∧ attempts ≠ 0 then
    (max env.config.avInitialMaxPlayers tmpl.minPlayersPerTeam, 2)
  else (tmpl.maxPlayersPerTeam, attempts)

/-- `Update`. -/
def update (q : BattleGroundQueue) : Updated :=
  let q₁ := q.removeStale env q.queuedPlayers.length
  if q₁.isAllQueuesEmpty env env.bracketId then ⟨q₁, []⟩
  else
    let q₂ := env.freeSlotBGs.foldl (fillOne env) (q₁.prepared env)
    match env.bgTemplate with
    | none => ⟨q₂, []⟩
    | some tmpl =>
        let (q₃, attempts) := q₂.avQueue env
        let (maxPlayers, attempts) := avLimits env tmpl attempts
        let minPlayers := if env.config.isTesting then 1 else tmpl.minPlayersPerTeam
        q₃.createMatches env minPlayers maxPlayers attempts

end Limits

end BattleGroundQueue

end TwowCore.Battlegrounds

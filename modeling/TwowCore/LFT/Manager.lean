import TwowCore.Lib.Entries
import TwowCore.Lib.Run

/-!
# Looking for a team

`LFTManager`: the queue, the rolechecks of parties that want to join it, and the offers made to five
queued players. The players and their groups belong to the rest of the server, which may change them
between two calls; a call finds them in a `World`. Messages to players are left out.
-/

namespace TwowCore.LFT

/-- `ObjectGuid`, 0 being the empty one. -/
abbrev Guid := ℕ

/-- `LFTRoles`. -/
inductive Role where
  | tank
  | healer
  | damage
  deriving DecidableEq, Repr

/-- Some of the roles. -/
structure RoleMask where
  tank : Bool
  healer : Bool
  damage : Bool
  deriving DecidableEq, Repr

namespace RoleMask

def none : RoleMask := ⟨false, false, false⟩

/-- The mask has a role. -/
def has (mask : RoleMask) : Role → Bool
  | .tank => mask.tank
  | .healer => mask.healer
  | .damage => mask.damage

/-- `mask & mask'`. -/
def inter (mask mask' : RoleMask) : RoleMask :=
  ⟨mask.tank && mask'.tank, mask.healer && mask'.healer, mask.damage && mask'.damage⟩

end RoleMask

/-- `Classes`. -/
inductive PlayerClass where
  | warrior
  | paladin
  | hunter
  | rogue
  | priest
  | shaman
  | mage
  | warlock
  | druid
  deriving DecidableEq, Repr

/-- `AllowedRoleMask`. -/
def allowedRoleMask : PlayerClass → RoleMask
  | .druid => ⟨true, true, true⟩
  | .hunter => ⟨false, false, true⟩
  | .mage => ⟨false, false, true⟩
  | .paladin => ⟨true, true, true⟩
  | .priest => ⟨false, true, true⟩
  | .rogue => ⟨false, false, true⟩
  | .shaman => ⟨false, true, true⟩
  | .warlock => ⟨false, false, true⟩
  | .warrior => ⟨true, false, true⟩

/-- `ParseRoleMask`. -/
def parseRoleMask (roles : String) : RoleMask :=
  ⟨roles.toList.any fun c => c == 't' || c == 'T', roles.toList.any fun c => c == 'h' || c == 'H',
    roles.toList.any fun c => c == 'd' || c == 'D'⟩

/-- `SplitPreserveEmpty`, over the characters that are left. -/
def splitPreserveEmpty (delimiter : Char) : List Char → List Char → List String
  | current, [] => [String.ofList current]
  | current, c :: rest =>
      if c = delimiter then String.ofList current :: splitPreserveEmpty delimiter [] rest
      else splitPreserveEmpty delimiter (current ++ [c]) rest

/-- `GetSharedInstances`. -/
def getSharedInstances (requested : List String) : List String :=
  requested.foldl (fun instances name =>
    if name = "" ∨ name ∈ instances then instances else instances ++ [name]) []

/-- `PickRole`. -/
def pickRole (mask : RoleMask) (tanks healers damage : ℕ) : Option Role :=
  if mask.tank ∧ tanks < 1 then some .tank
  else if mask.healer ∧ healers < 1 then some .healer
  else if mask.damage ∧ damage < 3 then some .damage
  else none

/-- A player. -/
structure PlayerData where
  cls : PlayerClass
  team : ℕ
  isHardcore : Bool
  inWorld : Bool
  deriving DecidableEq, Repr

/-- `Group`. -/
structure Group where
  id : ℕ
  leader : Guid
  members : List Guid
  isRaid : Bool
  deriving DecidableEq, Repr

/-- The players and the groups, whether two sides may play together, and
`HandleHardcoreInteraction`. -/
structure World where
  players : Guid → Option PlayerData
  groups : List Group
  nextGroupId : ℕ
  allowTwoSide : Bool
  hardcoreAllowed : Guid → Guid → Bool

namespace World

/-- `GetPlayer`: one that is in the world. -/
def getPlayer (w : World) (guid : Guid) : Option PlayerData :=
  (w.players guid).filter (·.inWorld)

/-- `Player::GetGroup`. -/
def groupOf (w : World) (guid : Guid) : Option Group :=
  w.groups.find? fun g => decide (guid ∈ g.members)

/-- `GetPartyMembers`. -/
def getPartyMembers (w : World) (leader : Guid) : List Guid :=
  match w.groupOf leader with
  | none => [leader]
  | some g => g.members.filter fun guid => (w.getPlayer guid).isSome

/-- `CanPlayersGroup`. -/
def canPlayersGroup (w : World) (leader member : Guid) (p q : PlayerData) : Bool :=
  (w.allowTwoSide || p.team == q.team) && w.hardcoreAllowed leader member

end World

/-- `QueuedPlayer`. -/
structure QueuedPlayer where
  queueLeaderGuid : Guid
  team : ℕ
  isHardcore : Bool
  queueOrder : ℕ
  instances : List String
  roleMask : RoleMask
  assignedRole : Option Role
  deriving DecidableEq, Repr

/-- `PendingRolecheck`. -/
structure PendingRolecheck where
  members : List Guid
  instances : List String
  responses : List (Guid × RoleMask)
  timer : ℕ
  deriving DecidableEq, Repr

/-- `Offer`. -/
structure Offer where
  instanceName : String
  roles : List (Guid × Role)
  accepted : List Guid
  timer : ℕ
  deriving DecidableEq, Repr

/-- `accepted.insert`. -/
def Offer.accept (offer : Offer) (guid : Guid) : Offer :=
  { offer with
    accepted := if guid ∈ offer.accepted then offer.accepted else offer.accepted ++ [guid] }

/-- The maps of `LFTManager`. -/
structure Manager where
  queue : List (Guid × QueuedPlayer)
  rolechecks : List (Guid × PendingRolecheck)
  offers : List (ℕ × Offer)
  playerOffers : List (Guid × ℕ)
  nextOfferId : ℕ
  nextQueueOrder : ℕ
  deriving DecidableEq, Repr

/-- `LFT_ROLECHECK_TIMEOUT` and `LFT_OFFER_TIMEOUT`. -/
def timeout : ℕ := 90000

/-- `queueLeaderGuid.IsEmpty() ? guid : queueLeaderGuid`. -/
def QueuedPlayer.leaderOf (q : QueuedPlayer) (guid : Guid) : Guid :=
  if q.queueLeaderGuid = 0 then guid else q.queueLeaderGuid

/-- Those who have been selected for an offer, and how many of each role. -/
structure Staff where
  roles : List (Guid × Role)
  tanks : ℕ
  healers : ℕ
  damage : ℕ
  deriving DecidableEq, Repr

namespace Staff

def empty : Staff := ⟨[], 0, 0, 0⟩

/-- A player gets a role. -/
def add (s : Staff) (guid : Guid) : Role → Staff
  | .tank => { s with roles := Lib.setEntry guid .tank s.roles, tanks := s.tanks + 1 }
  | .healer => { s with roles := Lib.setEntry guid .healer s.roles, healers := s.healers + 1 }
  | .damage => { s with roles := Lib.setEntry guid .damage s.roles, damage := s.damage + 1 }

end Staff

namespace Manager

variable (w : World)

/-- `CanQueuedPlayersGroup`. -/
def canQueuedPlayersGroup (seedGuid guid : Guid) (seed candidate : QueuedPlayer) : Bool :=
  match w.getPlayer seedGuid, w.getPlayer guid with
  | some p, some q => w.canPlayersGroup seedGuid guid p q
  | _, _ => (w.allowTwoSide || seed.team == candidate.team) && seed.isHardcore == candidate.isHardcore

/-- The player is queued for an instance, has no offer, and may be grouped with the seed. -/
def fits (m : Manager) (seedGuid : Guid) (seed : QueuedPlayer) (instanceName : String) (guid : Guid)
    (q : QueuedPlayer) : Bool :=
  decide (Lib.entryOf guid m.playerOffers = none) && decide (instanceName ∈ q.instances) &&
    canQueuedPlayersGroup w seedGuid guid seed q

/-- `GetQueueOrder`. -/
def getQueueOrder (m : Manager) : List Guid :=
  (m.queue.insertionSort fun a b => a.2.queueOrder < b.2.queueOrder ∨
    a.2.queueOrder = b.2.queueOrder ∧ a.1 ≤ b.1).map Prod.fst

/-- Those who are queued under a leader. -/
def block (m : Manager) (order : List Guid) (leader : Guid) : List Guid :=
  order.filter fun guid =>
    (Lib.entryOf guid m.queue).any fun q => decide (q.leaderOf guid = leader)

/-- The roles for a block, on top of what is selected, where all of it fits. -/
def fitBlock (m : Manager) (seedGuid : Guid) (seed : QueuedPlayer) (instanceName : String)
    (selected : List Guid) : Staff → List Guid → Option Staff
  | staff, [] => some staff
  | staff, guid :: rest =>
      match Lib.entryOf guid m.queue with
      | none => none
      | some q =>
          if guid ∉ selected ∧ m.fits w seedGuid seed instanceName guid q then
            match pickRole q.roleMask staff.tanks staff.healers staff.damage with
            | none => none
            | some role => fitBlock m seedGuid seed instanceName selected (staff.add guid role) rest
          else none

/-- One candidate of the loop: his block is selected when it fits, and when no more than five are
selected then. -/
def addCandidate (m : Manager) (order : List Guid) (seedGuid : Guid) (seed : QueuedPlayer)
    (instanceName : String) (staff : Staff) (guid : Guid) : Staff :=
  if 5 ≤ staff.roles.length then staff
  else
    match Lib.entryOf guid m.queue with
    | none => staff
    | some q =>
        if guid ∉ staff.roles.map Prod.fst ∧ m.fits w seedGuid seed instanceName guid q then
          match m.fitBlock w seedGuid seed instanceName (staff.roles.map Prod.fst) staff
              (m.block order (q.leaderOf guid)) with
          | some staff' =>
              if staff'.roles.length = staff.roles.length ∨ 5 < staff'.roles.length then staff
              else staff'
          | none => staff
        else staff

/-- What is selected for a seed. -/
def selectFor (m : Manager) (order : List Guid) (instanceName : String) (seedGuid : Guid) :
    Option Staff :=
  match Lib.entryOf seedGuid m.queue with
  | none => none
  | some seed =>
      if Lib.entryOf seedGuid m.playerOffers = none ∧ instanceName ∈ seed.instances then
        let staff := order.foldl (m.addCandidate w order seedGuid seed instanceName) Staff.empty
        if staff.tanks = 1 ∧ staff.healers = 1 ∧ staff.damage = 3 ∧ staff.roles.length = 5 then
          some staff
        else none
      else none

/-- Writes a queued player. -/
def setQueued (m : Manager) (guid : Guid) (f : QueuedPlayer → QueuedPlayer) : Manager :=
  match Lib.entryOf guid m.queue with
  | none => m
  | some q => { m with queue := Lib.setEntry guid (f q) m.queue }

/-- A player of an offer. -/
def promise (offerId : ℕ) (m : Manager) (entry : Guid × Role) : Manager :=
  let m := m.setQueued entry.1 fun q => { q with assignedRole := some entry.2 }
  { m with playerOffers := Lib.setEntry entry.1 offerId m.playerOffers }

/-- The offer to those who have been selected. -/
def makeOffer (m : Manager) (instanceName : String) (roles : List (Guid × Role)) : Manager :=
  roles.foldl (promise m.nextOfferId)
    { m with
      offers := Lib.setEntry m.nextOfferId ⟨instanceName, roles, [], timeout⟩ m.offers
      nextOfferId := m.nextOfferId + 1 }

/-- `TryBuildOfferForInstance`. -/
def tryBuildOfferForInstance (m : Manager) (instanceName : String) : Manager :=
  match m.getQueueOrder.findSome? (m.selectFor w m.getQueueOrder instanceName) with
  | none => m
  | some staff => m.makeOffer instanceName staff.roles

/-- The instances that players without an offer wait for. -/
def openInstances (m : Manager) : List String :=
  ((m.queue.filter fun entry => decide (Lib.entryOf entry.1 m.playerOffers = none)).flatMap
    fun entry => entry.2.instances).dedup.insertionSort (· ≤ ·)

/-- `TryMakeOffers`. -/
def tryMakeOffers (m : Manager) : Manager :=
  m.openInstances.foldl (tryBuildOfferForInstance w) m

/-- What `CancelOffer` does with a player of the offer. -/
def withdraw (keep : Guid → Bool) (m : Manager) (entry : Guid × Role) : Manager :=
  { m with
    playerOffers := Lib.eraseEntry entry.1 m.playerOffers
    queue :=
      match Lib.entryOf entry.1 m.queue with
      | some q =>
          if keep entry.1 then
            Lib.setEntry entry.1 { q with assignedRole := pickRole q.roleMask 0 0 0 } m.queue
          else Lib.eraseEntry entry.1 m.queue
      | none => Lib.eraseEntry entry.1 m.queue }

/-- `CancelOffer`. -/
def cancelOffer (m : Manager) (offerId : ℕ) (requeueAccepted : Bool) (removeGuid : Guid)
    (requeueOthers : Bool) : Manager :=
  match Lib.entryOf offerId m.offers with
  | none => m
  | some offer =>
      let keep := fun guid =>
        requeueAccepted && guid != removeGuid && (requeueOthers || decide (guid ∈ offer.accepted))
      let m := offer.roles.foldl (withdraw keep) m
      { m with offers := Lib.eraseEntry offerId m.offers }

/-- `CleanupPlayer`. -/
def cleanupPlayer (m : Manager) (guid : Guid) : Manager :=
  let m := { m with queue := Lib.eraseEntry guid m.queue }
  let m := (Lib.entryOf guid m.playerOffers).elim m fun offerId => m.cancelOffer offerId true guid true
  { m with rolechecks := m.rolechecks.filter fun entry => decide (guid ∉ entry.2.members) }

/-- `StartRolecheck`. -/
def startRolecheck (m : Manager) (leader : Guid) (instances : List String) : Manager :=
  { m with
    rolechecks := Lib.setEntry leader ⟨w.getPartyMembers leader, instances, [], timeout⟩
      m.rolechecks }

/-- `EnqueuePlayer`. -/
def enqueuePlayer (m : Manager) (guid : Guid) (p : PlayerData) (leader : Guid)
    (instances : List String) (roleMask : RoleMask) : Manager :=
  { m with
    queue := Lib.setEntry guid ⟨leader, p.team, p.isHardcore, m.nextQueueOrder, instances, roleMask,
      pickRole roleMask 0 0 0⟩ m.queue
    nextQueueOrder := m.nextQueueOrder + 1 }

/-- A member in the loop of `EnqueueRolecheck`. -/
def enqueueMember (leader : Guid) (rolecheck : PendingRolecheck) (m : Manager) (guid : Guid) :
    Manager :=
  match w.getPlayer guid, Lib.entryOf guid rolecheck.responses with
  | some p, some roleMask => m.enqueuePlayer guid p leader rolecheck.instances roleMask
  | _, _ => m

/-- `EnqueueRolecheck`. -/
def enqueueRolecheck (m : Manager) (leader : Guid) (rolecheck : PendingRolecheck) : Manager :=
  (rolecheck.members.foldl (enqueueMember w leader rolecheck) m).tryMakeOffers w

/-- The checks of `HandleQueueJoin`, and the instances of a request that passes them. -/
def joinRequest (guid : Guid) (p : PlayerData) (fields : List String) : Option (List String) :=
  match fields with
  | _ :: requested :: roles :: _ =>
      let mayLead := (w.groupOf guid).all fun g => !g.isRaid && g.leader == guid
      let instances := getSharedInstances (splitPreserveEmpty ':' [] requested.toList)
      let roleMask := (parseRoleMask roles).inter (allowedRoleMask p.cls)
      if mayLead ∧ instances ≠ [] ∧ roleMask ≠ RoleMask.none then some instances else none
  | _ => none

/-- `HandleQueueJoin`. -/
def handleQueueJoin (m : Manager) (guid : Guid) (p : PlayerData) (fields : List String) : Manager :=
  match joinRequest w guid p fields with
  | some instances => (m.cleanupPlayer guid).startRolecheck w guid instances
  | none => m

/-- Those who are queued under the leader of a player. -/
def queuedWith (m : Manager) (guid : Guid) (q : QueuedPlayer) : List Guid :=
  (m.queue.filter fun entry =>
    decide (entry.2.leaderOf entry.1 = q.leaderOf guid)).map Prod.fst

/-- The rolecheck that a player is in. -/
def rolecheckOf (m : Manager) (guid : Guid) : Option (Guid × PendingRolecheck) :=
  m.rolechecks.find? fun entry => decide (guid ∈ entry.2.members)

/-- `HandleQueueLeave`. -/
def handleQueueLeave (m : Manager) (guid : Guid) : Manager :=
  match m.rolecheckOf guid with
  | some entry => { m with rolechecks := Lib.eraseEntry entry.1 m.rolechecks }
  | none =>
      match Lib.entryOf guid m.playerOffers with
      | some offerId => (m.cancelOffer offerId true guid true).tryMakeOffers w
      | none =>
          match Lib.entryOf guid m.queue with
          | none => m
          | some q =>
              { m with
                queue := (m.queuedWith guid q).foldl (fun queue g => Lib.eraseEntry g queue)
                  m.queue }

/-- `HandleRolecheckResponse`. -/
def handleRolecheckResponse (m : Manager) (guid : Guid) (p : PlayerData) (fields : List String) :
    Manager :=
  match fields with
  | _ :: roles :: _ =>
      let roleMask := (parseRoleMask roles).inter (allowedRoleMask p.cls)
      if roleMask = RoleMask.none then m
      else
        match m.rolecheckOf guid with
        | none => m
        | some (leader, rolecheck) =>
            let rolecheck :=
              { rolecheck with responses := Lib.setEntry guid roleMask rolecheck.responses }
            if rolecheck.responses.length = rolecheck.members.length then
              { m with rolechecks := Lib.eraseEntry leader m.rolechecks }.enqueueRolecheck w leader
                rolecheck
            else { m with rolechecks := Lib.setEntry leader rolecheck m.rolechecks }
  | _ => m

/-- The leader that `CompleteOffer` picks. -/
def offerLeader (m : Manager) (offer : Offer) : Guid :=
  let leaders := offer.roles.filterMap fun entry =>
    (Lib.entryOf entry.1 m.queue).bind fun q =>
      if q.queueLeaderGuid = 0 then none else some q.queueLeaderGuid
  let tanks := (offer.roles.filter fun entry => decide (entry.2 = .tank)).map Prod.fst
  (leaders ++ tanks ++ offer.roles.map Prod.fst).headD 0

end Manager

namespace World

/-- `Group::AddMember` of a player whom the checks have let through. -/
def addMember (w : World) (groupId : ℕ) (guid : Guid) : World :=
  { w with groups := w.groups.map fun g =>
      if g.id = groupId then { g with members := g.members ++ [guid] } else g }

/-- The group that `AddPlayerToGroup` adds to: the one so far, or that of the leader, or a new one. -/
def openGroup (w : World) (group : Option ℕ) (leader : Guid) : Option (World × ℕ) :=
  match group with
  | some id => some (w, id)
  | none =>
      match w.getPlayer leader with
      | none => none
      | some _ =>
          match w.groupOf leader with
          | some g => some (w, g.id)
          | none => some ({ w with
              groups := w.groups ++ [⟨w.nextGroupId, leader, [leader], false⟩]
              nextGroupId := w.nextGroupId + 1 }, w.nextGroupId)

/-- `MAX_RAID_SIZE` or `MAX_GROUP_SIZE`. -/
def capacity (g : Group) : ℕ := if g.isRaid then 40 else 5

/-- `Group::IsFull`. -/
def isFull (g : Group) : Bool := decide (capacity g ≤ g.members.length)

/-- `AddPlayerToGroup`: the group then, and whether the player is in it. -/
def addPlayerToGroup (w : World) (group : Option ℕ) (leader member : Guid) :
    World × Option ℕ × Bool :=
  match w.getPlayer member with
  | none => (w, group, false)
  | some q =>
      match w.openGroup group leader with
      | none => (w, group, false)
      | some (w, id) =>
          match w.groups.find? fun g => decide (g.id = id) with
          | none => (w, some id, false)
          | some g =>
              if member ∈ g.members then (w, some id, true)
              else if (w.groupOf member).isSome then (w, some id, false)
              else if (w.getPlayer leader).any fun p => !w.canPlayersGroup leader member p q then
                (w, some id, false)
              else if isFull g then (w, some id, false)
              else (w.addMember id member, some id, true)

/-- The loop of `CompleteOffer`. -/
def addPlayersToGroup (leader : Guid) : World → Option ℕ → List Guid → World × Bool
  | w, _, [] => (w, true)
  | w, group, member :: rest =>
      match w.addPlayerToGroup group leader member with
      | (w, group, true) => addPlayersToGroup leader w group rest
      | (w, _, false) => (w, false)

end World

namespace Manager

variable (w : World)

/-- A player whose offer is complete. -/
def discharge (m : Manager) (entry : Guid × Role) : Manager :=
  { m with
    queue := Lib.eraseEntry entry.1 m.queue
    playerOffers := Lib.eraseEntry entry.1 m.playerOffers }

/-- `CompleteOffer`. -/
def completeOffer (m : Manager) (offerId : ℕ) : Manager × World × Bool :=
  match Lib.entryOf offerId m.offers with
  | none => (m, w, false)
  | some offer =>
      match World.addPlayersToGroup (m.offerLeader offer) w none (offer.roles.map Prod.fst) with
      | (w, false) => (m.cancelOffer offerId false 0 false, w, false)
      | (w, true) =>
          let m := offer.roles.foldl discharge m
          ({ m with offers := Lib.eraseEntry offerId m.offers }, w, true)

/-- `HandleOfferAccept`, with the world after it, and whether the offer has been completed. -/
def acceptOffer (m : Manager) (guid : Guid) : Manager × World × Bool :=
  match Lib.entryOf guid m.playerOffers with
  | none => (m, w, false)
  | some offerId =>
      match Lib.entryOf offerId m.offers with
      | none => (m, w, false)
      | some offer =>
          let offer := offer.accept guid
          let m := { m with offers := Lib.setEntry offerId offer m.offers }
          if offer.accepted.length = offer.roles.length then m.completeOffer w offerId
          else (m, w, false)

/-- `HandleOfferAccept`. -/
def handleOfferAccept (m : Manager) (guid : Guid) : Manager := (m.acceptOffer w guid).1

/-- What `UpdateBotFill` does to the maps for a bot that it has picked: accept its offer, put it into
the queue when it is not there, or take it out when it has no offer. -/
inductive FillAction where
  | accept (bot : Guid)
  | enqueue (bot : Guid) (p : PlayerData) (leader : Guid) (instances : List String)
      (roleMask : RoleMask)
  | drop (bot : Guid)
  deriving DecidableEq, Repr

/-- An action of `UpdateBotFill`. -/
def fill (m : Manager) : FillAction → Manager
  | .accept bot => m.handleOfferAccept w bot
  | .enqueue bot p leader instances roleMask =>
      if Lib.entryOf bot m.queue = none then m.enqueuePlayer bot p leader instances roleMask else m
  | .drop bot =>
      if Lib.entryOf bot m.playerOffers = none then
        { m with queue := Lib.eraseEntry bot m.queue }
      else m

/-- The first loop of `Update`: those who are not in the world leave the queue. -/
def sweepQueue (m : Manager) : Manager :=
  { m with queue := m.queue.filter fun entry => (w.getPlayer entry.1).isSome }

/-- The second loop: rolechecks run out. -/
def tickRolechecks (m : Manager) (diff : ℕ) : Manager :=
  { m with
    rolechecks := (m.rolechecks.filter fun entry => decide (diff < entry.2.timer)).map fun entry =>
      (entry.1, { entry.2 with timer := entry.2.timer - diff }) }

/-- An offer in the third loop. -/
def tickOffer (diff : ℕ) (m : Manager) (entry : ℕ × Offer) : Manager :=
  if entry.2.timer ≤ diff then m.cancelOffer entry.1 true 0 false
  else
    { m with
      offers := Lib.setEntry entry.1 { entry.2 with timer := entry.2.timer - diff } m.offers }

/-- `Update`, with what it does for bots. -/
def update (m : Manager) (diff : ℕ) (fills : List FillAction) : Manager :=
  let m := fills.foldl (fill w) m
  let m := (m.sweepQueue w).tickRolechecks diff
  let m := m.offers.foldl (tickOffer diff) m
  m.tryMakeOffers w

/-- The calls. -/
inductive Call where
  | queueJoin (guid : Guid) (p : PlayerData) (fields : List String)
  | queueLeave (guid : Guid)
  | rolecheckResponse (guid : Guid) (p : PlayerData) (fields : List String)
  | offerAccept (guid : Guid)
  | logout (guid : Guid)
  | update (diff : ℕ) (fills : List FillAction)
  deriving DecidableEq, Repr

/-- A call, in the world as it is then. -/
def step (m : Manager) (input : World × Call) : Manager :=
  match input.2 with
  | .queueJoin guid p fields => m.handleQueueJoin input.1 guid p fields
  | .queueLeave guid => m.handleQueueLeave input.1 guid
  | .rolecheckResponse guid p fields => m.handleRolecheckResponse input.1 guid p fields
  | .offerAccept guid => m.handleOfferAccept input.1 guid
  | .logout guid => m.cleanupPlayer guid
  | .update diff fills => m.update input.1 diff fills

/-- A new manager. -/
def start : Manager := ⟨[], [], [], [], 1, 1⟩

end Manager

end TwowCore.LFT

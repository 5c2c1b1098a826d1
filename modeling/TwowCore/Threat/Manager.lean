import TwowCore.Lib.Keyed
import TwowCore.Lib.Run

/-!
# Threat

`HostileReference`, `ThreatContainer` and `ThreatManager`: whom a creature hates, and whom it attacks. A
reference is an object at an address, listed in the container of those that are online or in the other
one; the status events it fires move it. Threat is a rational number here.
-/

namespace TwowCore.Threat

/-- `ObjectGuid`. -/
abbrev Guid := ℕ

/-- `HostileReference`, with its address. `valid` says that its target is linked. -/
structure HostileReference where
  address : ℕ
  unitGuid : Guid
  threat : ℚ
  tempThreatModifyer : ℚ
  online : Bool
  valid : Bool
  deriving DecidableEq, Repr

/-- `ThreatManager`: the two containers, whether the first is dirty, and the address of the current
victim. -/
structure ThreatManager where
  online : List HostileReference
  offline : List HostileReference
  dirty : Bool
  currentVictim : Option ℕ
  nextAddress : ℕ
  deriving DecidableEq, Repr

/-- The units, at the time of a call: the creature, whether it is alive, those that can be found, that are
game masters, that fly, that are alive, that are on its map, their owners, and the totems that transfer
threat to theirs. -/
structure Units where
  owner : Guid
  ownerAlive : Bool
  found : Guid → Bool
  isGameMaster : Guid → Bool
  isTaxiFlying : Guid → Bool
  isAlive : Guid → Bool
  isInMap : Guid → Bool
  ownerOf : Guid → Option Guid
  transfersThreat : Guid → Bool

/-- What `selectNextVictim` asks about a target. `lowPriority` is a target that is immune to the damage,
secondary, or too far away for an attacker who cannot move. -/
structure Sight where
  isOutOfThreatArea : Guid → Bool
  isValidAttackTarget : Guid → Bool
  lowPriority : Guid → Bool
  canReachWithMelee : Guid → Bool

namespace ThreatManager

/-- A manager of a new creature. -/
def empty : ThreatManager := ⟨[], [], false, none, 0⟩

/-- The reference at an address. -/
def at? (m : ThreatManager) (address : ℕ) : Option HostileReference :=
  (m.online ++ m.offline).find? fun ref => decide (ref.address = address)

/-- Writes a reference. -/
def write (m : ThreatManager) (address : ℕ) (f : HostileReference → HostileReference) :
    ThreatManager :=
  { m with
    online := Lib.writeKey HostileReference.address address f m.online
    offline := Lib.writeKey HostileReference.address address f m.offline }

/-- `ThreatContainer::getReferenceByTarget`. -/
def byTarget (refs : List HostileReference) (guid : Guid) : Option HostileReference :=
  refs.find? fun ref => decide (ref.unitGuid = guid)

/-- The reference of the current victim. -/
def victimRef (m : ThreatManager) : Option HostileReference := m.currentVictim.bind m.at?

/-- `processThreatEvent` for `UEV_THREAT_REF_THREAT_CHANGE`. -/
def threatChanged (m : ThreatManager) (address : ℕ) (value : ℚ) : ThreatManager :=
  if (m.currentVictim = some address ∧ value < 0) ∨ (m.currentVictim ≠ some address ∧ 0 < value) then
    { m with dirty := true }
  else m

/-- The current victim is gone when it is the reference at an address. -/
def dropVictim (m : ThreatManager) (address : ℕ) : ThreatManager :=
  if m.currentVictim = some address then { m with currentVictim := none, dirty := true } else m

/-- `processThreatEvent` for `UEV_THREAT_REF_ONLINE_STATUS`, of a reference with its new status. -/
def statusChanged (m : ThreatManager) (ref : HostileReference) : ThreatManager :=
  if ref.online = false then
    let m := m.dropVictim ref.address
    { m with
      online := Lib.eraseKey HostileReference.address ref.address m.online
      offline := m.offline ++ [ref] }
  else
    { m with
      dirty := m.dirty || m.victimRef.any fun victim => decide (11 / 10 * victim.threat < ref.threat)
      online := m.online ++ [ref]
      offline := Lib.eraseKey HostileReference.address ref.address m.offline }

/-- `setOnlineOfflineState`. -/
def setOnlineOfflineState (m : ThreatManager) (address : ℕ) (isOnline : Bool) : ThreatManager :=
  match m.at? address with
  | none => m
  | some ref =>
      if ref.online = isOnline then m
      else
        (m.write address fun ref => { ref with online := isOnline }).statusChanged
          { ref with online := isOnline }

/-- The status that `updateOnlineStatus` finds for a reference. -/
def onlineStatus (u : Units) (ref : HostileReference) : Bool :=
  (ref.valid || u.found ref.unitGuid) &&
    (!u.isGameMaster ref.unitGuid || !u.isTaxiFlying ref.unitGuid)

/-- `updateOnlineStatus`. -/
def updateOnlineStatus (u : Units) (m : ThreatManager) (address : ℕ) : ThreatManager :=
  match m.at? address with
  | none => m
  | some ref =>
      (m.write address fun ref => { ref with valid := ref.valid || u.found ref.unitGuid
        }).setOnlineOfflineState address (onlineStatus u ref)

/-- `HostileReference::addThreat` up to its event. -/
def writeThreat (u : Units) (m : ThreatManager) (ref : HostileReference) (value : ℚ) :
    ThreatManager :=
  let m := m.write ref.address fun ref => { ref with threat := ref.threat + value }
  if ref.online then m else m.updateOnlineStatus u ref.address

/-- `HostileReference::addThreat` up to the owner of the target. -/
def changeThreat (u : Units) (m : ThreatManager) (ref : HostileReference) (value : ℚ) :
    ThreatManager :=
  let m := m.writeThreat u ref value
  if value ≠ 0 then m.threatChanged ref.address value else m

/-- `HostileReference::addThreat`. `assist` is `addThreat(victim_owner, 0.0f)`. -/
def refAddThreat (u : Units) (assist : ThreatManager → Guid → ThreatManager) (m : ThreatManager)
    (ref : HostileReference) (value : ℚ) : ThreatManager :=
  let m := m.changeThreat u ref value
  if ((m.at? ref.address).any HostileReference.valid) ∧ 0 ≤ value then
    match u.ownerOf ref.unitGuid with
    | some owner => if u.isAlive owner then assist m owner else m
    | none => m
  else m

/-- A new reference, which is online. -/
def newReference (m : ThreatManager) (victim : Guid) : HostileReference :=
  ⟨m.nextAddress, victim, 0, 0, true, true⟩

/-- `addReference` of a new reference. -/
def create (m : ThreatManager) (victim : Guid) : ThreatManager :=
  { m with online := m.online ++ [m.newReference victim], nextAddress := m.nextAddress + 1 }

/-- `addThreatDirectly`, given `addThreat` for the owner of a target. -/
def addDirectly (u : Units) (assist : ThreatManager → Guid → ThreatManager) (m : ThreatManager)
    (victim : Guid) (threat : ℚ) : ThreatManager :=
  if victim = u.owner ∨ u.isAlive victim = false ∨ u.isInMap victim = false then m
  else
    match byTarget m.online victim with
    | some ref => m.refAddThreat u assist ref threat
    | none =>
        match byTarget m.offline victim with
        | some ref => m.refAddThreat u assist ref threat
        | none =>
            let ref := m.newReference victim
            let m := (m.create victim).refAddThreat u assist ref threat
            if u.isGameMaster victim then m.setOnlineOfflineState ref.address false else m

/-- `addThreat(victim, 0.0f)`, as it is called for the owners of a target, and so on for no more owners
than there are. -/
def addOwner (u : Units) : ℕ → ThreatManager → Guid → ThreatManager
  | 0, m, _ => m
  | depth + 1, m, victim =>
      if victim = u.owner ∨ u.isGameMaster victim ∨ u.isAlive victim = false ∨ u.ownerAlive = false then
        m
      else
        let m :=
          match u.ownerOf victim with
          | some owner =>
              if u.transfersThreat victim then m.addDirectly u (addOwner u depth) owner 0 else m
          | none => m
        m.addDirectly u (addOwner u depth) victim 0

/-- `addThreatDirectly`. -/
def addThreatDirectly (u : Units) (depth : ℕ) (m : ThreatManager) (victim : Guid) (threat : ℚ) :
    ThreatManager :=
  m.addDirectly u (addOwner u depth) victim threat

/-- `addThreatPercent`. -/
def addThreatPercent (u : Units) (depth : ℕ) (m : ThreatManager) (ref : HostileReference)
    (percent : ℤ) : ThreatManager :=
  m.refAddThreat u (addOwner u depth) ref
    (if percent = -100 then -ref.threat else ref.threat * percent / 100)

/-- `invalidate`: the target is gone. -/
def invalidate (m : ThreatManager) (address : ℕ) : ThreatManager :=
  (m.setOnlineOfflineState address false).write address fun ref => { ref with valid := false }

/-- `removeReference`, after which the reference is deleted. -/
def removeReference (m : ThreatManager) (address : ℕ) : ThreatManager :=
  let m := (m.invalidate address).dropVictim address
  match m.at? address with
  | none => m
  | some ref =>
      if ref.online then { m with online := Lib.eraseKey HostileReference.address address m.online }
      else { m with offline := Lib.eraseKey HostileReference.address address m.offline }

/-- `modifyThreatPercent`. -/
def modifyThreatPercent (u : Units) (depth : ℕ) (m : ThreatManager) (victim : Guid) (percent : ℤ) :
    ThreatManager :=
  match byTarget m.online victim with
  | none => m
  | some ref =>
      if percent < -100 then m.removeReference ref.address else m.addThreatPercent u depth ref percent

/-- `setTempThreat`. -/
def setTempThreat (u : Units) (depth : ℕ) (m : ThreatManager) (ref : HostileReference) (threat : ℚ) :
    ThreatManager :=
  let modifyer := threat - ref.threat
  let m := m.write ref.address fun ref => { ref with tempThreatModifyer := modifyer }
  if modifyer ≠ 0 then
    m.refAddThreat u (addOwner u depth) { ref with tempThreatModifyer := modifyer } modifyer
  else m

/-- `resetTempThreat`. -/
def resetTempThreat (u : Units) (depth : ℕ) (m : ThreatManager) (ref : HostileReference) :
    ThreatManager :=
  if ref.tempThreatModifyer ≠ 0 then
    (m.refAddThreat u (addOwner u depth) ref (-ref.tempThreatModifyer)).write ref.address
      fun ref => { ref with tempThreatModifyer := 0 }
  else m

/-- `tauntApply`. -/
def tauntApply (u : Units) (depth : ℕ) (m : ThreatManager) (taunter : Guid) : ThreatManager :=
  match byTarget m.online taunter, m.victimRef with
  | some ref, some victim =>
      if ref.threat < victim.threat ∧ ref.tempThreatModifyer = 0 then
        m.setTempThreat u depth ref victim.threat
      else m
  | _, _ => m

/-- `tauntFadeOut`. -/
def tauntFadeOut (u : Units) (depth : ℕ) (m : ThreatManager) (taunter : Guid) : ThreatManager :=
  match byTarget m.online taunter with
  | some ref => m.resetTempThreat u depth ref
  | none => m

/-- `setCurrentVictimIfCan`. -/
def setCurrentVictimIfCan (m : ThreatManager) (victim : Guid) : ThreatManager :=
  match byTarget m.online victim with
  | some ref => { m with currentVictim := some ref.address }
  | none => m

/-- `clearReferences`. -/
def clearReferences (m : ThreatManager) : ThreatManager :=
  { m with online := [], offline := [], currentVictim := none }

/-- `ThreatContainer::update`. -/
def sort (m : ThreatManager) : ThreatManager :=
  { m with
    online :=
      if m.dirty then m.online.insertionSort fun ref other => other.threat ≤ ref.threat
      else m.online
    dirty := false }

/-- What a pass of `selectNextVictim` through the list comes to: nobody at all, a reference, or a second
pass with what is left of the current victim. -/
inductive Pick where
  | nobody
  | found (ref : HostileReference)
  | missed (current : Option HostileReference)
  deriving DecidableEq, Repr

/-- A pass of `selectNextVictim`. -/
def selectPass (s : Sight) (allowLowPriority : Bool) :
    Option HostileReference → List HostileReference → Pick
  | current, [] => .missed current
  | current, ref :: rest =>
      if s.isOutOfThreatArea ref.unitGuid then .nobody
      else if s.isValidAttackTarget ref.unitGuid = false ∨
          (allowLowPriority = false ∧ s.lowPriority ref.unitGuid) then
        selectPass s allowLowPriority
          (current.filter fun victim => decide (victim.address ≠ ref.address)) rest
      else
        match current with
        | none => .found ref
        | some victim =>
            if victim.address = ref.address ∨ ref.threat ≤ 11 / 10 * victim.threat then .found victim
            else if 13 / 10 * victim.threat < ref.threat ∨
                11 / 10 * victim.threat < ref.threat ∧ s.canReachWithMelee ref.unitGuid then
              .found ref
            else selectPass s allowLowPriority (some victim) rest

/-- `selectNextVictim`. -/
def selectNextVictim (s : Sight) (refs : List HostileReference) (current : Option HostileReference) :
    Option HostileReference :=
  match selectPass s false current refs with
  | .nobody => none
  | .found ref => some ref
  | .missed current =>
      match selectPass s true current refs with
      | .found ref => some ref
      | _ => none

/-- The reference that `getHostileTarget` selects. -/
def nextVictim (s : Sight) (m : ThreatManager) : Option HostileReference :=
  selectNextVictim s m.sort.online m.sort.victimRef

/-- `getHostileTarget`, with the target. -/
def getHostileTarget (s : Sight) (m : ThreatManager) : ThreatManager × Option Guid :=
  ({ m.sort with currentVictim := (m.nextVictim s).map HostileReference.address },
    (m.nextVictim s).map HostileReference.unitGuid)

/-- The calls. Those for an address come from the `HostileRefManager` of a unit. -/
inductive Call where
  | addThreatDirectly (u : Units) (depth : ℕ) (victim : Guid) (threat : ℚ)
  | modifyThreatPercent (u : Units) (depth : ℕ) (victim : Guid) (percent : ℤ)
  | tauntApply (u : Units) (depth : ℕ) (taunter : Guid)
  | tauntFadeOut (u : Units) (depth : ℕ) (taunter : Guid)
  | setOnlineOfflineState (address : ℕ) (isOnline : Bool)
  | updateOnlineStatus (u : Units) (address : ℕ)
  | removeReference (address : ℕ)
  | setCurrentVictimIfCan (victim : Guid)
  | getHostileTarget (s : Sight)
  | clearReferences

/-- A call. -/
def step (m : ThreatManager) : Call → ThreatManager
  | .addThreatDirectly u depth victim threat => m.addThreatDirectly u depth victim threat
  | .modifyThreatPercent u depth victim percent => m.modifyThreatPercent u depth victim percent
  | .tauntApply u depth taunter => m.tauntApply u depth taunter
  | .tauntFadeOut u depth taunter => m.tauntFadeOut u depth taunter
  | .setOnlineOfflineState address isOnline => m.setOnlineOfflineState address isOnline
  | .updateOnlineStatus u address => m.updateOnlineStatus u address
  | .removeReference address => m.removeReference address
  | .setCurrentVictimIfCan victim => m.setCurrentVictimIfCan victim
  | .getHostileTarget s => (m.getHostileTarget s).1
  | .clearReferences => m.clearReferences

end ThreatManager

end TwowCore.Threat

import Mathlib.Data.List.Basic
import Mathlib.Data.UInt

/-!
# Conditions

Rows of the table `conditions` are expressions: a condition is an atom, a test of the target, the map
or the source it is called with, or it refers to other conditions and means their conjunction, their
disjunction, a negation, or that one holds for other objects. `Meets` interprets a row by looking up the
rows it refers to, and `LoadConditions` drops the rows `IsValid` refuses. What the atoms test is a parameter; the references,
the parameters each type needs and the flags are as in the source.
-/

namespace TwowCore

/-- `ConditionRequirement`. -/
inductive ConditionRequirement where
  | none
  | targetWorldobject
  | targetGameobject
  | targetUnit
  | targetCreature
  | targetPlayer
  | sourceWorldobject
  | sourceGameobject
  | sourceUnit
  | sourceCreature
  | sourcePlayer
  | anyWorldobject
  | mapOrWorldobject
  | bothWorldobjects
  | bothGameobjects
  | bothUnits
  | bothPlayers
  deriving DecidableEq

/-- `ConditionSource`, which only the log and some atoms look at. -/
abbrev ConditionSource := UInt8

/-- `ConditionTargetsInternal`: what each type needs, from type -3 on. -/
def conditionTargetsInternal : List ConditionRequirement :=
  [.none, .none, .none, .none, .targetUnit, .targetPlayer, .targetPlayer, .anyWorldobject,
    .targetPlayer, .targetUnit, .targetPlayer, .targetPlayer, .targetPlayer, .targetPlayer, .none, .none,
    .sourceUnit, .targetPlayer, .targetUnit, .sourceWorldobject, .targetPlayer, .mapOrWorldobject,
    .targetPlayer, .targetWorldobject, .targetWorldobject, .targetPlayer, .targetPlayer, .none, .none, .none,
    .targetWorldobject, .targetWorldobject, .targetPlayer, .targetPlayer, .sourceWorldobject, .sourceUnit,
    .mapOrWorldobject, .mapOrWorldobject, .mapOrWorldobject, .mapOrWorldobject, .bothWorldobjects,
    .bothWorldobjects, .targetWorldobject, .targetUnit, .targetUnit, .targetUnit, .targetUnit,
    .bothWorldobjects, .targetPlayer, .targetUnit, .mapOrWorldobject, .targetGameobject, .targetGameobject,
    .mapOrWorldobject, .targetPlayer, .sourceWorldobject, .none, .targetWorldobject, .targetGameobject,
    .targetWorldobject, .sourceCreature, .sourceCreature, .mapOrWorldobject, .targetUnit, .targetPlayer]

/-- `ConditionType`, as far as conditions are told apart here. `number + 1` is the type of an atom. -/
inductive ConditionType where
  | not
  | or
  | and
  /-- `CONDITION_NONE`. -/
  | none
  | atom (number : Fin 61)
  /-- `CONDITION_MAP_EVENT_TARGETS`. -/
  | mapEventTargets
  /-- `CONDITION_OBJECT_FIT_CONDITION`. -/
  | objectFitCondition
  /-- A number that no type has. -/
  | bad
  deriving DecidableEq

/-- `ConditionTargets[m_condition]`. The atoms are the types from 1 on. -/
def ConditionType.requirement : ConditionType → ConditionRequirement
  | .atom number => conditionTargetsInternal.getD (number.val + 4) .none
  | .mapEventTargets => conditionTargetsInternal.getD 50 .none
  | .objectFitCondition => conditionTargetsInternal.getD 53 .none
  | _ => .none

/-- `ConditionEntry`. -/
structure ConditionEntry where
  entry : UInt32
  condition : ConditionType
  value1 : Int32
  value2 : Int32
  value3 : Int32
  value4 : Int32
  reverseResult : Bool
  swapTargets : Bool
  deriving DecidableEq

/-- What `IsValid` finds about the values of an atom: they are good, there is no such thing, or it is there
in another client and `DisableCondition` is called. -/
inductive ValuesCheck where
  | valid
  | invalid
  | disable

/-- The world conditions are about: objects, maps, and what the atoms test. `eventTargets` are the targets of
an event that are found on the map, in order, and `gameObject` is the object a guid has there. The map is the
one given, or that of the source or the target. -/
structure ConditionWorld (O M : Type) where
  isGameObject : O → Bool
  isUnit : O → Bool
  isCreature : O → Bool
  isPlayer : O → Bool
  checkValues : ConditionEntry → ValuesCheck
  isExistingGameObjectGuid : Int32 → Bool
  eventTargets : Int32 → Option O → Option M → Option O → List O
  gameObject : Int32 → Option O → Option M → Option O → Option O
  evaluate : ConditionEntry → Option O → Option M → Option O → ConditionSource → Bool

/-- `sConditionStorage`. -/
abbrev ConditionStorage := List (Option ConditionEntry)

/-- `LookupEntry`, of the number a value is as a `uint32`. -/
def ConditionStorage.lookupEntry (storage : ConditionStorage) (id : UInt32) : Option ConditionEntry :=
  (storage[id.toNat]?).join

section World

variable {O M : Type} (w : ConditionWorld O M)

/-- `CheckParamRequirements`. -/
def checkParamRequirements (condition : ConditionType) (target : Option O) (map : Option M) (source : Option O) :
    Bool :=
  match condition.requirement with
  | .none => true
  | .targetWorldobject => target.isSome
  | .targetGameobject => target.any w.isGameObject
  | .targetUnit => target.any w.isUnit
  | .targetCreature => target.any w.isCreature
  | .targetPlayer => target.any w.isPlayer
  | .sourceWorldobject => source.isSome
  | .sourceGameobject => source.any w.isGameObject
  | .sourceUnit => source.any w.isUnit
  | .sourceCreature => source.any w.isCreature
  | .sourcePlayer => source.any w.isPlayer
  | .anyWorldobject => source.isSome || target.isSome
  | .mapOrWorldobject => map.isSome || source.isSome || target.isSome
  | .bothWorldobjects => source.isSome && target.isSome
  | .bothGameobjects => source.any w.isGameObject && target.any w.isGameObject
  | .bothUnits => source.any w.isUnit && target.any w.isUnit
  | .bothPlayers => source.any w.isPlayer && target.any w.isPlayer

/-- `||` of two calls: the second is made when the first returns false. -/
def shortOr (a b : Option Bool) : Option Bool := a.bind fun result => if result = true then some true else b

/-- `&&` of two calls. -/
def shortAnd (a b : Option Bool) : Option Bool := a.bind fun result => if result = true then b else some false

/-- The loop over the targets of an event. -/
def allSatisfied (call : O → Option Bool) : List O → Option Bool
  | [] => some true
  | object :: rest => shortAnd (call object) (allSatisfied call rest)

/-- `Evaluate`, with `call` for looking a condition up and calling `Meets` with a target. -/
def ConditionEntry.evaluate (c : ConditionEntry) (target : Option O) (map : Option M) (source : Option O)
    (conditionSource : ConditionSource) (call : Int32 → Option O → Option Bool) : Option Bool :=
  match c.condition with
  | .not =>
      shortOr (if c.value3 ≠ 0 then call c.value3 target else some false)
        (shortOr (if c.value4 ≠ 0 then call c.value4 target else some false)
          ((call c.value1 target).map (!·)))
  | .or =>
      shortOr (if c.value3 ≠ 0 then call c.value3 target else some false)
        (shortOr (if c.value4 ≠ 0 then call c.value4 target else some false)
          (shortOr (call c.value1 target) (call c.value2 target)))
  | .and =>
      shortAnd (if c.value3 ≠ 0 then call c.value3 target else some true)
        (shortAnd (if c.value4 ≠ 0 then call c.value4 target else some true)
          (shortAnd (call c.value1 target) (call c.value2 target)))
  | .mapEventTargets =>
      allSatisfied (fun object => call c.value2 (some object)) (w.eventTargets c.value1 target map source)
  | .objectFitCondition =>
      match w.gameObject c.value1 target map source with
      | none => some false
      | some object => call c.value2 (some object)
  | .none => some true
  | .atom _ => some (w.evaluate c target map source conditionSource)
  | .bad => some false

/-- `Meets`, with calls no deeper than `fuel`. Nothing is returned where a condition that is not there is
called, which the code does not survive, and where the calls go deeper. -/
def ConditionEntry.meets (storage : ConditionStorage) (conditionSource : ConditionSource) :
    ℕ → ConditionEntry → Option O → Option M → Option O → Option Bool
  | 0, _, _, _, _ => none
  | fuel + 1, c, target, map, source =>
      let first := if c.swapTargets = true then source else target
      let second := if c.swapTargets = true then target else source
      if checkParamRequirements w c.condition first map second = false then some false
      else
        let result := c.evaluate w first map second conditionSource fun value object =>
          match storage.lookupEntry value.toUInt32 with
          | none => none
          | some condition => condition.meets storage conditionSource fuel object map second
        result.map fun result => if c.reverseResult = true then !result else result

/-- A value names a condition that is there, with a lower number. -/
def ConditionEntry.refersTo (storage : ConditionStorage) (c : ConditionEntry) (value : Int32) : Bool :=
  decide (value.toUInt32 < c.entry) && (storage.lookupEntry value.toUInt32).isSome

/-- `DisableCondition`. -/
def ConditionEntry.disableCondition (c : ConditionEntry) : ConditionEntry :=
  { c with condition := .none, reverseResult := !c.reverseResult }

/-- `IsValid`: nothing for false, else the condition, which may be disabled by now. -/
def ConditionEntry.isValid (storage : ConditionStorage) (c : ConditionEntry) : Option ConditionEntry :=
  match c.condition with
  | .not => if c.refersTo storage c.value1 = true then some c else none
  | .or | .and =>
      if c.refersTo storage c.value1 = true ∧ c.refersTo storage c.value2 = true ∧
          (c.value3 ≠ 0 → c.refersTo storage c.value3 = true) ∧
          (c.value4 ≠ 0 → c.refersTo storage c.value4 = true) then some c
      else none
  | .mapEventTargets => if (storage.lookupEntry c.value2.toUInt32).isSome = true then some c else none
  | .objectFitCondition =>
      if w.isExistingGameObjectGuid c.value1 = true ∧ (storage.lookupEntry c.value2.toUInt32).isSome = true then
        some c
      else none
  | .none => some c
  | .atom _ =>
      match w.checkValues c with
      | .valid => some c
      | .invalid => none
      | .disable => some c.disableCondition
  | .bad => none

/-- What `LoadConditions` does with one number. -/
def loadCondition (storage : ConditionStorage) (i : ℕ) : ConditionStorage :=
  match storage[i]? with
  | some (some condition) => storage.set i (condition.isValid w storage)
  | _ => storage

/-- `LoadConditions`, the loop over the numbers. -/
def loadConditions (storage : ConditionStorage) : ConditionStorage :=
  (List.range storage.length).foldl (loadCondition w) storage

end World

end TwowCore

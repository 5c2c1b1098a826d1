import TwowCore.Player.PlanSpec

/-!
# Storing planned items

`_StoreItem`, `StoreItem`, `StoreNewItem` and `MoveItemToInventory`. A plan that fits can be
carried out: `storeItem_spec` says what every position holds afterwards, and `storeItem_units`
that the player owns exactly the planned units more.
-/

namespace TwowCore

namespace Player

variable {T : ItemTable}

/-- `Player::_StoreItem`. The second component is the position of the item it returns. A clone
takes the next item guid. -/
def storeItemAt (p : Player T) (pos : ItemPos) (item : Item T) (count : UInt32) (clone : Bool) :
    Player T × Option ItemPos :=
  match p.getItemByPos pos with
  | some item2 =>
      (p.setItem pos (some ((item2.bindOnStore (isBagPos pos)).setCount (item2.count + count))),
        some pos)
  | none =>
      match if clone then item.cloneItem p.nextItemGuid count p.guid
          else some (item.setCount count) with
      | none => (p, none)
      | some made =>
          let nextItemGuid := if clone then p.nextItemGuid + 1 else p.nextItemGuid
          let store (ownerGuid : UInt32) : Player T × Option ItemPos :=
            ((p.setItem pos (some ((made.bindOnStore (isBagPos pos)).setOwnerGuid
              ownerGuid))).setNextItemGuid nextItemGuid, some pos)
          if pos.bag = inventorySlotBag0 then store p.guid
          else
            match p.getItemByPos ⟨inventorySlotBag0, pos.bag⟩ with
            | some bag => store bag.ownerGuid
            | none => (p, none)

/-- `Player::StoreItem`: a clone for every position but the last, which takes the item itself. -/
def storeItem (p : Player T) : List ItemPosCount → Item T → Player T × Option ItemPos
  | [], _ => (p, none)
  | [last], item => p.storeItemAt last.pos item last.count.toUInt32 false
  | next :: rest, item =>
      storeItem (p.storeItemAt next.pos item next.count.toUInt32 true).1 rest item

/-- `Player::StoreNewItem`. -/
def storeNewItem (p : Player T) (dest : List ItemPosCount) (entry : UInt32)
    (randomPropertyId : Int32) : Player T × Option ItemPos :=
  let count := (dest.map fun chosen => chosen.count.toUInt32).sum
  match Item.createItem T p.nextItemGuid entry count p.guid with
  | none => (p, none)
  | some item =>
      let item :=
        if randomPropertyId ≠ 0 then item.setItemRandomProperties randomPropertyId else item
      (p.setNextItemGuid (p.nextItemGuid + 1)).storeItem dest item

/-- `Player::MoveItemToInventory`: stores the item and makes the player its owner where it was
not merged into another stack. -/
def moveItemToInventory (p : Player T) (dest : List ItemPosCount) (item : Item T) : Player T :=
  let (stored, last) := p.storeItem dest item
  match last with
  | none => stored
  | some pos =>
      match stored.items pos with
      | some lastItem =>
          if lastItem.guid = item.guid then
            stored.setItem pos (some (lastItem.setOwnerGuid p.guid))
          else stored
      | none => stored

/-- A position the inventory is ready to store a planned share at. -/
structure Ready (p : Player T) (proto : ItemPrototype) (chosen : ItemPosCount) : Prop where
  hosted : p.Hosted chosen.pos
  room : ∃ room, p.RoomAt proto none chosen.pos room ∧ chosen.count.toNat ≤ room.toNat
  positive : 1 ≤ chosen.count.toNat

/-- The units lying at a position. -/
def countOf : Option (Item T) → ℕ
  | some item => item.count.toNat
  | none => 0

/-- A position after its share was stored: an item of the prototype with the share added to what
was shown there. -/
def StoredAt (p p' : Player T) (proto : ItemPrototype) (chosen : ItemPosCount) : Prop :=
  ∃ stored, p'.items chosen.pos = some stored ∧ stored.proto = proto ∧
    stored.count.toNat = countOf (p.getItemByPos chosen.pos) + chosen.count.toNat

variable {p : Player T} {item : Item T} {chosen : ItemPosCount}

/-- What a ready position shows is of the prototype and leaves room for the share. -/
theorem Ready.bound {proto : ItemPrototype} (h : p.Ready proto chosen)
    (hlisted : T.find proto.itemId = some proto) :
    countOf (p.getItemByPos chosen.pos) + chosen.count.toNat ≤ proto.stackable.toNat ∧
      ∀ item2, p.getItemByPos chosen.pos = some item2 → item2.proto = proto := by
  obtain ⟨room, hroom, hle⟩ := h.room
  unfold RoomAt otherItemByPos at hroom
  simp only [Option.bind_none, reduceCtorEq, if_false] at hroom
  cases hitem : p.getItemByPos chosen.pos with
  | none =>
      rw [hitem] at hroom
      simp only at hroom
      subst hroom
      exact ⟨by simpa [countOf] using hle, fun item2 h2 => by cases h2⟩
  | some item2 =>
      rw [hitem] at hroom
      obtain ⟨hentry, hlt, rfl⟩ := hroom
      have hsub := UInt32.toNat_sub_of_le _ _ (UInt32.le_of_lt hlt)
      rw [UInt32.lt_iff_toNat_lt] at hlt
      refine ⟨by simp only [countOf]; omega, fun other hother => ?_⟩
      cases hother
      have hfind := item2.find_entry
      rw [hentry, hlisted] at hfind
      exact (Option.some.inj hfind).symm

/-- Storing a share at a ready position writes that position and nothing else. -/
theorem storeItemAt_spec (hready : p.Ready item.proto chosen) (clone : Bool) :
    ∃ stored guid, p.storeItemAt chosen.pos item chosen.count.toUInt32 clone =
        ((p.setItem chosen.pos (some stored)).setNextItemGuid guid, some chosen.pos) ∧
      stored.proto = item.proto ∧
      stored.count.toNat = countOf (p.getItemByPos chosen.pos) + chosen.count.toNat := by
  obtain ⟨hbound, hproto⟩ := hready.bound item.listed
  have hcount : chosen.count.toUInt32.toNat = chosen.count.toNat := by simp
  have hle := T.stackable_le item.listed
  rw [UInt32.le_iff_toNat_le] at hle
  simp only [UInt32.reduceToNat] at hle
  unfold storeItemAt
  cases hitem : p.getItemByPos chosen.pos with
  | some item2 =>
      refine ⟨_, p.nextItemGuid, rfl, hproto item2 hitem, ?_⟩
      rw [hitem] at hbound
      simp only [countOf] at hbound ⊢
      rw [Item.setCount_count, UInt32.toNat_add, hcount]
      omega
  | none =>
      have hpositive : 1 ≤ chosen.count.toUInt32 := by
        rw [UInt32.le_iff_toNat_le, hcount]
        simpa using hready.positive
      obtain ⟨made, hmade, hmadeProto, hmadeCount⟩ :
          ∃ made, (if clone then item.cloneItem p.nextItemGuid chosen.count.toUInt32 p.guid
              else some (item.setCount chosen.count.toUInt32)) = some made ∧
            made.proto = item.proto ∧ made.count = chosen.count.toUInt32 := by
        cases clone with
        | false => exact ⟨_, rfl, rfl, rfl⟩
        | true =>
            obtain ⟨made, hmade⟩ := item.cloneItem_isSome p.nextItemGuid p.guid
              hpositive
            obtain ⟨hproto, -, -, hmadeCount⟩ := Item.cloneItem_some hmade
            refine ⟨made, hmade, hproto, ?_⟩
            rw [hmadeCount, if_neg]
            rw [UInt32.not_lt, UInt32.le_iff_toNat_le, hcount]
            rw [hitem] at hbound
            simpa [countOf] using hbound
      simp only [hmade]
      have hstoredCount : made.count.toNat =
          countOf (none : Option (Item T)) + chosen.count.toNat := by
        rw [hmadeCount, hcount, countOf, Nat.zero_add]
      split
      · exact ⟨_, _, rfl, hmadeProto, hstoredCount⟩
      · rename_i hbag
        obtain ⟨bag, hhost⟩ := hready.hosted.resolve_left hbag
        rw [hhost]
        exact ⟨_, _, rfl, hmadeProto, hstoredCount⟩

section OtherPositions

variable {proto : ItemPrototype} {stored : Item T} {nextItemGuid : UInt32}

/-- Storing a share leaves the bags that are there, also where the share went to the bag's own
slot. -/
theorem bag_of_store (hproto : stored.proto = proto)
    (hsame : ∀ item2, p.getItemByPos chosen.pos = some item2 → item2.proto = proto) {slot : UInt8}
    {bag : Item T} (hbag : p.getItemByPos ⟨inventorySlotBag0, slot⟩ = some bag) :
    (((p.setItem chosen.pos (some stored)).setNextItemGuid nextItemGuid).items
        ⟨inventorySlotBag0, slot⟩).map Item.proto = some bag.proto := by
  rw [setNextItemGuid_items, setItem_items]
  by_cases hpos : (⟨inventorySlotBag0, slot⟩ : ItemPos) = chosen.pos
  · rw [hpos] at hbag ⊢
    simp [hproto, hsame bag hbag]
  · rw [Function.update_of_ne hpos, items_of_getItemByPos hbag]
    rfl

/-- Storing a share at one position leaves what the other ready positions show. -/
theorem Ready.getItemByPos_of_store {other : ItemPosCount} (hother : p.Ready proto other)
    (hne : other.pos ≠ chosen.pos) (hproto : stored.proto = proto)
    (hsame : ∀ item2, p.getItemByPos chosen.pos = some item2 → item2.proto = proto) :
    ((p.setItem chosen.pos (some stored)).setNextItemGuid nextItemGuid).getItemByPos other.pos =
      p.getItemByPos other.pos := by
  refine getItemByPos_congr ?_ fun hslot => ?_
  · rw [setNextItemGuid_items, setItem_items, Function.update_of_ne hne]
  · rcases hother.hosted with hdirect | ⟨bag, hbag⟩
    · rw [hdirect] at hslot
      simp [isBagSlot, inventorySlotBag0, inventorySlotBagStart, inventorySlotBagEnd,
        bankSlotBagStart, bankSlotBagEnd] at hslot
    · rw [bag_of_store hproto hsame hbag, items_of_getItemByPos hbag]
      rfl

/-- Storing a share at one ready position leaves the others ready. -/
theorem Ready.of_store {other : ItemPosCount} (hother : p.Ready proto other)
    (hne : other.pos ≠ chosen.pos) (hproto : stored.proto = proto)
    (hsame : ∀ item2, p.getItemByPos chosen.pos = some item2 → item2.proto = proto) :
    ((p.setItem chosen.pos (some stored)).setNextItemGuid nextItemGuid).Ready proto other := by
  refine ⟨?_, ?_, hother.positive⟩
  · rcases hother.hosted with hdirect | ⟨bag, hbag⟩
    · exact Or.inl hdirect
    · refine Or.inr ?_
      obtain ⟨bag', hbag', -⟩ := Option.map_eq_some_iff.mp (bag_of_store hproto hsame hbag)
      rw [getItemByPos_direct _ (isDirectSlot_of_shown hbag)]
      exact ⟨bag', hbag'⟩
  · obtain ⟨room, hroom, hle⟩ := hother.room
    refine ⟨room, ?_, hle⟩
    unfold RoomAt otherItemByPos at hroom ⊢
    rw [hother.getItemByPos_of_store hne hproto hsame]
    exact hroom

end OtherPositions

/-- Storing a share adds its units. -/
theorem units_store {proto : ItemPrototype} {stored : Item T} {nextItemGuid : UInt32}
    (hshown : p.getItemByPos chosen.pos = p.items chosen.pos) (hproto : stored.proto = proto)
    (hcount : stored.count.toNat = countOf (p.getItemByPos chosen.pos) + chosen.count.toNat)
    (hsame : ∀ item2, p.getItemByPos chosen.pos = some item2 → item2.proto = proto)
    (entry : UInt32) :
    ((p.setItem chosen.pos (some stored)).setNextItemGuid nextItemGuid).units entry =
      p.units entry + if proto.itemId = entry then chosen.count.toNat else 0 := by
  rw [hshown] at hcount hsame
  have hunits := p.units_setItem chosen.pos (some stored) entry
  have hold : unitsOf entry (p.items chosen.pos) =
      if proto.itemId = entry then countOf (p.items chosen.pos) else 0 := by
    cases hitem : p.items chosen.pos with
    | none => simp [countOf]
    | some item2 => simp [unitsOf, countOf, Item.entry, hsame item2 hitem]
  have hnew : unitsOf entry (some stored) =
      if proto.itemId = entry then countOf (p.items chosen.pos) + chosen.count.toNat else 0 := by
    simp [unitsOf, Item.entry, hproto, hcount]
  rw [hold, hnew] at hunits
  rw [units_congr (setNextItemGuid_items _ _)]
  split_ifs at hunits ⊢ <;> omega

/-- Carrying out a plan: every planned position holds its share, the others are as before,
the player owns the planned units more if nothing was hidden there, and the item returned lies at
the last planned position. -/
theorem storeItem_spec {dest : List ItemPosCount} (hnonempty : dest ≠ [])
    (hnodup : (dest.map ItemPosCount.pos).Nodup)
    (hready : ∀ chosen ∈ dest, p.Ready item.proto chosen) :
    (∀ chosen ∈ dest, p.StoredAt (p.storeItem dest item).1 item.proto chosen) ∧
      (∀ pos, pos ∉ dest.map ItemPosCount.pos →
        (p.storeItem dest item).1.items pos = p.items pos) ∧
      (p.storeItem dest item).1.guid = p.guid ∧
      (p.storeItem dest item).1.money = p.money ∧
      ((∀ chosen ∈ dest, p.getItemByPos chosen.pos = p.items chosen.pos) →
        ∀ entry, (p.storeItem dest item).1.units entry =
          p.units entry + if item.entry = entry then planned dest else 0) ∧
      ∃ last ∈ dest, (p.storeItem dest item).2 = some last.pos := by
  induction dest generalizing p with
  | nil => exact absurd rfl hnonempty
  | cons next rest ih =>
      obtain ⟨stored, guid, hstore, hproto, hcount⟩ :=
        storeItemAt_spec (hready next List.mem_cons_self) rest.isEmpty.not
      have hsame := ((hready next List.mem_cons_self).bound item.listed).2
      cases rest with
      | nil =>
          rw [show p.storeItem [next] item =
              p.storeItemAt next.pos item next.count.toUInt32 false from rfl]
          rw [show (List.isEmpty ([] : List ItemPosCount)).not = false from rfl] at hstore
          rw [hstore]
          refine ⟨?_, ?_, rfl, rfl, fun hshown entry => ?_, next, List.mem_cons_self, rfl⟩
          · intro chosen hchosen
            rw [List.mem_singleton.mp hchosen]
            exact ⟨stored, by simp, hproto, hcount⟩
          · intro pos hpos
            simp only [List.map_cons, List.map_nil, List.mem_singleton] at hpos
            simp [Function.update_of_ne hpos]
          · rw [units_store (hshown next List.mem_cons_self) hproto hcount hsame entry]
            simp [Item.entry]
      | cons second rest =>
          rw [show (List.isEmpty (second :: rest)).not = true from rfl] at hstore
          rw [show p.storeItem (next :: second :: rest) item =
              (p.storeItemAt next.pos item next.count.toUInt32 true).1.storeItem
                (second :: rest) item from rfl, hstore]
          rw [List.map_cons, List.nodup_cons] at hnodup
          have hne : ∀ chosen ∈ second :: rest, chosen.pos ≠ next.pos := by
            intro chosen hchosen heq
            exact hnodup.1 (List.mem_map.mpr ⟨chosen, hchosen, heq⟩)
          have hready' : ∀ chosen ∈ second :: rest,
              ((p.setItem next.pos (some stored)).setNextItemGuid guid).Ready item.proto chosen :=
            fun chosen hchosen => (hready chosen (List.mem_cons_of_mem _ hchosen)).of_store
              (hne chosen hchosen) hproto hsame
          -- the other positions show what they showed
          have hkept : ∀ chosen ∈ second :: rest,
              ((p.setItem next.pos (some stored)).setNextItemGuid guid).getItemByPos chosen.pos =
                p.getItemByPos chosen.pos := fun chosen hchosen =>
            (hready chosen (List.mem_cons_of_mem _ hchosen)).getItemByPos_of_store
              (hne chosen hchosen) hproto hsame
          obtain ⟨hrest, hframe, hguid, hmoney, hunits, last, hlast, hpos⟩ :=
            ih (by simp) hnodup.2 hready'
          refine ⟨?_, ?_, hguid, hmoney, fun hshown entry => ?_, last,
            List.mem_cons_of_mem _ hlast, hpos⟩
          · intro chosen hchosen
            rcases List.mem_cons.mp hchosen with rfl | hchosen
            · exact ⟨stored, by rw [hframe _ hnodup.1]; simp, hproto, hcount⟩
            · obtain ⟨other, hother, hotherProto, hotherCount⟩ := hrest chosen hchosen
              rw [hkept chosen hchosen] at hotherCount
              exact ⟨other, hother, hotherProto, hotherCount⟩
          · intro pos hpos
            rw [List.map_cons, List.mem_cons, not_or] at hpos
            rw [hframe pos hpos.2]
            simp [Function.update_of_ne hpos.1]
          · have hshown' : ∀ chosen ∈ second :: rest,
                ((p.setItem next.pos (some stored)).setNextItemGuid guid).getItemByPos
                    chosen.pos =
                  ((p.setItem next.pos (some stored)).setNextItemGuid guid).items chosen.pos := by
              intro chosen hchosen
              rw [hkept chosen hchosen, hshown chosen (List.mem_cons_of_mem _ hchosen),
                setNextItemGuid_items, setItem_items, Function.update_of_ne (hne chosen hchosen)]
            rw [hunits hshown' entry,
              units_store (hshown next List.mem_cons_self) hproto hcount hsame entry,
              planned_cons next]
            by_cases hentry : item.entry = entry
            · rw [if_pos hentry, if_pos hentry, if_pos (show item.proto.itemId = entry from hentry)]
              omega
            · rw [if_neg hentry, if_neg hentry, if_neg (show ¬item.proto.itemId = entry from hentry)]

/-- The units of a plan, added up as `StoreNewItem` does. -/
theorem toNat_sum_counts (dest : List ItemPosCount) :
    (dest.map fun (chosen : ItemPosCount) => chosen.count.toUInt32).sum.toNat = planned dest % 2 ^ 32 := by
  induction dest with
  | nil => rfl
  | cons chosen rest ih =>
      rw [List.map_cons, List.sum_cons, UInt32.toNat_add, ih, planned_cons]
      simp

/-- A fitting plan of at least one unit is ready to be carried out. -/
theorem Fits.ready {proto : ItemPrototype} {src : Option (SrcItem T)} {total : UInt32}
    {dest : List ItemPosCount} (hfits : p.Fits proto src total ⟨dest, 0⟩)
    (hsrc : src.bind SrcItem.pos = none) (htotal : total ≠ 0) :
    dest ≠ [] ∧ planned dest = total.toNat ∧ ∀ chosen ∈ dest, p.Ready proto chosen := by
  have hsum : planned dest = total.toNat := by simpa using hfits.sum
  refine ⟨?_, hsum, fun chosen hchosen => ?_⟩
  · rintro rfl
    exact htotal (UInt32.toNat.inj hsum.symm)
  · refine ⟨hfits.hosted chosen hchosen, ?_, hfits.positive htotal chosen hchosen⟩
    obtain ⟨room, hroom, hle⟩ := hfits.room chosen hchosen
    refine ⟨room, ?_, hle⟩
    simpa [RoomAt, otherItemByPos, hsrc] using hroom

/-- `StoreNewItem` after an accepted `CanStoreNewItem`: each planned position holds its share,
nothing else changes, and the player owns exactly the units asked for more if nothing was hidden
at the planned positions. -/
theorem storeNewItem_spec {bag slot : UInt8} {entry count : UInt32} (randomPropertyId : Int32)
    {dest : List ItemPosCount} (hdest : dest = (p.canStoreNewItem bag slot entry count).dest)
    (hok : (p.canStoreNewItem bag slot entry count).result = .ok) (hcount : count ≠ 0) :
    ∃ proto, T.find entry = some proto ∧
      (∀ chosen ∈ dest, p.Ready proto chosen) ∧
      (∀ chosen ∈ dest, p.StoredAt (p.storeNewItem dest entry randomPropertyId).1 proto chosen) ∧
      (∀ pos, pos ∉ dest.map ItemPosCount.pos →
        (p.storeNewItem dest entry randomPropertyId).1.items pos = p.items pos) ∧
      (p.storeNewItem dest entry randomPropertyId).1.guid = p.guid ∧
      (p.storeNewItem dest entry randomPropertyId).1.money = p.money ∧
      ((∀ chosen ∈ dest, p.getItemByPos chosen.pos = p.items chosen.pos) →
        ∀ other, (p.storeNewItem dest entry randomPropertyId).1.units other =
          p.units other + if entry = other then count.toNat else 0) ∧
      ∃ last ∈ dest, (p.storeNewItem dest entry randomPropertyId).2 = some last.pos := by
  obtain ⟨proto, hfind, hfits⟩ := canStoreItemAt_fits hok
  rw [canStoreNewItem] at hdest
  rw [← hdest] at hfits
  obtain ⟨hnonempty, hplanned, hready⟩ := hfits.ready rfl hcount
  have hsum : (dest.map fun (chosen : ItemPosCount) => chosen.count.toUInt32).sum = count := by
    apply UInt32.toNat.inj
    rw [toNat_sum_counts, hplanned]
    exact Nat.mod_eq_of_lt count.toNat_lt
  have hpositive : 1 ≤ count := by
    rw [UInt32.le_iff_toNat_le]
    have hne : count.toNat ≠ 0 := fun hzero => hcount (UInt32.toNat.inj hzero)
    simp only [UInt32.reduceToNat]
    omega
  obtain ⟨created, hcreated⟩ := Item.createItem_isSome p.nextItemGuid p.guid hfind hpositive
  obtain ⟨hentry, -, -, -⟩ := Item.createItem_some hcreated
  obtain ⟨item, hitem, hitemProto⟩ : ∃ item,
      item = (if randomPropertyId ≠ 0 then created.setItemRandomProperties randomPropertyId
        else created) ∧ item.proto = created.proto := by
    refine ⟨_, rfl, ?_⟩
    split
    · simp
    · rfl
  have hproto : item.proto = proto := by
    have hlisted := created.find_entry
    rw [hentry, hfind] at hlisted
    rw [hitemProto, Option.some.inj hlisted]
  have hitemEntry : item.entry = entry := by
    rw [Item.entry, hproto, T.itemId_eq hfind]
  have hstore : p.storeNewItem dest entry randomPropertyId =
      (p.setNextItemGuid (p.nextItemGuid + 1)).storeItem dest item := by
    unfold storeNewItem
    simp only [hsum, hcreated, ← hitem]
  have hready' : ∀ chosen ∈ dest,
      (p.setNextItemGuid (p.nextItemGuid + 1)).Ready item.proto chosen := by
    intro chosen hchosen
    rw [hproto]
    exact ⟨(hready chosen hchosen).hosted, (hready chosen hchosen).room,
      (hready chosen hchosen).positive⟩
  obtain ⟨hstored, hframe, hguid, hmoney, hunits, hlast⟩ :=
    storeItem_spec hnonempty hfits.nodup hready'
  rw [hstore]
  refine ⟨proto, hfind, hready, ?_, hframe, hguid, hmoney, fun hshown other => ?_, hlast⟩
  · intro chosen hchosen
    obtain ⟨stored, hstoredAt, hstoredProto, hstoredCount⟩ := hstored chosen hchosen
    exact ⟨stored, hstoredAt, hstoredProto.trans hproto, hstoredCount⟩
  · rw [hunits hshown other, hplanned, hitemEntry, units_congr (setNextItemGuid_items _ _)]

/-- A plan without units creates nothing. -/
theorem storeNewItem_of_no_units {dest : List ItemPosCount} (hplanned : planned dest = 0)
    (entry : UInt32) (randomPropertyId : Int32) :
    p.storeNewItem dest entry randomPropertyId = (p, none) := by
  have hsum : (dest.map fun (chosen : ItemPosCount) => chosen.count.toUInt32).sum = 0 := by
    apply UInt32.toNat.inj
    rw [toNat_sum_counts, hplanned]
    rfl
  unfold storeNewItem
  simp only [hsum, Item.createItem]
  rfl

/-- Destroying the item at a position takes exactly its units. -/
def DestroysExactly (p : Player T) (pos : ItemPos) : Prop :=
  ∀ entry, (p.takeOut pos).units entry + unitsOf entry (p.items pos) = p.units entry

/-- Storing a new item that can be stored adds exactly the units asked for, and an item comes
back unless no units were asked for. -/
def StoresExactly (p : Player T) : Prop :=
  ∀ bag slot entry count randomPropertyId, (p.canStoreNewItem bag slot entry count).result = .ok →
    (∀ other, (p.storeNewItem (p.canStoreNewItem bag slot entry count).dest entry
        randomPropertyId).1.units other =
      p.units other + if entry = other then count.toNat else 0) ∧
    ((∃ pos item, (p.storeNewItem (p.canStoreNewItem bag slot entry count).dest entry
        randomPropertyId).2 = some pos ∧
      (p.storeNewItem (p.canStoreNewItem bag slot entry count).dest entry
        randomPropertyId).1.items pos = some item) ↔ count ≠ 0)

/-- Nothing lies in a bag that is not equipped: every item is shown. -/
def Visible (p : Player T) : Prop := ∀ pos, p.getItemByPos pos = p.items pos

/-- A player without bags shows every item. -/
theorem visible_of_direct
    (h : ∀ pos item, p.items pos = some item →
      pos.bag = inventorySlotBag0 ∧ isDirectSlot pos.slot = true) : p.Visible := by
  intro pos
  cases hitem : p.items pos with
  | some item => simp [getItemByPos, h pos item hitem, hitem]
  | none =>
      unfold getItemByPos
      rw [hitem]
      split
      · rfl
      · split
        · split
          · split <;> rfl
          · rfl
        · rfl

/-- Taking an item out of an inventory without bags leaves one without bags. -/
theorem visible_destroyItem {pos : ItemPos}
    (h : ∀ pos item, p.items pos = some item →
      pos.bag = inventorySlotBag0 ∧ isDirectSlot pos.slot = true) :
    (p.destroyItem pos).Visible := by
  refine visible_of_direct fun other item hitem => h other item ?_
  unfold destroyItem at hitem
  split at hitem
  · simp only [takeOut] at hitem
    split_ifs at hitem
    exact hitem
  · exact hitem

/-- An item that is not a filled bag is destroyed exactly. -/
theorem destroysExactly_of_empty {pos : ItemPos}
    (hempty : pos.bag = inventorySlotBag0 → p.EmptyBag pos.slot) : p.DestroysExactly pos := by
  intro entry
  have hunits := p.units_setItem pos none entry
  rw [takeOut_of_empty hempty]
  simpa using hunits

/-- Where every item is shown, storing is exact. -/
theorem storesExactly_of_visible (hvisible : p.Visible) : p.StoresExactly := by
  intro bag slot entry count randomPropertyId hok
  obtain ⟨dest, hdest⟩ : ∃ dest, dest = (p.canStoreNewItem bag slot entry count).dest := ⟨_, rfl⟩
  rw [← hdest]
  by_cases hcount : count = 0
  · obtain ⟨proto, -, hfits⟩ := canStoreItemAt_fits hok
    have hplanned : planned dest = 0 := by
      have hsum := hfits.sum
      rw [← canStoreNewItem, ← hdest] at hsum
      simpa [hcount] using hsum
    rw [storeNewItem_of_no_units hplanned]
    simp [hcount]
  · obtain ⟨proto, -, -, hstored, -, -, -, hunits, last, hlast, hpos⟩ :=
      storeNewItem_spec randomPropertyId hdest hok hcount
    refine ⟨hunits fun chosen _ => hvisible chosen.pos, iff_of_true ?_ hcount⟩
    obtain ⟨item, hitem, -, -⟩ := hstored last hlast
    exact ⟨last.pos, item, hpos, hitem⟩

/-- Every item is a stack within its bounds. -/
def Bounded (p : Player T) : Prop :=
  ∀ pos item, p.items pos = some item → item.Holds item.count

/-- Writing a stack within its bounds. -/
theorem Bounded.setItem (h : p.Bounded) (pos : ItemPos) (item : Item T)
    (hitem : item.Holds item.count) :
    (p.setItem pos (some item)).Bounded := by
  intro other found hfound
  rw [setItem_items] at hfound
  by_cases hother : other = pos
  · rw [hother, Function.update_self] at hfound
    cases hfound
    exact hitem
  · rw [Function.update_of_ne hother] at hfound
    exact h other found hfound

/-- Destroying an item. -/
theorem Bounded.destroyItem (h : p.Bounded) (pos : ItemPos) : (p.destroyItem pos).Bounded := by
  unfold Player.destroyItem
  split
  · intro other found hfound
    simp only [takeOut] at hfound
    split_ifs at hfound
    exact h other found hfound
  · exact h

/-- Storing a new item that can be stored. -/
theorem Bounded.storeNewItem (h : p.Bounded) {bag slot : UInt8} {entry count : UInt32}
    (randomPropertyId : Int32) (hok : (p.canStoreNewItem bag slot entry count).result = .ok) :
    (p.storeNewItem (p.canStoreNewItem bag slot entry count).dest entry
      randomPropertyId).1.Bounded := by
  obtain ⟨dest, hdest⟩ : ∃ dest, dest = (p.canStoreNewItem bag slot entry count).dest := ⟨_, rfl⟩
  rw [← hdest]
  by_cases hcount : count = 0
  · obtain ⟨proto, -, hfits⟩ := canStoreItemAt_fits hok
    have hplanned : planned dest = 0 := by
      have hsum := hfits.sum
      rw [← canStoreNewItem, ← hdest] at hsum
      simpa [hcount] using hsum
    rw [storeNewItem_of_no_units hplanned]
    exact h
  · obtain ⟨proto, hfind, hready, hstored, hframe, -⟩ :=
      storeNewItem_spec randomPropertyId hdest hok hcount
    intro pos found hfound
    by_cases hpos : pos ∈ dest.map ItemPosCount.pos
    · -- a planned position holds its share on top of what was there, and there was room for it
      obtain ⟨chosen, hchosen, rfl⟩ := List.mem_map.mp hpos
      obtain ⟨stored, hstoredAt, hproto, hunits⟩ := hstored chosen hchosen
      have hpositive := (hready chosen hchosen).positive
      have hlisted : T.find proto.itemId = some proto := by rw [T.itemId_eq hfind]; exact hfind
      have hbound := ((hready chosen hchosen).bound hlisted).1
      rw [hstoredAt] at hfound
      cases hfound
      unfold Item.Holds Item.getMaxStackCount
      rw [UInt32.le_iff_toNat_le, UInt32.le_iff_toNat_le, hproto]
      simp only [UInt32.reduceToNat, ItemPrototype.getMaxStackSize]
      omega
    · rw [hframe pos hpos] at hfound
      exact h pos found hfound

end Player

end TwowCore

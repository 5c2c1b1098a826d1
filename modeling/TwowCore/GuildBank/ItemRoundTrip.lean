import TwowCore.GuildBank.Numbers
import TwowCore.GuildBank.Requests

/-!
# An item through the bank

`CloneItem` puts an item into a `BankItem` and, at a withdrawal, a `BankItem` into a new item. The charges and
the enchantments go through texts and come back whole. The flags and the durability go through members of 8
bits.
-/

namespace TwowCore

/-- The arrays of an item object have their sizes. -/
structure Item.Arrays {T : ItemTable} (item : Item T) : Prop where
  spellCharges : item.spellCharges.length = maxItemProtoSpells
  enchantments : item.enchantments.length = maxEnchantmentSlot

/-- Two items agree in what `CloneItem` carries over. -/
structure Item.SameContents {T : ItemTable} (item other : Item T) : Prop where
  flags : item.flags = other.flags
  durability : item.durability = other.durability
  duration : item.duration = other.duration
  spellCharges : item.spellCharges = other.spellCharges
  enchantments : item.enchantments = other.enchantments
  randomPropertyId : item.randomPropertyId = other.randomPropertyId
  itemTextId : item.itemTextId = other.itemTextId
  transmogrifyId : item.transmogrifyId = other.transmogrifyId
  creator : item.creator = other.creator
  giftCreator : item.giftCreator = other.giftCreator

namespace BankItem

variable {T : ItemTable}

/-- The numbers of a list are its tokens. -/
theorem tokenizer_numberList {numbers : List String}
    (hnumbers : ∀ number ∈ numbers, ∀ c ∈ number.toList, c.isDigit = true ∨ c = '-') :
    tokenizer (numberList numbers).toList ' ' = numbers.map String.toList := by
  have htext : (numberList numbers).toList =
      (numbers.map String.toList).flatMap fun word => word ++ [' '] := by
    rw [numberList, String.toList_join, List.flatMap_map, List.flatMap_map]
    exact List.flatMap_congr fun number _ => String.toList_append
  rw [htext]
  refine tokenizer_words (by decide) fun word hword => ?_
  obtain ⟨number, hnumber, rfl⟩ := List.mem_map.mp hword
  constructor
  · intro hblank
    exact absurd (hnumbers number hnumber _ hblank) (by decide)
  · intro hzero
    exact absurd (hnumbers number hnumber _ hzero) (by decide)

/-- The charges come back. -/
theorem atoi_charges (charges : List Int32) :
    (tokenizer (numberList (charges.map fun c => toString c)).toList ' ').map atoi = charges := by
  rw [tokenizer_numberList, List.map_map, List.map_map]
  · exact (List.map_congr_left fun c _ => atoi_toString c).trans (List.map_id _)
  · intro number hnumber c hc
    obtain ⟨value, -, rfl⟩ := List.mem_map.mp hnumber
    exact mem_toString_int32 hc

/-- Three numbers for each, one after the other. -/
theorem getElem?_threes {α β : Type} (three : α → List β) (hthree : ∀ a, (three a).length = 3) (l : List α)
    (i k : ℕ) (hk : k < 3) : (l.flatMap three)[i * 3 + k]? = (l[i]?).bind fun a => (three a)[k]? := by
  induction l generalizing i with
  | nil => simp
  | cons a rest ih =>
      rw [List.flatMap_cons]
      cases i with
      | zero => rw [List.getElem?_append_left (by rw [hthree]; omega)]; simp
      | succ i =>
          rw [List.getElem?_append_right (by rw [hthree]; omega), hthree,
            show (i + 1) * 3 + k - 3 = i * 3 + k by omega, ih, List.getElem?_cons_succ]

/-- The numbers of an enchantment slot as they are written. -/
def enchantmentTexts (e : Enchantment) : List String :=
  [toString e.id, toString e.duration, toString e.charges]

/-- A `uint32` among the tokens is read as it was. -/
theorem strtoul_toString (n : UInt32) :
    UInt32.ofNat ((strtoul (toString n).toList).getD 0) = n := by
  have hlt := n.toNat_lt
  rw [toList_toString_uint32, strtoul_toDigits (by omega), Option.getD_some, UInt32.ofNat_toNat]

/-- The enchantments come back. -/
theorem strtoul_enchantments {enchantments : List Enchantment} (hlength : enchantments.length = maxEnchantmentSlot)
    (ench : List (List Char))
    (hench : ench = tokenizer (numberList (enchantments.flatMap enchantmentTexts)).toList ' ') :
    ((List.range maxEnchantmentSlot).map fun i => (⟨UInt32.ofNat ((strtoul (ench.getD (i * 3) [])).getD 0),
      UInt32.ofNat ((strtoul (ench.getD (i * 3 + 1) [])).getD 0),
      UInt32.ofNat ((strtoul (ench.getD (i * 3 + 2) [])).getD 0)⟩ : Enchantment)) = enchantments := by
  have htokens : ench = (enchantments.flatMap enchantmentTexts).map String.toList := by
    rw [hench]
    refine tokenizer_numberList fun number hnumber c hc => ?_
    obtain ⟨e, -, he⟩ := List.mem_flatMap.mp hnumber
    simp only [enchantmentTexts, List.mem_cons, List.not_mem_nil, or_false] at he
    -- the three are unsigned, so there is no sign among the digits
    left
    rcases he with rfl | rfl | rfl <;>
    · rw [toList_toString_uint32] at hc
      exact isDigit_toDigits _ c hc
  -- token `3 * i + k` is number `k` of enchantment `i`
  have hread : ∀ i (hi : i < enchantments.length) (k : ℕ) (hk : k < 3),
      ench.getD (i * 3 + k) [] = (((enchantmentTexts enchantments[i])[k]?).map String.toList).getD [] := by
    intro i hi k hk
    rw [htokens, List.getD_eq_getElem?_getD, List.getElem?_map,
      getElem?_threes enchantmentTexts (fun _ => rfl) _ _ _ hk, List.getElem?_eq_getElem hi, Option.bind_some]
  refine List.ext_getElem (by rw [List.length_map, List.length_range, hlength]) fun i hi hi' => ?_
  rw [List.getElem_map, List.getElem_range]
  have hfirst := hread i hi' 0 (by omega)
  rw [Nat.add_zero] at hfirst
  rw [hfirst, hread i hi' 1 (by omega), hread i hi' 2 (by omega)]
  show (⟨UInt32.ofNat ((strtoul (toString enchantments[i].id).toList).getD 0),
    UInt32.ofNat ((strtoul (toString enchantments[i].duration).toList).getD 0),
    UInt32.ofNat ((strtoul (toString enchantments[i].charges).toList).getD 0)⟩ : Enchantment) = _
  rw [strtoul_toString, strtoul_toString, strtoul_toString]

/-- A number goes through 8 bits and comes back just when it has 8. -/
theorem toUInt32_toUInt8_eq_iff (n : UInt32) : n.toUInt8.toUInt32 = n ↔ n < 256 := by
  rw [← UInt32.toNat_inj, UInt8.toNat_toUInt32, UInt32.toNat_toUInt8, UInt32.lt_iff_toNat_lt]
  have hbyte : (256 : UInt32).toNat = 256 := rfl
  rw [hbyte]
  omega

/-- An item comes back out of the bank as it went in if and only if its flags and its durability fit into 8
bits. -/
theorem cloneInto_cloneFrom_iff (bItem : BankItem) (infernoBank : Bool) (playerGuid : UInt32)
    (pItem item : Item T) (harrays : pItem.Arrays) :
    ((bItem.cloneFrom infernoBank pItem).cloneInto playerGuid item).SameContents pItem ↔
      pItem.flags < 256 ∧ pItem.durability < 256 := by
  rw [← toUInt32_toUInt8_eq_iff, ← toUInt32_toUInt8_eq_iff]
  constructor
  · intro h
    exact ⟨h.flags, h.durability⟩
  · rintro ⟨hflags, hdurability⟩
    have hcharges := atoi_charges pItem.spellCharges
    refine
      { flags := hflags, durability := hdurability, duration := UInt32.toUInt32_toInt32 _
        spellCharges := ?_, enchantments := ?_, randomPropertyId := rfl, itemTextId := rfl
        transmogrifyId := rfl, creator := rfl, giftCreator := rfl }
    · have hlength := congrArg List.length hcharges
      rw [List.length_map, harrays.spellCharges] at hlength
      exact (if_pos hlength).trans hcharges
    · exact strtoul_enchantments harrays.enchantments _ rfl

/-- A stack of cloth with its arrays, and with these flags. -/
def flagged (flags : UInt32) : Item ItemTable.cloth :=
  { Item.linen 10 5 with
    spellCharges := [0, -1, 0, 0, 0], enchantments := List.replicate maxEnchantmentSlot ⟨7, 0, 3⟩, flags }

/-- A bank item nothing has been put into yet. -/
def unfilled : BankItem :=
  { guildid := 1, guid := 20, name := "", tab := 0, slot := 0, itemTemplate := 0, creatorGuid := 0
    giftCreatorGuid := 0, count := 0, maxStackSize := 0, duration := 0, charges := "", flags := 0
    enchantments := "", enchant := 0, randomPropertyId := 0, transmogrifyId := 0, durability := 0, text := 0
    generatedLoot := 0, isInferno := false, quality := 0, state := .new }

/-- Plain cloth comes back as it was. -/
theorem cloneInto_cloneFrom_plain :
    ((unfilled.cloneFrom false (flagged 0)).cloneInto 7 (Item.linen 11 5)).SameContents (flagged 0) :=
  (cloneInto_cloneFrom_iff unfilled false 7 (flagged 0) (Item.linen 11 5) ⟨rfl, rfl⟩).mpr ⟨by decide, by decide⟩

/-- The flag of a guild charter does not come back. -/
theorem cloneInto_cloneFrom_charter : World.notBankable (flagged 0x2000) = none ∧
    ∀ bItem : BankItem, ¬ ((bItem.cloneFrom false (flagged 0x2000)).cloneInto 7
      (Item.linen 11 5)).SameContents (flagged 0x2000) :=
  ⟨rfl, fun _ h => absurd h.flags (show (0x2000 : UInt32).toUInt8.toUInt32 ≠ 0x2000 by decide)⟩

end BankItem

end TwowCore

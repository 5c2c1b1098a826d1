import TwowCore.GuildBank.FreeSlot
import TwowCore.GuildBank.Runs

/-!
# One item a slot, one item a guid

`WellPlaced` says that no two items of the bank share a slot or a guid and that every item lies in
a slot the bank has. Item calls keep it as long as `GetNewGuid` has a guid left, and so do all
other messages but one: an accepted `UnlockGuildBank:Ok` loads the items of the tables once more,
behind those in memory. `run_wellPlaced` says that this is the only way to lose it.
-/

namespace TwowCore

/-- The slot map is one: places and guids are distinct, and every place is a slot of the bank. -/
structure WellPlaced (bank : GuildBank) : Prop where
  places : (bank.items.map GuildBank.place).Nodup
  guids : (bank.items.map BankItem.guid).Nodup
  valid : ∀ item ∈ bank.items, ValidTab item.tab ∧ ValidSlot item.slot

/-- `GetNewGuid` does not run over to a guid in use: the largest guid is not taken, or 0 is not. -/
def GuidsLeft (bank : GuildBank) : Prop :=
  4294967295 ∉ bank.items.map BankItem.guid ∨ 0 ∉ bank.items.map BankItem.guid

instance (bank : GuildBank) : Decidable (GuidsLeft bank) :=
  inferInstanceAs (Decidable (_ ∨ _))

namespace GuildBank

/-- The largest of a start value and the guids of the items. -/
theorem foldl_guid (items : List BankItem) (start : UInt32) :
    let last := items.foldl (fun guid item => if guid < item.guid then item.guid else guid) start
    start ≤ last ∧ (∀ item ∈ items, item.guid ≤ last) ∧
      (last = start ∨ ∃ item ∈ items, last = item.guid) := by
  induction items generalizing start with
  | nil => exact ⟨UInt32.le_refl _, nofun, Or.inl rfl⟩
  | cons item rest ih =>
      obtain ⟨hstart, hrest, hlast⟩ := ih (if start < item.guid then item.guid else start)
      have hboth : start ≤ (if start < item.guid then item.guid else start) ∧
          item.guid ≤ (if start < item.guid then item.guid else start) := by
        split_ifs with hless
        · exact ⟨UInt32.le_of_lt hless, UInt32.le_refl _⟩
        · exact ⟨UInt32.le_refl _, UInt32.not_lt.mp hless⟩
      refine ⟨UInt32.le_trans hboth.1 hstart, ?_, ?_⟩
      · intro other hmem
        rcases List.mem_cons.mp hmem with rfl | hin
        · exact UInt32.le_trans hboth.2 hstart
        · exact hrest other hin
      · rcases hlast with hfirst | ⟨other, hin, hother⟩
        · simp only [List.foldl_cons, hfirst]
          split_ifs
          · exact Or.inr ⟨item, List.mem_cons_self, rfl⟩
          · exact Or.inl rfl
        · exact Or.inr ⟨other, List.mem_cons_of_mem _ hin, hother⟩

/-- A new guid is one no item has, unless the counter runs over. -/
theorem getNewGuid_fresh {bank : GuildBank} (hleft : GuidsLeft bank) :
    bank.getNewGuid ∉ bank.items.map BankItem.guid := by
  obtain ⟨-, hmax, hlast⟩ := foldl_guid bank.items 0
  obtain ⟨last, heq⟩ : ∃ last, last = bank.items.foldl
      (fun guid item => if guid < item.guid then item.guid else guid) 0 := ⟨_, rfl⟩
  rw [← heq] at hmax hlast
  have hnew : bank.getNewGuid = last + 1 := by rw [heq]; rfl
  intro hmem
  rw [hnew] at hmem
  obtain ⟨item, hitem, hguid⟩ := List.mem_map.mp hmem
  have hle := hmax item hitem
  have hlt := last.toNat_lt
  rw [hguid, UInt32.le_iff_toNat_le, UInt32.toNat_add] at hle
  simp only [UInt32.reduceToNat] at hle
  -- the new guid is not above the largest one, so the counter has run over from the last guid to 0
  have htop : last = 4294967295 := by
    apply UInt32.toNat.inj
    simp only [UInt32.reduceToNat]
    omega
  rw [htop] at hmem hlast
  rcases hleft with hlargest | hzero
  · rcases hlast with hstart | ⟨other, hother, heq⟩
    · exact absurd hstart (by decide)
    · exact hlargest (heq ▸ List.mem_map_of_mem hother)
  · exact hzero hmem

/-- Changing an item in place keeps the guids. -/
theorem changeItem_guids {bank : GuildBank} {idx : ℕ} {old : BankItem}
    (hold : bank.items[idx]? = some old) (new : BankItem) (hguid : new.guid = old.guid) :
    (bank.changeItem idx new).items.map BankItem.guid = bank.items.map BankItem.guid :=
  Lib.map_set_same BankItem.guid hold hguid

/-- Places of items, as a list, contain exactly the taken slots. -/
theorem place_notMem_of_free {bank : GuildBank} {tab slot : UInt32}
    (hfree : bank.findItem tab slot = none) : (tab, slot) ∉ bank.items.map place := by
  intro hmem
  obtain ⟨item, hitem, hplace⟩ := List.mem_map.mp hmem
  exact findItem_none.mp hfree item hitem ⟨congrArg Prod.fst hplace, congrArg Prod.snd hplace⟩

end GuildBank

namespace WellPlaced

variable {T : ItemTable} {tab : UInt32} {copies : Bool} {names : List UInt32}

/-- Whatever leaves the items alone, and saving, keep the slot map one. -/
theorem kept : Kept fun bank _ => WellPlaced bank where
  same := fun hsame h => by
    obtain ⟨places, guids, valid⟩ := h
    exact ⟨hsame.items ▸ places, hsame.items ▸ guids, hsame.items ▸ valid⟩
  save := fun {bank} {db} h => by
    refine ⟨?_, ?_, ?_⟩
    · rw [GuildBank.saved_items_map GuildBank.place fun _ _ => rfl]
      exact h.places
    · rw [GuildBank.saved_items_map BankItem.guid fun _ _ => rfl]
      exact h.guids
    · exact GuildBank.forall_saved (fun _ _ hitem => hitem) h.valid

/-- Every step keeps the slot map one. -/
theorem step (htab : ValidTab tab) {s s' : GuildBank × Database} (hstep : Step T tab copies names s s')
    (h : WellPlaced s.1) : WellPlaced s'.1 := by
  cases hstep with
  | rest hrest => exact kept.rest hrest h
  | @change bank db idx old new hold htabOld hname hnew hguid hguild hslot hmade =>
      have hplaced := h.valid old (List.mem_of_getElem? hold)
      refine ⟨?_, Lib.nodup_map_set BankItem.guid h.guids hold (Or.inl hguid), ?_⟩
      · refine Lib.nodup_map_set GuildBank.place h.places hold ?_
        rcases hslot with hsame | ⟨-, hfree⟩
        · exact Or.inl (Prod.ext (hnew.trans htabOld.symm) hsame)
        · have hfresh := GuildBank.place_notMem_of_free hfree
          rw [← hnew] at hfresh
          exact Or.inr hfresh
      · have hvalid : ValidTab new.tab ∧ ValidSlot new.slot := by
          rw [hnew]
          rcases hslot with hsame | ⟨hslot, -⟩
          · rw [hsame]
            exact ⟨htab, hplaced.2⟩
          · exact ⟨htab, hslot⟩
        intro item hmem
        rcases List.mem_or_eq_of_mem_set hmem with hitem | rfl
        · exact h.valid item hitem
        · exact hvalid
  | remove hold htabOld =>
      exact ⟨Lib.nodup_map_eraseIdx GuildBank.place h.places _,
        Lib.nodup_map_eraseIdx BankItem.guid h.guids _,
        fun item hmem => h.valid item (List.mem_of_mem_eraseIdx hmem)⟩
  | @exchange bank db sIdx dIdx sItem dItem hs hd hne hsTab hdTab hsName hdName =>
      have hsPlaced := h.valid _ (List.mem_of_getElem? hs)
      have hdPlaced := h.valid _ (List.mem_of_getElem? hd)
      have hd' := GuildBank.changeItem_getElem?_ne hne (sItem.setSlot dItem.slot) hd
      refine ⟨?_, ?_, ?_⟩
      · refine (Lib.perm_map_exchange GuildBank.place hs hd ?_ ?_).nodup_iff.mpr h.places
        · exact Prod.ext (hsTab.trans hdTab.symm) rfl
        · exact Prod.ext (hdTab.trans hsTab.symm) rfl
      · rw [GuildBank.changeItem_guids hd' (dItem.setSlot sItem.slot) rfl,
          GuildBank.changeItem_guids hs (sItem.setSlot dItem.slot) rfl]
        exact h.guids
      · intro item hmem
        rcases List.mem_or_eq_of_mem_set hmem with hitem | rfl
        · rcases List.mem_or_eq_of_mem_set hitem with hitem | rfl
          · exact h.valid item hitem
          · exact ⟨hsPlaced.1, hdPlaced.2⟩
        · exact ⟨hdPlaced.1, hsPlaced.2⟩
  | copy item hcopies => exact ⟨h.places, h.guids, h.valid⟩

/-- An insertion keeps the slot map one if there is a guid left. -/
theorem insertion (htab : ValidTab tab) {bank bank' : GuildBank}
    (hinsert : Insertion T tab bank bank') (h : WellPlaced bank) (hleft : GuidsLeft bank) :
    WellPlaced bank' := by
  cases hinsert with
  | @intro new hnew hguid hguild hslot hfree hmade =>
      have hfresh := GuildBank.place_notMem_of_free hfree
      rw [← hnew] at hfresh
      have hguids := GuildBank.getNewGuid_fresh hleft
      rw [← hguid] at hguids
      have hvalid : ValidTab new.tab := by
        rw [hnew]
        exact htab
      refine ⟨Lib.nodup_map_concat GuildBank.place h.places hfresh,
        Lib.nodup_map_concat BankItem.guid h.guids hguids, ?_⟩
      intro item hmem
      rcases List.mem_append.mp hmem with hitem | hitem
      · exact h.valid item hitem
      · rw [List.mem_singleton.mp hitem]
        exact ⟨hvalid, hslot⟩

/-- Steps bring no new guids. -/
theorem guids_step {s s' : GuildBank × Database} (hstep : Step T tab copies names s s')
    {guid : UInt32} (h : guid ∉ s.1.items.map BankItem.guid) :
    guid ∉ s'.1.items.map BankItem.guid := by
  cases hstep with
  | rest hrest =>
      cases hrest with
      | quiet hsame htabs => exact hsame.items ▸ h
      | save =>
          rw [GuildBank.saved_items_map BankItem.guid fun _ _ => rfl]
          exact h
  | change hold htabOld hname hnew hguid hguild hslot hmade =>
      rw [GuildBank.changeItem_guids hold _ hguid]
      exact h
  | remove hold htabOld =>
      exact fun hmem => h (((List.eraseIdx_sublist _ _).map BankItem.guid).subset hmem)
  | @exchange bank db sIdx dIdx sItem dItem hs hd hne hsTab hdTab hsName hdName =>
      have hd' := GuildBank.changeItem_getElem?_ne hne (sItem.setSlot dItem.slot) hd
      rw [GuildBank.changeItem_guids hd' (dItem.setSlot sItem.slot) rfl,
        GuildBank.changeItem_guids hs (sItem.setSlot dItem.slot) rfl]
      exact h
  | copy copied hcopies => exact h

/-- Steps leave guids. -/
theorem guidsLeft_step {s s' : GuildBank × Database} (hstep : Step T tab copies names s s')
    (h : GuidsLeft s.1) : GuidsLeft s'.1 :=
  h.imp (guids_step hstep) (guids_step hstep)

/-- Item calls keep the slot map one while there are guids left. -/
theorem grows (htab : ValidTab tab) {w w' : World T} (hgrows : w.Grows tab copies names w')
    (h : WellPlaced w.bank) (hleft : GuidsLeft w.bank) : WellPlaced w'.bank := by
  refine hgrows.invariant (fun s => WellPlaced s.1 ∧ GuidsLeft s.1) (fun s => WellPlaced s.1)
    ?_ ?_ ?_ ?_ ⟨h, hleft⟩
  · exact fun s s' hstep hs => ⟨step htab hstep hs.1, guidsLeft_step hstep hs.2⟩
  · exact fun s hs => hs.1
  · exact fun bank bank' db hinsert hs => insertion htab hinsert hs.1 hs.2
  · exact fun s s' hrest hs => kept.rest hrest hs

end WellPlaced

variable {T : ItemTable}

/-- A message that does not load items a second time, and does not run `GetNewGuid` over: if it
unlocks the bank, the tables have no items of it, and every item handler it runs that may add an
item has a guid left. -/
def KeepsPlaces (state : GuildBank × Database) (request : Request T) : Prop :=
  ((request.world state).Unlocks request.se request.msg →
      state.1.ownRows state.2.guildBank = []) ∧
    (request.world state).ItemsAlong
      (fun w op => (w.itemCall request.se op request.msg).inserts = true → GuidsLeft w.bank)
      request.se request.msg

/-- One message keeps the slot map one. -/
theorem receive_wellPlaced {state : GuildBank × Database} {request : Request T}
    (hok : KeepsPlaces state request) (h : WellPlaced state.1) :
    WellPlaced (receive state request).1 := by
  obtain ⟨hunlock, hitems⟩ := hok
  refine World.handleAddonMessages_invariant WellPlaced.kept h ?_ ?_ hitems
  · intro hreached hunlocked
    have hsame : ((request.world state).unlockGuildBank request.se request.msg).bank.items =
        state.1.items := by
      rw [hunlocked.items]
      have hnone := hunlock hreached
      change state.1.items ++ (state.1.ownRows state.2.guildBank).map (BankItem.loadFromDB T) = _
      rw [hnone, List.map_nil, List.append_nil]
    obtain ⟨places, guids, valid⟩ := h
    exact ⟨hsame ▸ places, hsame ▸ guids, hsame ▸ valid⟩
  · intro w op hleft hw
    obtain ⟨tab, htab, -, hgrows, hsteps⟩ :=
      World.perform_grows request.se (World.asked request.se w op request.msg)
    cases hinserts : (w.itemCall request.se op request.msg).inserts with
    | true => exact WellPlaced.grows htab hgrows hw (hleft hinserts)
    | false =>
        exact (hsteps hinserts).invariant (fun s => WellPlaced s.1)
          (fun _ _ => WellPlaced.step htab) hw

instance (bank : GuildBank) : Decidable (WellPlaced bank) :=
  decidable_of_iff ((bank.items.map GuildBank.place).Nodup ∧
      (bank.items.map BankItem.guid).Nodup ∧
      ∀ item ∈ bank.items, ValidTab item.tab ∧ ValidSlot item.slot)
    ⟨fun h => ⟨h.1, h.2.1, h.2.2⟩, fun h => ⟨h.places, h.guids, h.valid⟩⟩

/-- The guild master unlocks the bank a second time, and the stack in it is there twice. -/
theorem unlockGuildBank_again :
    WellPlaced (linenState [linenRow 1 1 1 5]).1 ∧
      ¬WellPlaced (Lib.run receive (linenState [linenRow 1 1 1 5])
        [linenRequest 5 guildBankCost "UnlockGuildBank:Ok"]).1 := by
  decide

/-- In every run from a bank whose loaded items have a slot and a guid each, all of whose messages
keep places, every state has one item a slot and one item a guid. -/
theorem run_wellPlaced (se : Session) (guildid : UInt32) (infernoBank : Bool) (db : Database)
    (requests : List (Request T))
    (hstart : WellPlaced (GuildBank.setGuild T se guildid infernoBank db))
    (hok : Lib.Along KeepsPlaces receive (GuildBank.setGuild T se guildid infernoBank db, db)
      requests) :
    WellPlaced (Lib.run receive (GuildBank.setGuild T se guildid infernoBank db, db)
      requests).1 :=
  Lib.run_invariant (fun state => WellPlaced state.1)
    (fun _ _ hstep hstate => receive_wellPlaced hstep hstate) hstart hok

/-- Moving one of two stacks of a bank and adding a third keeps one item a slot. -/
theorem run_wellPlaced_move :
    let reached := Lib.run receive (linenState [linenRow 1 1 1 5, linenRow 2 1 2 3])
      [linenRequest 5 0 "MoveItem:1:1:7", linenRequest 5 0 "DepositItem:0:1:1:3:5"]
    WellPlaced reached.1 ∧ reached.1.items.map BankItem.guid = [1, 2, 3] := by
  refine ⟨run_wellPlaced .guildMaster 1 false (linenDatabase [linenRow 1 1 1 5, linenRow 2 1 2 3])
    [linenRequest 5 0 "MoveItem:1:1:7", linenRequest 5 0 "DepositItem:0:1:1:3:5"] (by decide)
    ⟨⟨fun hunlocks => ?_, fun _ => ?_⟩, ⟨fun hunlocks => ?_, fun _ => ?_⟩, trivial⟩, by decide⟩
  · exact absurd hunlocks.2.2.1 (by decide)
  · have hnamed : Handler.named (linenRequest 5 0 "MoveItem:1:1:7").msg = [.item .move] := by decide
    rw [hnamed]
    refine ⟨fun op hop hinserts => ?_, trivial⟩
    cases hop
    exact absurd hinserts (by decide)
  · exact absurd hunlocks.2.2.1 (by decide)
  · have hnamed : Handler.named (linenRequest 5 0 "DepositItem:0:1:1:3:5").msg = [.item .deposit] := by
      decide
    rw [hnamed]
    refine ⟨fun op hop _ => ?_, trivial⟩
    cases hop
    -- the guids in use are 1 and 2
    exact Or.inr (by decide)

end TwowCore

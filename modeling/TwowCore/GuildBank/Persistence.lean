import TwowCore.GuildBank.Places

/-!
# The tables mirror the bank

The queue holds copies of the items, and saving runs them as statements against `guild_bank`. Read
`Mirrors` first: it says that the rows the queue will leave of this bank, in the five columns that
say what lies where, are the items in memory. Item calls keep it, so saving writes the bank as it
is and loading it again gives the same bank.

Three kinds of calls break it, and `Persists` names them: a swap that goes through deletes the row
it has just updated; an update, which does not name the kind of the bank, hits the row of the
guild's other bank that has the same guid; and `GetNewGuid` can run over to a guid in use.
-/

namespace TwowCore

/-- What a row says lies where. -/
def BankRow.content (row : BankRow) : UInt32 × UInt32 × UInt32 × UInt32 × UInt32 :=
  (row.guid, row.tab, row.slot, row.itemTemplate, row.count)

/-- What an item says lies where. -/
def BankItem.content (item : BankItem) : UInt32 × UInt32 × UInt32 × UInt32 × UInt32 :=
  (item.guid, item.tab, item.slot, item.itemTemplate, item.count)

/-- The number fits a byte column. -/
def FitsByte (n : UInt32) : Prop := n.toUInt8.toUInt32 = n

instance (n : UInt32) : Decidable (FitsByte n) := inferInstanceAs (Decidable (_ = _))

namespace GuildBank

/-- The rows the queue will leave in `guild_bank`. -/
def replay (bank : GuildBank) (rows : List BankRow) : List BankRow :=
  bank.itemUpdateQueue.foldl BankItem.execute rows

/-- The row belongs to the guild's other bank. -/
def Foreign (bank : GuildBank) (row : BankRow) : Prop :=
  row.guildid = bank.guildid ∧ row.isInferno ≠ bank.infernoBank

instance (bank : GuildBank) (row : BankRow) : Decidable (bank.Foreign row) :=
  inferInstanceAs (Decidable (_ ∧ _))

/-- The bank has its row of tabs and its row of money. -/
theorem tabsAndMoney_ne_nil {bank : GuildBank} {db : Database} :
    bank.tabsAndMoney db ≠ [] ↔
      (∃ bt ∈ db.guildBankTabs, bt.guildid = bank.guildid ∧ bt.isInferno = bank.infernoBank) ∧
        ∃ bm ∈ db.guildBankMoney, bm.guildid = bank.guildid ∧ bm.isInferno = bank.infernoBank := by
  rw [tabsAndMoney, ne_eq, List.flatMap_eq_nil_iff]
  simp only [List.mem_filter, Bool.and_eq_true, decide_eq_true_eq, List.map_eq_nil_iff,
    List.filter_eq_nil_iff, not_forall, not_not]
  constructor
  · rintro ⟨bt, ⟨hbt, hown⟩, bm, hbm, hsame⟩
    exact ⟨⟨bt, hbt, hown⟩, bm, hbm, hsame.1.symm.trans hown.1, hsame.2.symm.trans hown.2⟩
  · rintro ⟨⟨bt, hbt, hown⟩, bm, hbm, hown'⟩
    exact ⟨bt, ⟨hbt, hown⟩, bm, hbm, hown.1.trans hown'.1.symm, hown.2.trans hown'.2.symm⟩

/-- Saving leaves the bank its row of tabs and its row of money. -/
theorem tabsAndMoney_saved {bank : GuildBank} {db : Database} (h : bank.tabsAndMoney db ≠ []) :
    bank.saved.tabsAndMoney (bank.savedDatabase db) ≠ [] := by
  obtain ⟨⟨bt, hbt, hownTabs⟩, bm, hbm, hownMoney⟩ := tabsAndMoney_ne_nil.mp h
  refine tabsAndMoney_ne_nil.mpr ⟨?_, ?_⟩
  · simp only [savedDatabase, savedTabs]
    split_ifs
    · refine ⟨_, List.mem_map_of_mem hbt, ?_⟩
      rw [if_pos hownTabs]
      exact hownTabs
    · exact ⟨bt, hbt, hownTabs⟩
  · simp only [savedDatabase, savedMoney]
    split_ifs
    · refine ⟨_, List.mem_map_of_mem hbm, ?_⟩
      rw [if_pos hownMoney]
      exact hownMoney
    · exact ⟨bm, hbm, hownMoney⟩

/-- Queueing one more copy. -/
theorem replay_queue (bank : GuildBank) (item : BankItem) (rows : List BankRow) :
    (bank.queue item).replay rows = BankItem.execute (bank.replay rows) item := by
  simp [replay, queue]

end GuildBank

/-- The rows the queue will leave are the items in memory. -/
structure Mirrors (bank : GuildBank) (db : Database) : Prop where
  lock : bank.saveLock = false
  joined : bank.tabsAndMoney db ≠ []
  rows : (bank.ownRows (bank.replay db.guildBank)).map BankRow.content =
    bank.items.map BankItem.content
  foreign : ∀ row ∈ bank.replay db.guildBank, bank.Foreign row → row ∈ db.guildBank
  own : ∀ item ∈ bank.items, item.guildid = bank.guildid ∧ item.isInferno = bank.infernoBank
  guids : (bank.items.map BankItem.guid).Nodup
  bytes : ∀ item ∈ bank.items, FitsByte item.tab ∧ FitsByte item.slot

/-- No row of the guild's other bank has one of the guids. -/
def Spared (names : List UInt32) (bank : GuildBank) (db : Database) : Prop :=
  ∀ row ∈ db.guildBank, bank.Foreign row → row.guid ∉ names

instance (names : List UInt32) (bank : GuildBank) (db : Database) :
    Decidable (Spared names bank db) :=
  inferInstanceAs (Decidable (∀ row ∈ db.guildBank, _))

/-- Logging and saving bring no row of the guild's other bank. -/
theorem spared_rest {names : List UInt32} {s s' : GuildBank × Database} (hrest : Rest s s')
    (h : ∀ row ∈ s.1.replay s.2.guildBank, s.1.Foreign row → row ∈ s.2.guildBank)
    (hspared : Spared names s.1 s.2) : Spared names s'.1 s'.2 := by
  cases hrest with
  | quiet hsame htabs =>
      intro row hrow hforeign
      rw [GuildBank.Foreign, hsame.guildid, hsame.infernoBank] at hforeign
      exact hspared row hrow hforeign
  | save => exact fun row hrow hforeign => hspared row (h row hrow hforeign) hforeign

/-- A number up to 255 fits a byte. -/
theorem fitsByte_of_le {n bound : UInt32} (h : n ≤ bound) (hbound : bound.toNat < 256) :
    FitsByte n := by
  rw [UInt32.le_iff_toNat_le] at h
  apply UInt32.toNat.inj
  simp only [UInt8.toNat_toUInt32, UInt32.toNat_toUInt8]
  omega

namespace Mirrors

variable {bank : GuildBank} {db : Database}

/-- What the queue and the items say is all there is to it. -/
theorem kept : Kept Mirrors where
  same := fun {bank bank' db} hsame h => by
    have hreplay : bank'.replay db.guildBank = bank.replay db.guildBank := by
      simp only [GuildBank.replay, hsame.itemUpdateQueue]
    refine ⟨hsame.saveLock.trans h.lock, ?_, ?_, ?_, ?_, hsame.items ▸ h.guids,
      hsame.items ▸ h.bytes⟩
    · rw [GuildBank.tabsAndMoney_congr hsame.guildid hsame.infernoBank]
      exact h.joined
    · rw [GuildBank.ownRows_congr hsame.guildid hsame.infernoBank, hreplay, hsame.items]
      exact h.rows
    · rw [hreplay]
      intro row hmem hforeign
      refine h.foreign row hmem ?_
      rw [GuildBank.Foreign, hsame.guildid, hsame.infernoBank] at hforeign
      exact hforeign
    · rw [hsame.items, hsame.guildid, hsame.infernoBank]
      exact h.own
  save := fun {bank db} h => by
    have hreplay : bank.saved.replay (bank.savedDatabase db).guildBank =
        bank.replay db.guildBank := rfl
    have hsaved : ∀ {β : Type} (f : BankItem → β),
        (∀ item state, f (item.setState state) = f item) →
          bank.saved.items.map f = bank.items.map f :=
      fun f hf => GuildBank.saved_items_map f hf bank
    refine ⟨h.lock, GuildBank.tabsAndMoney_saved h.joined, ?_, ?_, ?_, ?_, ?_⟩
    · rw [hreplay, hsaved BankItem.content fun _ _ => rfl]
      exact h.rows
    · rw [hreplay]
      exact fun row hmem _ => hmem
    · exact GuildBank.forall_saved (fun _ _ hitem => hitem) h.own
    · rw [hsaved BankItem.guid fun _ _ => rfl]
      exact h.guids
    · exact GuildBank.forall_saved (fun _ _ hitem => hitem) h.bytes

/-- The contents of the items have distinct guids. -/
theorem content_nodup (h : Mirrors bank db) :
    ((bank.items.map BankItem.content).map Prod.fst).Nodup := by
  rw [List.map_map]
  exact h.guids

/-- A changed item is written over its own row. -/
theorem changeItem (h : Mirrors bank db) {idx : ℕ} {old new : BankItem}
    (hspared : Spared [old.guid] bank db) (hold : bank.items[idx]? = some old) (hguid : new.guid = old.guid)
    (hguild : new.guildid = old.guildid) (hinferno : new.isInferno = bank.infernoBank)
    (hbytes : FitsByte new.tab ∧ FitsByte new.slot) : Mirrors (bank.changeItem idx new) db := by
  have hown := h.own old (List.mem_of_getElem? hold)
  obtain ⟨write, hwrite⟩ : ∃ write : BankRow → BankRow, write = fun row =>
      if row.guildid = new.guildid ∧ row.guid = new.guid then new.toRow else row := ⟨_, rfl⟩
  have hreplay : (bank.changeItem idx new).replay db.guildBank =
      (bank.replay db.guildBank).map write := by
    rw [hwrite]
    exact GuildBank.replay_queue _ _ _
  have hnew : bank.ownsRow new.toRow = true := by
    simp [GuildBank.ownsRow, BankItem.toRow, hguild, hown.1, hinferno]
  -- the update hits no row of the guild's other bank
  have howns : ∀ row ∈ bank.replay db.guildBank,
      bank.ownsRow (write row) = bank.ownsRow row := by
    intro row hrow
    simp only [hwrite]
    split_ifs with hhit
    · rw [hguild, hown.1, hguid] at hhit
      have hnotForeign : ¬bank.Foreign row := fun hforeign =>
        hspared row (h.foreign row hrow hforeign) hforeign (List.mem_singleton.mpr hhit.2)
      rw [hnew]
      simp only [GuildBank.Foreign, not_and, not_not] at hnotForeign
      simp [GuildBank.ownsRow, hhit.1, hnotForeign hhit.1]
    · rfl
  refine ⟨h.lock, h.joined, ?_, ?_, ?_, ?_, ?_⟩
  · have hrows : (bank.changeItem idx new).ownRows ((bank.replay db.guildBank).map write) =
        (bank.ownRows (bank.replay db.guildBank)).map write := by
      change ((bank.replay db.guildBank).map write).filter bank.ownsRow = _
      rw [List.filter_map]
      exact congrArg (List.map write) (List.filter_congr howns)
    have hcontent : ∀ row ∈ bank.ownRows (bank.replay db.guildBank),
        (write row).content = if row.content.1 = old.content.1 then new.content
          else row.content := by
      intro row hrow
      have howned := List.of_mem_filter hrow
      simp only [GuildBank.ownsRow, Bool.and_eq_true, decide_eq_true_eq] at howned
      simp only [hwrite, howned.1, hguild, hown.1, true_and, hguid]
      change (if row.guid = old.guid then new.toRow else row).content =
        if row.guid = old.guid then new.content else row.content
      split_ifs <;> rfl
    have hitem : (bank.items.map BankItem.content)[idx]? = some old.content := by
      rw [List.getElem?_map, hold]
      rfl
    rw [hreplay, hrows, List.map_map, GuildBank.changeItem_items, List.map_set]
    calc (bank.ownRows (bank.replay db.guildBank)).map (BankRow.content ∘ write)
        = ((bank.ownRows (bank.replay db.guildBank)).map BankRow.content).map fun content =>
            if content.1 = old.content.1 then new.content else content := by
          rw [List.map_map]
          exact List.map_congr_left hcontent
      _ = (bank.items.map BankItem.content).map fun content =>
            if content.1 = old.content.1 then new.content else content := by rw [h.rows]
      _ = (bank.items.map BankItem.content).set idx new.content :=
          Lib.map_ite_key_eq_set Prod.fst h.content_nodup hitem new.content
  · rw [hreplay]
    intro row hrow hforeign
    obtain ⟨source, hsource, rfl⟩ := List.mem_map.mp hrow
    have hsame : write source = source := by
      simp only [hwrite] at hforeign ⊢
      split_ifs at hforeign ⊢ with hhit
      · exact absurd hinferno hforeign.2
      · rfl
    rw [hsame] at hforeign ⊢
    exact h.foreign source hsource hforeign
  · intro item hitem
    rcases List.mem_or_eq_of_mem_set hitem with hin | rfl
    · exact h.own item hin
    · exact ⟨hguild.trans hown.1, hinferno⟩
  · exact Lib.nodup_map_set BankItem.guid h.guids hold (Or.inl hguid)
  · intro item hitem
    rcases List.mem_or_eq_of_mem_set hitem with hin | rfl
    · exact h.bytes item hin
    · exact hbytes

/-- A removed item's row is deleted. -/
theorem removeItem (h : Mirrors bank db) {idx : ℕ} {old : BankItem}
    (hold : bank.items[idx]? = some old) : Mirrors (bank.removeItem idx old) db := by
  have hown := h.own old (List.mem_of_getElem? hold)
  have hreplay : (bank.removeItem idx old).replay db.guildBank =
      (bank.replay db.guildBank).filter fun row =>
        ¬(row.guildid = old.guildid ∧ row.guid = old.guid ∧ row.isInferno = old.isInferno) :=
    GuildBank.replay_queue _ _ _
  have hsub : ∀ item ∈ bank.items.eraseIdx idx, item ∈ bank.items :=
    fun item hitem => List.mem_of_mem_eraseIdx hitem
  refine ⟨h.lock, h.joined, ?_, ?_, fun item hitem => h.own item (hsub item hitem),
    Lib.nodup_map_eraseIdx BankItem.guid h.guids _, fun item hitem => h.bytes item (hsub item hitem)⟩
  · have hrows : (bank.removeItem idx old).ownRows ((bank.removeItem idx old).replay
        db.guildBank) = (bank.ownRows (bank.replay db.guildBank)).filter fun row =>
          row.content.1 ≠ old.content.1 := by
      rw [hreplay]
      change ((bank.replay db.guildBank).filter _).filter bank.ownsRow = _
      rw [List.filter_comm]
      refine List.filter_congr fun row hrow => ?_
      have howned := List.of_mem_filter hrow
      simp only [GuildBank.ownsRow, Bool.and_eq_true, decide_eq_true_eq] at howned
      by_cases hsame : row.guid = old.guid
      · simp [howned.1, howned.2, hown.1, hown.2, BankRow.content, BankItem.content, hsame]
      · simp [BankRow.content, BankItem.content, hsame]
    have hitem : (bank.items.map BankItem.content)[idx]? = some old.content := by
      rw [List.getElem?_map, hold]
      rfl
    rw [hrows, GuildBank.removeItem_items, ← List.eraseIdx_map]
    calc ((bank.ownRows (bank.replay db.guildBank)).filter fun row =>
            row.content.1 ≠ old.content.1).map BankRow.content
        = ((bank.ownRows (bank.replay db.guildBank)).map BankRow.content).filter fun content =>
            content.1 ≠ old.content.1 := by
          rw [List.filter_map]
          rfl
      _ = (bank.items.map BankItem.content).filter fun content =>
            content.1 ≠ old.content.1 := by rw [h.rows]
      _ = (bank.items.map BankItem.content).eraseIdx idx :=
          Lib.filter_key_ne_eq_eraseIdx Prod.fst h.content_nodup hitem
  · rw [hreplay]
    intro row hrow hforeign
    exact h.foreign row (List.mem_of_mem_filter hrow) hforeign

/-- An inserted item gets a row of its own. -/
theorem insertItem (h : Mirrors bank db) {new : BankItem} (hguild : new.guildid = bank.guildid)
    (hinferno : new.isInferno = bank.infernoBank)
    (hfresh : new.guid ∉ bank.items.map BankItem.guid)
    (hbytes : FitsByte new.tab ∧ FitsByte new.slot) : Mirrors (bank.insertItem new) db := by
  have hreplay : (bank.insertItem new).replay db.guildBank =
      bank.replay db.guildBank ++ [new.toRow] := GuildBank.replay_queue _ _ _
  have hnew : bank.ownsRow new.toRow = true := by
    simp [GuildBank.ownsRow, BankItem.toRow, hguild, hinferno]
  refine ⟨h.lock, h.joined, ?_, ?_, ?_, Lib.nodup_map_concat BankItem.guid h.guids hfresh, ?_⟩
  · rw [hreplay]
    change ((bank.replay db.guildBank ++ [new.toRow]).filter bank.ownsRow).map _ = _
    rw [List.filter_append, List.filter_cons_of_pos hnew, List.filter_nil, List.map_append,
      GuildBank.insertItem_items, List.map_append]
    exact congrArg (· ++ [new.content]) h.rows
  · rw [hreplay]
    intro row hrow hforeign
    rcases List.mem_append.mp hrow with hin | hin
    · exact h.foreign row hin hforeign
    · rw [List.mem_singleton.mp hin] at hforeign
      exact absurd hinferno hforeign.2
  · intro item hitem
    rcases List.mem_append.mp hitem with hin | hin
    · exact h.own item hin
    · rw [List.mem_singleton.mp hin]
      exact ⟨hguild, hinferno⟩
  · intro item hitem
    rcases List.mem_append.mp hitem with hin | hin
    · exact h.bytes item hin
    · rw [List.mem_singleton.mp hin]
      exact hbytes

variable {T : ItemTable} {tab : UInt32} {names : List UInt32}

/-- A written item is one of this kind of bank. -/
theorem inferno_of_made (h : Mirrors bank db) {item : BankItem} (hmade : Made T bank item) :
    item.isInferno = bank.infernoBank := by
  rcases hmade.inferno with ⟨old, hmem, hsame⟩ | hnew
  · exact hsame.trans (h.own old hmem).2
  · exact hnew

/-- Every step that queues no copy keeps the rows the items. -/
theorem step (htab : ValidTab tab) {s s' : GuildBank × Database}
    (hstep : Step T tab false names s s') (h : Mirrors s.1 s.2) (hspared : Spared names s.1 s.2) :
    Mirrors s'.1 s'.2 ∧ Spared names s'.1 s'.2 := by
  cases hstep with
  | rest hrest => exact ⟨kept.rest hrest h, spared_rest hrest h.foreign hspared⟩
  | @change bank db idx old new hold htabOld hname hnew hguid hguild hslot hmade =>
      refine ⟨h.changeItem (fun row hrow hforeign hmem => ?_) hold hguid hguild
        (h.inferno_of_made hmade) ⟨?_, ?_⟩, hspared⟩
      · rw [List.mem_singleton] at hmem
        exact hspared row hrow hforeign (hmem ▸ hname)
      · rw [hnew]
        exact fitsByte_of_le htab.2 (by decide)
      · rcases hslot with hsame | ⟨hvalid, -⟩
        · rw [hsame]
          exact (h.bytes old (List.mem_of_getElem? hold)).2
        · exact fitsByte_of_le hvalid.2 (by decide)
  | remove hold htabOld => exact ⟨h.removeItem hold, hspared⟩
  | @exchange bank db sIdx dIdx sItem dItem hs hd hne hsTab hdTab hsName hdName =>
      have hsBytes := h.bytes sItem (List.mem_of_getElem? hs)
      have hdBytes := h.bytes dItem (List.mem_of_getElem? hd)
      have hsOwn := h.own sItem (List.mem_of_getElem? hs)
      have hdOwn := h.own dItem (List.mem_of_getElem? hd)
      have hspare : ∀ {guid}, guid ∈ names → Spared [guid] bank db := by
        intro guid hname row hrow hforeign hmem
        rw [List.mem_singleton] at hmem
        exact hspared row hrow hforeign (hmem ▸ hname)
      have hfirst : Mirrors (bank.changeItem sIdx (sItem.setSlot dItem.slot)) db :=
        h.changeItem (hspare hsName) hs rfl rfl hsOwn.2 ⟨hsBytes.1, hdBytes.2⟩
      have hd' := GuildBank.changeItem_getElem?_ne hne (sItem.setSlot dItem.slot) hd
      exact ⟨hfirst.changeItem (hspare hdName) hd' rfl rfl hdOwn.2 ⟨hdBytes.1, hsBytes.2⟩,
        hspared⟩
  | copy item hcopies => cases hcopies

/-- An insertion keeps the rows the items if there is a guid left. -/
theorem insertion (htab : ValidTab tab) {bank' : GuildBank}
    (hinsert : Insertion T tab bank bank') (h : Mirrors bank db) (hleft : GuidsLeft bank) :
    Mirrors bank' db := by
  cases hinsert with
  | @intro new hnew hguid hguild hslot hfree hmade =>
      have hfresh := GuildBank.getNewGuid_fresh hleft
      rw [← hguid] at hfresh
      refine h.insertItem hguild (h.inferno_of_made hmade) hfresh ⟨?_, fitsByte_of_le hslot.2 (by decide)⟩
      rw [hnew]
      exact fitsByte_of_le htab.2 (by decide)

end Mirrors

variable {T : ItemTable}

/-- The call writes no row it should not: it is not a swap that goes through, it writes no item
that shares its guid with a row of the guild's other bank, and there is a guid left if it adds an
item. -/
structure Persists (state : GuildBank × Database) (request : ItemRequest T) : Prop where
  swap : (request.world state).copies (request.call state) = false
  spared : Spared ((request.world state).rewrites (request.call state)) state.1 state.2
  guids : (request.call state).inserts = true → GuidsLeft state.1

/-- One item message keeps the rows the items. -/
theorem receiveItem_mirrors {state : GuildBank × Database} {request : ItemRequest T}
    (hok : Persists state request) (h : Mirrors state.1 state.2) :
    Mirrors (receiveItem state request).1 (receiveItem state request).2 := by
  obtain ⟨hswap, hspared, hguids⟩ := hok
  obtain ⟨tab, htab, -, hgrows, hsteps⟩ := World.perform_grows request.se
    (World.asked request.se (request.world state) request.op request.msg)
  rw [← ItemRequest.call, hswap] at hgrows hsteps
  cases hinserts : (request.call state).inserts with
  | true =>
      refine hgrows.invariant
        (fun s => (Mirrors s.1 s.2 ∧ Spared _ s.1 s.2) ∧ GuidsLeft s.1)
        (fun s => Mirrors s.1 s.2) ?_ ?_ ?_ ?_ ⟨⟨h, hspared⟩, hguids hinserts⟩
      · rintro s s' hstep ⟨⟨hmirrors, hspare⟩, hleft⟩
        exact ⟨hmirrors.step htab hstep hspare, WellPlaced.guidsLeft_step hstep hleft⟩
      · exact fun s hs => hs.1.1
      · exact fun bank bank' db hinsert hs => hs.1.1.insertion htab hinsert hs.2
      · exact fun s s' hrest hs => Mirrors.kept.rest hrest hs
  | false =>
      refine ((hsteps hinserts).invariant (fun s => Mirrors s.1 s.2 ∧ Spared _ s.1 s.2) ?_
        ⟨h, hspared⟩).1
      exact fun s s' hstep hs => hs.1.step htab hstep hs.2

/-- The tables hold the bank as their schema says: it has its rows of tabs and money, its guids are
a key, and tabs and slots are bytes. -/
structure Stored (bank : GuildBank) (db : Database) : Prop where
  joined : bank.tabsAndMoney db ≠ []
  guids : ((bank.ownRows db.guildBank).map BankRow.guid).Nodup
  bytes : ∀ row ∈ bank.ownRows db.guildBank, FitsByte row.tab ∧ FitsByte row.slot

/-- A loaded item says what its row says. -/
theorem loadFromDB_content (T : ItemTable) {row : BankRow}
    (hbytes : FitsByte row.tab ∧ FitsByte row.slot) :
    (BankItem.loadFromDB T row).content = row.content := by
  change (row.guid, row.tab.toUInt8.toUInt32, row.slot.toUInt8.toUInt32, _, _) = _
  rw [hbytes.1, hbytes.2]
  rfl

/-- `SetGuild` loads what the tables hold. -/
theorem setGuild_items (T : ItemTable) (se : Session) (guildid : UInt32) (infernoBank : Bool)
    (db : Database) (hjoined : (GuildBank.setGuild T se guildid infernoBank db).tabsAndMoney db ≠ []) :
    (GuildBank.setGuild T se guildid infernoBank db).items =
      ((GuildBank.setGuild T se guildid infernoBank db).ownRows db.guildBank).map
        (BankItem.loadFromDB T) := by
  obtain ⟨-, -, -, -, hitems⟩ := World.setGuild_spec T se guildid infernoBank db
  rcases hitems with ⟨-, -, hnone⟩ | hloaded
  · exact absurd hnone hjoined
  · exact hloaded

/-- The bank just loaded mirrors its rows. -/
theorem setGuild_mirrors (T : ItemTable) (se : Session) (guildid : UInt32) (infernoBank : Bool)
    {db : Database} (hstored : Stored (GuildBank.setGuild T se guildid infernoBank db) db) :
    Mirrors (GuildBank.setGuild T se guildid infernoBank db) db := by
  have hitems := setGuild_items T se guildid infernoBank db hstored.joined
  obtain ⟨-, -, hqueue, hlock, -⟩ := World.setGuild_spec T se guildid infernoBank db
  obtain ⟨bank, hbank⟩ : ∃ bank, bank = GuildBank.setGuild T se guildid infernoBank db := ⟨_, rfl⟩
  rw [← hbank] at hstored hitems hqueue hlock ⊢
  have hreplay : bank.replay db.guildBank = db.guildBank := by simp [GuildBank.replay, hqueue]
  have hload : ∀ {P : BankItem → Prop}, (∀ row ∈ bank.ownRows db.guildBank,
      P (BankItem.loadFromDB T row)) → ∀ item ∈ bank.items, P item := by
    intro P hrows item hmem
    rw [hitems] at hmem
    obtain ⟨row, hrow, rfl⟩ := List.mem_map.mp hmem
    exact hrows row hrow
  refine ⟨hlock, hstored.joined, ?_, ?_, hload fun row hrow => ?_, ?_, hload fun row hrow => ?_⟩
  · rw [hreplay, hitems, List.map_map]
    exact List.map_congr_left fun row hrow => (loadFromDB_content T (hstored.bytes row hrow)).symm
  · rw [hreplay]
    exact fun row hrow _ => hrow
  · have howned := List.of_mem_filter hrow
    simp only [GuildBank.ownsRow, Bool.and_eq_true, decide_eq_true_eq] at howned
    exact howned
  · rw [hitems, List.map_map]
    exact hstored.guids
  · obtain ⟨htab, hslot⟩ := hstored.bytes row hrow
    change FitsByte row.tab.toUInt8.toUInt32 ∧ FitsByte row.slot.toUInt8.toUInt32
    rw [htab, hslot]
    exact ⟨htab, hslot⟩

/-- Once saved, the rows of the bank are its items, and the bank loaded from the tables again has
the same items. -/
def World.Persisted (w : World T) : Prop :=
  let bank := w.saveToDB.bank
  let db := w.saveToDB.db
  (bank.ownRows db.guildBank).map BankRow.content = bank.items.map BankItem.content ∧
    ∀ se, (GuildBank.setGuild T se bank.guildid bank.infernoBank db).items.map BankItem.content =
      bank.items.map BankItem.content

/-- Where the rows the queue leaves are the items, saving and loading give the bank back. -/
theorem World.persisted_of_mirrors {w : World T} (h : Mirrors w.bank w.db) : w.Persisted := by
  have hsaved : Mirrors w.saveToDB.bank w.saveToDB.db :=
    (World.saveToDB_rests w).invariant (fun s => Mirrors s.1 s.2)
      (fun _ _ hrest => Mirrors.kept.rest hrest) h
  have hqueue : w.saveToDB.bank.itemUpdateQueue = [] := by
    unfold World.saveToDB
    rw [if_neg (by simp [h.lock])]
    split_ifs with hnothing
    · exact hnothing.2.2.2.2
    · rfl
  obtain ⟨bank, hbank⟩ : ∃ bank, bank = w.saveToDB.bank := ⟨_, rfl⟩
  obtain ⟨db, hdb⟩ : ∃ db, db = w.saveToDB.db := ⟨_, rfl⟩
  unfold World.Persisted
  rw [← hbank, ← hdb] at hsaved ⊢
  rw [← hbank] at hqueue
  have hreplay : bank.replay db.guildBank = db.guildBank := by simp [GuildBank.replay, hqueue]
  have hrows := hsaved.rows
  rw [hreplay] at hrows
  refine ⟨hrows, fun se => ?_⟩
  obtain ⟨hguild, hinferno, -⟩ := World.setGuild_spec T se bank.guildid bank.infernoBank db
  have hsame := GuildBank.ownRows_congr hguild hinferno db.guildBank
  have hjoined := GuildBank.tabsAndMoney_congr hguild hinferno db
  rw [setGuild_items T se _ _ db (hjoined ▸ hsaved.joined), hsame, List.map_map, ← hrows]
  refine List.map_congr_left fun row hrow => loadFromDB_content T ?_
  -- the row says what an item says, and the places of items are bytes
  have hcontent : row.content ∈ bank.items.map BankItem.content :=
    hrows ▸ List.mem_map_of_mem hrow
  obtain ⟨item, hitem, heq⟩ := List.mem_map.mp hcontent
  have hbytes := hsaved.bytes item hitem
  have htab : item.tab = row.tab := congrArg (fun content => content.2.1) heq
  have hslot : item.slot = row.slot := congrArg (fun content => content.2.2.1) heq
  rw [htab, hslot] at hbytes
  exact hbytes

/-- Linen Cloth deposited onto the slot of some Wool Cloth: the swap goes through, the bank has the
linen, and the tables have nothing. -/
theorem swap_not_persisted :
    Stored (linenState [woolRow 1 1 1 3]).1 (linenState [woolRow 1 1 1 3]).2 ∧
      ¬(let state := Lib.run receiveItem (linenState [woolRow 1 1 1 3])
          [linenItemRequest 5 .deposit "DepositItem:0:1:1:1:5"]
        (⟨state.1, state.2, linenPlayer 5, []⟩ : World ItemTable.cloth).Persisted) := by
  refine ⟨⟨by decide, by decide, by decide⟩, fun hpersisted => ?_⟩
  exact absurd hpersisted.1 (by decide)

/-- In every run of item messages from a bank loaded from the tables, all of whose messages meet
`Persists`, the bank and its tables agree in every state once they are saved. -/
theorem run_persisted (se : Session) (guildid : UInt32) (infernoBank : Bool) (db : Database)
    (requests : List (ItemRequest T)) (player : Player T) (out : List Out)
    (hstored : Stored (GuildBank.setGuild T se guildid infernoBank db) db)
    (hok : Lib.Along Persists receiveItem (GuildBank.setGuild T se guildid infernoBank db, db)
      requests) :
    let state := Lib.run receiveItem (GuildBank.setGuild T se guildid infernoBank db, db) requests
    (⟨state.1, state.2, player, out⟩ : World T).Persisted := by
  intro state
  refine World.persisted_of_mirrors (Lib.run_invariant (fun state => Mirrors state.1 state.2)
    (fun _ _ hstep hstate => receiveItem_mirrors hstep hstate) ?_ hok)
  exact setGuild_mirrors T se guildid infernoBank hstored

/-- Moving a stack and splitting it are saved. -/
theorem run_persisted_move :
    let state := Lib.run receiveItem (linenState [linenRow 1 1 1 5])
      [linenItemRequest 5 .move "MoveItem:1:1:7", linenItemRequest 5 .split "SplitItem:1:7:9:2"]
    (⟨state.1, state.2, linenPlayer 5, []⟩ : World ItemTable.cloth).Persisted := by
  refine run_persisted .guildMaster 1 false (linenDatabase [linenRow 1 1 1 5]) _ _ _
    ⟨by decide, by decide, by decide⟩ ?_
  exact ⟨⟨by decide, by decide, by decide⟩, ⟨by decide, by decide, by decide⟩, trivial⟩

end TwowCore

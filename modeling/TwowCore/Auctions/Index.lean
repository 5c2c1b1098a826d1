import TwowCore.Lib.Entries
import TwowCore.Lib.Keyed
import TwowCore.Lib.Run

/-!
# The containers of an auction house

`AuctionHouseObject` keeps the addresses of its entries in a map by id and in two multimaps, by buyout
and by the account of the owner. They hold the same entries after any calls, and no call reads an entry
that has been deleted. A call that would is `none`.
-/

namespace TwowCore.Auctions

/-- The address of an `AuctionEntry`. -/
abbrev EntryPtr := ℕ

/-- What the house reads and writes of an `AuctionEntry`. -/
structure IndexedEntry where
  id : ℕ
  owner : ℕ
  ownerAccount : ℕ
  buyout : ℕ
  lockedIpAddress : String
  depositTime : ℕ
  expireTime : ℕ
  bidder : ℕ
  deriving DecidableEq, Repr

/-- `AuctionHouseObject`, with the entries that live in memory. A map is sorted by its keys, and a
multimap has the later of two entries with one key after the other. -/
structure AuctionHouseObject where
  entries : EntryPtr → Option IndexedEntry
  auctionsMap : List (ℕ × EntryPtr)
  orderedAuctionMap : List (ℕ × EntryPtr)
  accountAuctionMap : List (ℕ × EntryPtr)

/-- `multimap.emplace`, at the end of what has the key. -/
def multimapInsert (key : ℕ) (ptr : EntryPtr) (l : List (ℕ × EntryPtr)) : List (ℕ × EntryPtr) :=
  l.orderedInsert (fun a b => a.1 < b.1) (key, ptr)

/-- The loop over the `equal_range` of a key that erases the entry of an id. -/
def eraseEntry (entries : EntryPtr → Option IndexedEntry) (key id : ℕ) :
    List (ℕ × EntryPtr) → Option (List (ℕ × EntryPtr))
  | [] => some []
  | first :: rest =>
      if first.1 = key then do
        let entry ← entries first.2
        if entry.id = id then some rest
        else (eraseEntry entries key id rest).map (first :: ·)
      else (eraseEntry entries key id rest).map (first :: ·)

/-- The loop over the `equal_range` of an account that collects the entries of a player. -/
def deletableEntries (entries : EntryPtr → Option IndexedEntry) (account player : ℕ) :
    List (ℕ × EntryPtr) → Option (List EntryPtr)
  | [] => some []
  | first :: rest =>
      if first.1 = account then do
        let entry ← entries first.2
        let later ← deletableEntries entries account player rest
        some (if entry.owner = player then first.2 :: later else later)
      else deletableEntries entries account player rest

namespace AuctionHouseObject

/-- `GetAuction`. -/
def getAuction (h : AuctionHouseObject) (id : ℕ) : Option EntryPtr :=
  (h.auctionsMap.find? fun a => a.1 = id).map Prod.snd

/-- Writes an entry, or deletes it. -/
def setEntry (h : AuctionHouseObject) (ptr : EntryPtr) (entry : Option IndexedEntry) :
    AuctionHouseObject :=
  { h with entries := Function.update h.entries ptr entry }

/-- `RemoveAuction`. -/
def removeAuction (h : AuctionHouseObject) (ptr : EntryPtr) : Option AuctionHouseObject := do
  let entry ← h.entries ptr
  let ordered ← eraseEntry h.entries entry.buyout entry.id h.orderedAuctionMap
  let account ← eraseEntry h.entries entry.ownerAccount entry.id h.accountAuctionMap
  some { h with
    auctionsMap := Lib.eraseKey Prod.fst entry.id h.auctionsMap
    orderedAuctionMap := ordered
    accountAuctionMap := account }

/-- `RemoveAllAuctions`. -/
def removeAllAuctions (h : AuctionHouseObject) (account player : ℕ) : Option AuctionHouseObject := do
  let deletable ← deletableEntries h.entries account player h.accountAuctionMap
  deletable.foldlM removeAuction h

/-- `AddAuction` of a new entry. -/
def addAuction (h : AuctionHouseObject) (ptr : EntryPtr) (entry : IndexedEntry) :
    AuctionHouseObject where
  entries := Function.update h.entries ptr (some entry)
  auctionsMap := Lib.setEntry entry.id ptr h.auctionsMap
  orderedAuctionMap := multimapInsert entry.buyout ptr h.orderedAuctionMap
  accountAuctionMap := multimapInsert entry.ownerAccount ptr h.accountAuctionMap

/-- `++next`. -/
def next (h : AuctionHouseObject) (id : ℕ) : Option ℕ :=
  (h.auctionsMap.find? fun a => id < a.1).map Prod.fst

/-- What `Update` does with the entry of an iterator. -/
def visit (h : AuctionHouseObject) (curTime id : ℕ) : Option (AuctionHouseObject × EntryPtr) := do
  let ptr ← h.getAuction id
  let entry ← h.entries ptr
  let h' := if entry.depositTime + 300 < curTime then
    h.setEntry ptr (some { entry with lockedIpAddress := "" }) else h
  if entry.expireTime < curTime then do
    let h' ← h'.removeAuction ptr
    some (h'.setEntry ptr none, ptr)
  else some (h', ptr)

/-- The loop of `Update` from an iterator on, with the entries it visits. -/
def updateLoop (curTime : ℕ) : ℕ → AuctionHouseObject → Option ℕ →
    Option (AuctionHouseObject × List EntryPtr)
  | _, h, none => some (h, [])
  | 0, _, some _ => none
  | fuel + 1, h, some id => do
      let itr := h.next id
      let (h', ptr) ← h.visit curTime id
      let (h', visited) ← updateLoop curTime fuel h' itr
      some (h', ptr :: visited)

/-- `Update`. -/
def update (h : AuctionHouseObject) (curTime : ℕ) :
    Option (AuctionHouseObject × List EntryPtr) :=
  updateLoop curTime h.auctionsMap.length h (h.auctionsMap.head?.map Prod.fst)

end AuctionHouseObject

/-- The calls of a house. -/
inductive IndexCall where
  | addAuction (ptr : EntryPtr) (entry : IndexedEntry)
  | removeAuction (id : ℕ) (deleted : Bool)
  | removeAllAuctions (account player : ℕ)
  | update (curTime : ℕ)
  | placeBid (id bidder : ℕ)
  deriving DecidableEq, Repr

namespace AuctionHouseObject

/-- `RemoveAuction` as the handlers call it, with what `GetAuction` finds, which may be deleted then. -/
def removeFound (h : AuctionHouseObject) (id : ℕ) (deleted : Bool) : Option AuctionHouseObject :=
  match h.getAuction id with
  | none => some h
  | some ptr => (h.removeAuction ptr).map fun h' => if deleted then h'.setEntry ptr none else h'

/-- A handler writes the bidder of what `GetAuction` finds. -/
def placeBid (h : AuctionHouseObject) (id bidder : ℕ) : Option AuctionHouseObject :=
  match h.getAuction id with
  | none => some h
  | some ptr => (h.entries ptr).map fun entry => h.setEntry ptr (some { entry with bidder })

/-- A call. -/
def call (h : AuctionHouseObject) : IndexCall → Option AuctionHouseObject
  | .addAuction ptr entry => some (h.addAuction ptr entry)
  | .removeAuction id deleted => h.removeFound id deleted
  | .removeAllAuctions account player => h.removeAllAuctions account player
  | .update curTime => (h.update curTime).map Prod.fst
  | .placeBid id bidder => h.placeBid id bidder

/-- A new entry is at an address where none lives, and has an id that no auction of the house has. -/
def Fresh (h : AuctionHouseObject) : IndexCall → Prop
  | .addAuction ptr entry => h.entries ptr = none ∧ entry.id ∉ h.auctionsMap.map Prod.fst
  | _ => True

/-- A house with no auctions. -/
def opened : AuctionHouseObject := ⟨fun _ => none, [], [], []⟩

/-- The entries of the map, each under a key. -/
def keyed (h : AuctionHouseObject) (key : IndexedEntry → ℕ) : List (ℕ × EntryPtr) :=
  h.auctionsMap.map fun a => ((h.entries a.2).elim 0 key, a.2)

/-- The map has each entry under its id, and the multimaps have the same entries, each once under its
key. -/
structure Coherent (h : AuctionHouseObject) : Prop where
  sorted : Lib.KeysSorted h.auctionsMap
  live : ∀ a ∈ h.auctionsMap, ∃ entry, h.entries a.2 = some entry ∧ entry.id = a.1
  distinct : (h.auctionsMap.map Prod.snd).Nodup
  ordered : h.orderedAuctionMap.Perm (h.keyed IndexedEntry.buyout)
  account : h.accountAuctionMap.Perm (h.keyed IndexedEntry.ownerAccount)

end AuctionHouseObject

section Containers

variable {entries : EntryPtr → Option IndexedEntry} {l : List (ℕ × EntryPtr)} {key id : ℕ}
  {ptr : EntryPtr}

/-- The entry of an id is erased from its `equal_range`, when all entries live and no other has the
id. -/
theorem eraseEntry_eq (hl : ∀ a ∈ l, ∃ entry, entries a.2 = some entry ∧
    (entry.id = id ↔ a.2 = ptr)) : eraseEntry entries key id l = some (l.erase (key, ptr)) := by
  induction l with
  | nil => rfl
  | cons first rest ih =>
      obtain ⟨entry, hentry, hid⟩ := hl first List.mem_cons_self
      have hrest := ih fun a ha => hl a (List.mem_cons_of_mem _ ha)
      have htail : first ≠ (key, ptr) → (first :: rest).erase (key, ptr) =
          first :: rest.erase (key, ptr) := fun hne =>
        List.erase_cons_tail (by simpa using hne)
      unfold eraseEntry
      rw [hentry, hrest]
      by_cases hkey : first.1 = key
      · rw [if_pos hkey]
        show (if entry.id = id then some rest else some (first :: rest.erase (key, ptr))) = _
        by_cases hfound : entry.id = id
        · have hfirst : first = (key, ptr) := Prod.ext hkey (hid.mp hfound)
          rw [if_pos hfound, hfirst, List.erase_cons_head]
        · rw [if_neg hfound, htail]
          rintro rfl
          exact hfound (hid.mpr rfl)
      · rw [if_neg hkey, htail]
        · rfl
        · rintro rfl
          exact hkey rfl

/-- The entries of a player are some of those of his account. -/
theorem deletableEntries_eq {account player : ℕ}
    (hl : ∀ a ∈ l, ∃ entry, entries a.2 = some entry) :
    ∃ deletable, deletableEntries entries account player l = some deletable ∧
      deletable.Sublist (l.map Prod.snd) := by
  induction l with
  | nil => exact ⟨[], rfl, List.Sublist.refl _⟩
  | cons first rest ih =>
      obtain ⟨entry, hentry⟩ := hl first List.mem_cons_self
      obtain ⟨later, hlater, hsub⟩ := ih fun a ha => hl a (List.mem_cons_of_mem _ ha)
      unfold deletableEntries
      rw [hentry, hlater]
      by_cases hkey : first.1 = account
      · rw [if_pos hkey]
        refine ⟨_, rfl, ?_⟩
        split_ifs
        · exact hsub.cons_cons _
        · exact hsub.cons _
      · rw [if_neg hkey]
        exact ⟨later, rfl, hsub.cons _⟩

end Containers

namespace AuctionHouseObject

variable {h : AuctionHouseObject} {id : ℕ} {ptr : EntryPtr}

/-- No two auctions have an id. -/
theorem Coherent.ids (hc : h.Coherent) : (h.auctionsMap.map Prod.fst).Nodup :=
  hc.sorted.nodup

theorem Coherent.getAuction (hc : h.Coherent) (hmem : (id, ptr) ∈ h.auctionsMap) :
    h.getAuction id = some ptr := by
  unfold AuctionHouseObject.getAuction
  rw [Lib.find_key hc.ids hmem rfl]
  rfl

/-- What `GetAuction` finds is in the map. -/
theorem mem_of_getAuction (hget : h.getAuction id = some ptr) : (id, ptr) ∈ h.auctionsMap := by
  obtain ⟨a, hfind, rfl⟩ := Option.map_eq_some_iff.mp hget
  have hid : a.1 = id := by simpa using List.find?_some hfind
  rw [← hid]
  exact List.mem_of_find?_eq_some hfind

/-- What lives and has the same keys may be written. -/
theorem Coherent.setEntry (hc : h.Coherent) {entry : Option IndexedEntry}
    (hsame : ∀ a ∈ h.auctionsMap, a.2 = ptr → ∀ e, h.entries ptr = some e →
      ∃ e', entry = some e' ∧ e'.id = e.id ∧ e'.buyout = e.buyout ∧
        e'.ownerAccount = e.ownerAccount) : (h.setEntry ptr entry).Coherent := by
  have hkeyed : ∀ key : IndexedEntry → ℕ, (key = IndexedEntry.buyout ∨
      key = IndexedEntry.ownerAccount) → (h.setEntry ptr entry).keyed key = h.keyed key := by
    intro key hkey
    refine List.map_congr_left fun a ha => ?_
    show ((Function.update h.entries ptr entry a.2).elim 0 key, a.2) = _
    by_cases heq : a.2 = ptr
    · obtain ⟨e, he, -⟩ := hc.live a ha
      rw [heq] at he
      obtain ⟨e', rfl, -, hbuyout, haccount⟩ := hsame a ha heq e he
      rw [heq, Function.update_self, he]
      rcases hkey with rfl | rfl
      · exact congrArg (·, ptr) hbuyout
      · exact congrArg (·, ptr) haccount
    · rw [Function.update_of_ne heq]
  exact
    { sorted := hc.sorted
      live := fun a ha => by
        obtain ⟨e, he, hid⟩ := hc.live a ha
        show ∃ e', Function.update h.entries ptr entry a.2 = some e' ∧ e'.id = a.1
        by_cases heq : a.2 = ptr
        · rw [heq] at he
          obtain ⟨e', rfl, hid', -, -⟩ := hsame a ha heq e he
          rw [heq, Function.update_self]
          exact ⟨e', rfl, hid'.trans hid⟩
        · rw [Function.update_of_ne heq]
          exact ⟨e, he, hid⟩
      distinct := hc.distinct
      ordered := by
        rw [hkeyed _ (Or.inl rfl)]
        exact hc.ordered
      account := by
        rw [hkeyed _ (Or.inr rfl)]
        exact hc.account }

/-- `RemoveAuction` of an auction of the house takes it out of all containers. -/
theorem Coherent.removeAuction (hc : h.Coherent) (hmem : (id, ptr) ∈ h.auctionsMap) :
    ∃ h', h.removeAuction ptr = some h' ∧ h'.Coherent ∧ h'.entries = h.entries ∧
      h'.auctionsMap = Lib.eraseKey Prod.fst id h.auctionsMap := by
  obtain ⟨entry, hentry, hid⟩ := hc.live _ hmem
  have hperm : h.auctionsMap.Perm ((id, ptr) :: Lib.eraseKey Prod.fst id h.auctionsMap) :=
    Lib.perm_eraseKey hc.ids hmem rfl
  -- in a multimap every entry lives, and only this one has its id
  have hmulti : ∀ {l : List (ℕ × EntryPtr)} (key : IndexedEntry → ℕ), l.Perm (h.keyed key) →
      eraseEntry h.entries (key entry) entry.id l = some (l.erase (key entry, ptr)) ∧
        (l.erase (key entry, ptr)).Perm ((Lib.eraseKey Prod.fst id h.auctionsMap).map fun a =>
          ((h.entries a.2).elim 0 key, a.2)) := by
    intro l key hl
    constructor
    · refine eraseEntry_eq fun a ha => ?_
      obtain ⟨b, hb, rfl⟩ := List.mem_map.mp (hl.mem_iff.mp ha)
      obtain ⟨other, hother, hotherId⟩ := hc.live b hb
      refine ⟨other, hother, ?_⟩
      show other.id = entry.id ↔ b.2 = ptr
      constructor
      · intro hsame
        have hkey : b.1 = (id, ptr).1 := by rw [← hotherId, hsame, hid]
        have hb : b = (id, ptr) := List.inj_on_of_nodup_map hc.ids hb hmem hkey
        exact congrArg Prod.snd hb
      · intro hsame
        rw [hsame, hentry] at hother
        rw [Option.some.inj hother]
    · have hkeyed := hl.trans (hperm.map fun a : ℕ × EntryPtr => ((h.entries a.2).elim 0 key, a.2))
      have herase := hkeyed.erase (key entry, ptr)
      rw [List.map_cons] at herase
      have hhead : ((h.entries (id, ptr).2).elim 0 key, (id, ptr).2) = (key entry, ptr) := by
        show ((h.entries ptr).elim 0 key, ptr) = _
        rw [show h.entries ptr = some entry from hentry]
        rfl
      rwa [hhead, List.erase_cons_head] at herase
  obtain ⟨hordered, horderedPerm⟩ := hmulti IndexedEntry.buyout hc.ordered
  obtain ⟨haccount, haccountPerm⟩ := hmulti IndexedEntry.ownerAccount hc.account
  have hsub : (Lib.eraseKey Prod.fst id h.auctionsMap).Sublist h.auctionsMap :=
    List.filter_sublist
  refine ⟨{ h with
    auctionsMap := Lib.eraseKey Prod.fst id h.auctionsMap
    orderedAuctionMap := h.orderedAuctionMap.erase (entry.buyout, ptr)
    accountAuctionMap := h.accountAuctionMap.erase (entry.ownerAccount, ptr) }, ?_, ?_, rfl, rfl⟩
  · unfold AuctionHouseObject.removeAuction
    have hentry' : h.entries ptr = some entry := hentry
    have hid' : entry.id = id := hid
    rw [hentry', Option.bind_eq_bind, Option.bind_some, hordered, Option.bind_eq_bind,
      Option.bind_some, haccount, hid']
    rfl
  · exact
      { sorted := List.Pairwise.sublist hsub hc.sorted
        live := fun a ha => hc.live a (hsub.subset ha)
        distinct := hc.distinct.sublist (hsub.map _)
        ordered := horderedPerm
        account := haccountPerm }

/-- `AddAuction` of a new entry. -/
theorem Coherent.addAuction (hc : h.Coherent) {entry : IndexedEntry} (hptr : h.entries ptr = none)
    (hid : entry.id ∉ h.auctionsMap.map Prod.fst) : (h.addAuction ptr entry).Coherent := by
  have hperm : (Lib.setEntry entry.id ptr h.auctionsMap).Perm ((entry.id, ptr) :: h.auctionsMap) :=
    Lib.perm_setEntry hid
  have hother : ∀ a ∈ h.auctionsMap, a.2 ≠ ptr := by
    intro a ha heq
    obtain ⟨e, he, -⟩ := hc.live a ha
    rw [heq, hptr] at he
    cases he
  have hkeyed : ∀ key : IndexedEntry → ℕ,
      ((h.addAuction ptr entry).keyed key).Perm ((key entry, ptr) :: h.keyed key) := by
    intro key
    refine (hperm.map fun a : ℕ × EntryPtr =>
      ((Function.update h.entries ptr (some entry) a.2).elim 0 key, a.2)).trans ?_
    have hold : (h.auctionsMap.map fun a : ℕ × EntryPtr =>
        ((Function.update h.entries ptr (some entry) a.2).elim 0 key, a.2)) = h.keyed key :=
      List.map_congr_left fun a ha => by rw [Function.update_of_ne (hother a ha)]
    rw [List.map_cons, hold, Function.update_self]
    exact List.Perm.refl _
  exact
    { sorted := hc.sorted.setEntry
      live := fun a ha => by
        rcases List.mem_cons.mp (hperm.mem_iff.mp ha) with rfl | hold
        · exact ⟨entry, Function.update_self _ _ _, rfl⟩
        · obtain ⟨e, he, heid⟩ := hc.live a hold
          exact ⟨e, (Function.update_of_ne (hother a hold) _ _).trans he, heid⟩
      distinct := by
        have hpair := (hperm.map Prod.snd).nodup_iff
        refine hpair.mpr (List.nodup_cons.mpr ⟨fun hmem => ?_, hc.distinct⟩)
        obtain ⟨a, ha, heq⟩ := List.mem_map.mp hmem
        exact hother a ha heq
      ordered := ((List.perm_orderedInsert _ _ _).trans (hc.ordered.cons _)).trans
        (hkeyed IndexedEntry.buyout).symm
      account := ((List.perm_orderedInsert _ _ _).trans (hc.account.cons _)).trans
        (hkeyed IndexedEntry.ownerAccount).symm }

/-- What has been removed may be deleted. -/
theorem Coherent.delete (hc : h.Coherent) (hnot : ptr ∉ h.auctionsMap.map Prod.snd) :
    (h.setEntry ptr none).Coherent :=
  hc.setEntry fun _ ha heq => absurd (heq ▸ List.mem_map_of_mem ha) hnot

/-- The address of an auction is that of no other. -/
theorem Coherent.notMem_eraseKey (hc : h.Coherent) (hmem : (id, ptr) ∈ h.auctionsMap) :
    ptr ∉ (Lib.eraseKey Prod.fst id h.auctionsMap).map Prod.snd := by
  intro hin
  obtain ⟨a, ha, heq⟩ := List.mem_map.mp hin
  obtain ⟨hold, hne⟩ := Lib.mem_eraseKey.mp ha
  have hsame : a = (id, ptr) := List.inj_on_of_nodup_map hc.distinct hold hmem heq
  exact hne (congrArg Prod.fst hsame)

/-- The auctions that `RemoveAllAuctions` has collected are removed one after the other. -/
theorem Coherent.removeAll (hc : h.Coherent) {deletable : List EntryPtr} (hnodup : deletable.Nodup)
    (hmem : ∀ ptr ∈ deletable, ptr ∈ h.auctionsMap.map Prod.snd) :
    ∃ h', deletable.foldlM AuctionHouseObject.removeAuction h = some h' ∧ h'.Coherent := by
  induction deletable generalizing h with
  | nil => exact ⟨h, rfl, hc⟩
  | cons ptr rest ih =>
      obtain ⟨hnot, hrest⟩ := List.nodup_cons.mp hnodup
      obtain ⟨⟨id, ptr'⟩, hin, rfl⟩ := List.mem_map.mp (hmem ptr List.mem_cons_self)
      obtain ⟨h', hremove, hc', -, hmap⟩ := hc.removeAuction hin
      rw [List.foldlM_cons]
      have hbind : h.removeAuction ptr' = some h' := hremove
      rw [hbind]
      refine ih hc' hrest fun other hother => ?_
      obtain ⟨a, ha, heq⟩ := List.mem_map.mp (hmem other (List.mem_cons_of_mem _ hother))
      rw [hmap]
      refine List.mem_map.mpr ⟨a, Lib.mem_eraseKey.mpr ⟨ha, fun hid => ?_⟩, heq⟩
      have hsame : a = (id, ptr') := List.inj_on_of_nodup_map hc.ids ha hin hid
      rw [hsame] at heq
      exact hnot (heq ▸ hother)

theorem Coherent.removeAllAuctions (hc : h.Coherent) (account player : ℕ) :
    ∃ h', h.removeAllAuctions account player = some h' ∧ h'.Coherent := by
  have hptrs : (h.accountAuctionMap.map Prod.snd).Perm (h.auctionsMap.map Prod.snd) := by
    have hmap := hc.account.map Prod.snd
    rwa [keyed, List.map_map] at hmap
  obtain ⟨deletable, hdeletable, hsub⟩ := @deletableEntries_eq h.entries
    h.accountAuctionMap account player fun a ha => by
      obtain ⟨b, hb, hsame⟩ := List.mem_map.mp (hptrs.mem_iff.mp (List.mem_map_of_mem ha))
      obtain ⟨entry, hentry, -⟩ := hc.live b hb
      exact ⟨entry, hsame ▸ hentry⟩
  have hnodup := (hptrs.nodup_iff.mpr hc.distinct).sublist hsub
  obtain ⟨h', hall, hc'⟩ := hc.removeAll hnodup fun ptr hptr =>
    hptrs.mem_iff.mp (hsub.subset hptr)
  refine ⟨h', ?_, hc'⟩
  unfold AuctionHouseObject.removeAllAuctions
  rw [hdeletable]
  exact hall

/-- `Update` visits the entry of an iterator, and takes no other out of the house. -/
theorem Coherent.visit (hc : h.Coherent) (hmem : (id, ptr) ∈ h.auctionsMap) (curTime : ℕ) :
    ∃ h', h.visit curTime id = some (h', ptr) ∧ h'.Coherent ∧
      (h'.auctionsMap = h.auctionsMap ∨ h'.auctionsMap = Lib.eraseKey Prod.fst id h.auctionsMap) := by
  obtain ⟨entry, hentry, hid⟩ := hc.live _ hmem
  have hentry : h.entries ptr = some entry := hentry
  unfold AuctionHouseObject.visit
  rw [hc.getAuction hmem, Option.bind_eq_bind, Option.bind_some, hentry, Option.bind_eq_bind,
    Option.bind_some]
  -- unlocking the entry leaves all containers
  obtain ⟨h₁, heq, hc₁, hmap₁⟩ : ∃ h₁, (if entry.depositTime + 300 < curTime then
      h.setEntry ptr (some { entry with lockedIpAddress := "" }) else h) = h₁ ∧ h₁.Coherent ∧
        h₁.auctionsMap = h.auctionsMap := by
    refine ⟨_, rfl, ?_, ?_⟩
    · split_ifs
      · refine hc.setEntry fun a _ _ e he => ⟨_, rfl, ?_⟩
        rw [hentry] at he
        cases he
        exact ⟨rfl, rfl, rfl⟩
      · exact hc
    · split_ifs
      · rfl
      · rfl
  simp only [heq]
  split_ifs
  · obtain ⟨h₂, hremove, hc₂, -, hmap₂⟩ := hc₁.removeAuction (hmap₁ ▸ hmem)
    rw [hremove]
    refine ⟨h₂.setEntry ptr none, rfl, hc₂.delete ?_, Or.inr ?_⟩
    · rw [hmap₂]
      exact hc₁.notMem_eraseKey (hmap₁ ▸ hmem)
    · rw [← hmap₁]
      exact hmap₂
  · exact ⟨h₁, rfl, hc₁, Or.inl hmap₁⟩

/-- The iterator after one goes to the next key. -/
theorem next_eq {before rest : List (ℕ × EntryPtr)}
    (hsorted : h.auctionsMap.Pairwise fun a b => a.1 < b.1)
    (hmap : h.auctionsMap = before ++ (id, ptr) :: rest) :
    h.next id = rest.head?.map Prod.fst := by
  rw [hmap] at hsorted
  obtain ⟨-, hlater, hcross⟩ := List.pairwise_append.mp hsorted
  obtain ⟨hnext, -⟩ := List.pairwise_cons.mp hlater
  unfold next
  rw [hmap, List.find?_append, List.find?_eq_none.mpr fun a ha => ?_, Option.none_or,
    List.find?_cons_of_neg (by simp)]
  · cases rest with
    | nil => rfl
    | cons b rest =>
        rw [List.find?_cons_of_pos (by simpa using hnext b List.mem_cons_self)]
        rfl
  · have hlt : a.1 < id := hcross a ha (id, ptr) List.mem_cons_self
    simpa using hlt.le

/-- From an iterator on, `Update` visits every entry there is once, in order. -/
theorem Coherent.updateLoop (curTime : ℕ) {rest : List (ℕ × EntryPtr)} :
    ∀ {h : AuctionHouseObject} {before : List (ℕ × EntryPtr)}, h.Coherent →
      h.auctionsMap = before ++ rest →
      ∃ h', updateLoop curTime rest.length h (rest.head?.map Prod.fst) =
        some (h', rest.map Prod.snd) ∧ h'.Coherent := by
  induction rest with
  | nil => exact fun {h} _ hc _ => ⟨h, rfl, hc⟩
  | cons first rest ih =>
      obtain ⟨id, ptr⟩ := first
      intro h before hc hmap
      have hmem : (id, ptr) ∈ h.auctionsMap := by
        rw [hmap]
        exact List.mem_append_right _ List.mem_cons_self
      obtain ⟨h₁, hvisit, hc₁, hmap₁⟩ := hc.visit hmem curTime
      -- what comes after is still there
      have hafter : ∃ before', h₁.auctionsMap = before' ++ rest := by
        rcases hmap₁ with heq | heq
        · exact ⟨before ++ [(id, ptr)], by rw [heq, hmap, List.append_assoc]; rfl⟩
        · have hids := hc.ids
          rw [hmap, List.map_append, List.map_cons] at hids
          obtain ⟨-, hnodup, -⟩ := List.nodup_append.mp hids
          have hnot : id ∉ rest.map Prod.fst := (List.nodup_cons.mp hnodup).1
          refine ⟨Lib.eraseKey Prod.fst id (before ++ [(id, ptr)]), ?_⟩
          rw [heq, hmap, ← Lib.eraseKey_of_notMem hnot]
          simp [Lib.eraseKey]
      obtain ⟨before', hbefore⟩ := hafter
      obtain ⟨h₂, hloop, hc₂⟩ := ih hc₁ hbefore
      refine ⟨h₂, ?_, hc₂⟩
      show (h.visit curTime id).bind _ = _
      rw [hvisit, Option.bind_some, next_eq hc.sorted hmap]
      show (AuctionHouseObject.updateLoop curTime rest.length h₁ _).bind _ = _
      rw [hloop]
      rfl

theorem Coherent.update (hc : h.Coherent) (curTime : ℕ) :
    ∃ h', h.update curTime = some (h', h.auctionsMap.map Prod.snd) ∧ h'.Coherent := by
  have hmap : h.auctionsMap = [] ++ h.auctionsMap := rfl
  exact hc.updateLoop curTime hmap

theorem Coherent.removeFound (hc : h.Coherent) (id : ℕ) (deleted : Bool) :
    ∃ h', h.removeFound id deleted = some h' ∧ h'.Coherent := by
  unfold AuctionHouseObject.removeFound
  cases hget : h.getAuction id with
  | none => exact ⟨h, rfl, hc⟩
  | some ptr =>
      have hmem := mem_of_getAuction hget
      obtain ⟨h', hremove, hc', -, hmap⟩ := hc.removeAuction hmem
      refine ⟨if deleted then h'.setEntry ptr none else h', by simp only [hremove, Option.map_some],
        ?_⟩
      split_ifs
      · refine hc'.delete ?_
        rw [hmap]
        exact hc.notMem_eraseKey hmem
      · exact hc'

theorem Coherent.placeBid (hc : h.Coherent) (id bidder : ℕ) :
    ∃ h', h.placeBid id bidder = some h' ∧ h'.Coherent := by
  unfold AuctionHouseObject.placeBid
  cases hget : h.getAuction id with
  | none => exact ⟨h, rfl, hc⟩
  | some ptr =>
      obtain ⟨entry, hentry, -⟩ := hc.live _ (mem_of_getAuction hget)
      have hentry : h.entries ptr = some entry := hentry
      refine ⟨h.setEntry ptr (some { entry with bidder }),
        by simp only [hentry, Option.map_some], ?_⟩
      refine hc.setEntry fun _ _ _ e he => ⟨_, rfl, ?_⟩
      rw [hentry] at he
      cases he
      exact ⟨rfl, rfl, rfl⟩

/-- Every call on a coherent house comes to an end, and leaves one. -/
theorem Coherent.call (hc : h.Coherent) {c : IndexCall} (hfresh : h.Fresh c) :
    ∃ h', h.call c = some h' ∧ h'.Coherent := by
  cases c with
  | addAuction ptr entry => exact ⟨_, rfl, hc.addAuction hfresh.1 hfresh.2⟩
  | removeAuction id deleted => exact hc.removeFound id deleted
  | removeAllAuctions account player => exact hc.removeAllAuctions account player
  | update curTime =>
      obtain ⟨h', hupdate, hc'⟩ := hc.update curTime
      exact ⟨h', congrArg (Option.map Prod.fst) hupdate, hc'⟩
  | placeBid id bidder => exact hc.placeBid id bidder

/-- A call, unless one before has read a deleted entry. -/
def step (s : Option AuctionHouseObject) (c : IndexCall) : Option AuctionHouseObject :=
  s.bind fun h => h.call c

/-- The new entries of a run are new. -/
def FreshAt (s : Option AuctionHouseObject) (c : IndexCall) : Prop :=
  ∀ h, s = some h → h.Fresh c

theorem opened_coherent : opened.Coherent :=
  ⟨List.Pairwise.nil, fun _ ha => (List.not_mem_nil ha).elim, List.nodup_nil, List.Perm.refl _,
    List.Perm.refl _⟩

/-- After any calls with fresh ids the three containers hold the same entries, and `Update` then visits
each of them once. -/
theorem run_indexed {calls : List IndexCall}
    (hfresh : Lib.Along FreshAt step (some opened) calls) :
    ∃ h, Lib.run step (some opened) calls = some h ∧ h.Coherent ∧
      ∀ curTime, ∃ h', h.update curTime = some (h', h.auctionsMap.map Prod.snd) ∧
        (h.auctionsMap.map Prod.snd).Nodup ∧ h'.Coherent := by
  have hinv := @Lib.run_invariant _ _ step FreshAt
    (fun s => ∃ h : AuctionHouseObject, s = some h ∧ h.Coherent) (fun s c hok hs => by
      obtain ⟨h, rfl, hc⟩ := hs
      exact hc.call (hok h rfl)) _ _ ⟨opened, rfl, opened_coherent⟩ hfresh
  obtain ⟨h, hrun, hc⟩ := hinv
  refine ⟨h, hrun, hc, fun curTime => ?_⟩
  obtain ⟨h', hupdate, hc'⟩ := hc.update curTime
  exact ⟨h', hupdate, hc.distinct, hc'⟩

/-- Two auctions of one buyout and one account, of which one has run out. -/
def twoAuctions : List IndexCall :=
  [.addAuction 1 ⟨1, 7, 3, 50, "", 0, 100, 0⟩, .addAuction 2 ⟨2, 7, 3, 50, "", 0, 900, 0⟩,
    .update 500]

theorem run_indexed_twoAuctions :
    (∃ h, Lib.run step (some opened) twoAuctions = some h ∧ h.Coherent ∧
      ∀ curTime, ∃ h', h.update curTime = some (h', h.auctionsMap.map Prod.snd) ∧
        (h.auctionsMap.map Prod.snd).Nodup ∧ h'.Coherent) ∧
      (Lib.run step (some opened) twoAuctions).map (·.orderedAuctionMap) = some [(50, 2)] := by
  refine ⟨run_indexed ⟨?_, ?_, ?_, trivial⟩, by decide⟩
  · rintro h heq
    cases heq
    exact ⟨rfl, by decide⟩
  · rintro h heq
    cases heq
    exact ⟨by decide, by decide⟩
  · exact fun _ _ => trivial

end AuctionHouseObject

end TwowCore.Auctions

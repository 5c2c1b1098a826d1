import Mathlib.Data.UInt
import TwowCore.Lib.Pages

/-!
# Listing auctions

`AuctionHouseObject::BuildListAuctionItems`: a query without filters is answered on a short path that
skips to a position of `OrderedAuctionMap` and counts all entries, any other one by a loop that counts the
entries it lists. The two agree exactly when the player may see every auction and every item is there.
-/

namespace TwowCore.Auctions

/-- The item of an auction and what its prototype says. -/
structure AItem where
  entry : UInt32
  itemClass : UInt32
  subClass : UInt32
  inventoryType : UInt32
  quality : UInt32
  requiredLevel : UInt32
  name : String
  permEnchantment : UInt32
  randomPropertyId : UInt32
  suffixFactor : UInt32
  count : UInt32
  spellCharges : UInt32
  deriving DecidableEq, Repr

/-- An auction with what `GetAItem` finds. -/
structure ListedAuction where
  id : UInt32
  item : Option AItem
  owner : UInt64
  startbid : UInt32
  bid : UInt32
  buyout : UInt32
  bidder : UInt64
  expireTime : UInt64
  lockedIpAddress : String
  deriving DecidableEq, Repr

/-- What `BuildAuctionInfo` writes. -/
structure AuctionInfo where
  id : UInt32
  entry : UInt32
  permEnchantment : UInt32
  randomPropertyId : UInt32
  suffixFactor : UInt32
  count : UInt32
  spellCharges : UInt32
  owner : UInt64
  startbid : UInt32
  outBid : UInt32
  buyout : UInt32
  timeLeft : UInt32
  bidder : UInt64
  bid : UInt32
  deriving DecidableEq, Repr

/-- The player who asks: his address, the items he can use, those that teach a spell he has, the name of
an item in his language, and `Utf8FitTo`. -/
structure Viewer where
  remoteAddress : String
  canUseItem : AItem → Bool
  hasTaught : AItem → Bool
  localizedName : AItem → String
  fitsTo : String → String → Bool

/-- `AuctionHouseClientQuery`, as far as a list needs it. -/
structure ListQuery where
  mainCategory : UInt32
  subCategory : UInt32
  slotId : UInt32
  quality : UInt32
  levelmin : UInt8
  levelmax : UInt8
  usable : UInt8
  searchedName : String
  listfrom : ℕ
  deriving DecidableEq, Repr

/-- The value of a filter that is not set. -/
def anyValue : UInt32 := 0xffffffff

/-- `INVTYPE_CHEST`. -/
def invtypeChest : UInt32 := 5

/-- `INVTYPE_ROBE`. -/
def invtypeRobe : UInt32 := 20

/-- `ITEM_CLASS_RECIPE`. -/
def classRecipe : UInt32 := 9

/-- The most entries of a list. -/
def listSize : ℕ := 50

namespace ListQuery

/-- No filter is set. -/
def isUnfiltered (query : ListQuery) : Bool :=
  query.mainCategory == anyValue && query.subCategory == anyValue && query.slotId == anyValue &&
    query.quality == anyValue && query.levelmin == 0 && query.levelmax == 0 && query.usable == 0 &&
    query.searchedName == ""

/-- The filters on the prototype and on what the player can use. -/
def passes (query : ListQuery) (viewer : Viewer) (item : AItem) : Bool :=
  (query.mainCategory == anyValue || item.itemClass == query.mainCategory) &&
  (query.subCategory == anyValue || item.subClass == query.subCategory) &&
  (query.slotId == anyValue || item.inventoryType == query.slotId ||
    query.slotId == invtypeChest && item.inventoryType == invtypeRobe) &&
  (query.quality == anyValue || decide (query.quality ≤ item.quality)) &&
  (query.levelmin == 0 || decide (query.levelmin.toUInt32 ≤ item.requiredLevel) &&
    (query.levelmax == 0 || decide (item.requiredLevel ≤ query.levelmax.toUInt32))) &&
  (query.usable == 0 || viewer.canUseItem item &&
    !(item.itemClass == classRecipe && viewer.hasTaught item))

/-- The filter on the name. -/
def passesName (query : ListQuery) (viewer : Viewer) (item : AItem) : Bool :=
  query.searchedName == "" ||
    item.name != "" && viewer.fitsTo (viewer.localizedName item) query.searchedName

end ListQuery

namespace ListedAuction

/-- `IsAvailableFor`. -/
def isAvailableFor (auction : ListedAuction) (viewer : Viewer) : Bool :=
  auction.lockedIpAddress == "" || auction.lockedIpAddress == viewer.remoteAddress

/-- `GetAuctionOutBid`. -/
def getAuctionOutBid (auction : ListedAuction) : UInt32 :=
  if auction.bid / 100 * 5 = 0 then 1 else auction.bid / 100 * 5

/-- What is written for an item. -/
def infoOf (now : UInt64) (auction : ListedAuction) (item : AItem) : AuctionInfo where
  id := auction.id
  entry := item.entry
  permEnchantment := item.permEnchantment
  randomPropertyId := item.randomPropertyId
  suffixFactor := item.suffixFactor
  count := item.count
  spellCharges := item.spellCharges
  owner := auction.owner
  startbid := auction.startbid
  outBid := if auction.bid = 0 then 0 else auction.getAuctionOutBid
  buyout := auction.buyout
  timeLeft := ((auction.expireTime - now) * 1000).toUInt32
  bidder := auction.bidder
  bid := auction.bid

/-- `BuildAuctionInfo`: nothing when the item is not there. -/
def buildAuctionInfo (now : UInt64) (auction : ListedAuction) : List AuctionInfo :=
  (auction.item.map (auction.infoOf now)).toList

end ListedAuction

/-- The packet, `count` and `totalcount`. -/
structure Listing where
  data : List AuctionInfo
  count : ℕ
  totalcount : ℕ
  deriving DecidableEq, Repr

variable (viewer : Viewer) (now : UInt64)

/-- The loop of the short path. -/
def shortLoop : Listing → List ListedAuction → Listing
  | listing, [] => listing
  | listing, auction :: rest =>
      if auction.isAvailableFor viewer then
        let listing :=
          { listing with
            data := listing.data ++ auction.buildAuctionInfo now
            count := listing.count + 1 }
        if listSize ≤ listing.count then listing else shortLoop listing rest
      else shortLoop listing rest

/-- The short path. -/
def shortPath (auctions : List ListedAuction) (query : ListQuery) : Listing :=
  let listing : Listing := ⟨[], 0, auctions.length⟩
  if query.listfrom < auctions.length then
    shortLoop viewer now listing (auctions.drop query.listfrom)
  else listing

/-- An auction in the loop that looks at the filters. -/
def filterStep (query : ListQuery) (listing : Listing) (auction : ListedAuction) : Listing :=
  match auction.item with
  | none => listing
  | some item =>
      if query.passes viewer item ∧ auction.isAvailableFor viewer ∧ query.passesName viewer item then
        let listing' :=
          if listing.count < listSize ∧ query.listfrom ≤ listing.totalcount then
            { listing with
              data := listing.data ++ auction.buildAuctionInfo now
              count := listing.count + 1 }
          else listing
        { listing' with totalcount := listing'.totalcount + 1 }
      else listing

/-- The loop that looks at the filters. -/
def filterPath (auctions : List ListedAuction) (query : ListQuery) : Listing :=
  auctions.foldl (filterStep viewer now query) ⟨[], 0, 0⟩

/-- `BuildListAuctionItems`. -/
def buildListAuctionItems (auctions : List ListedAuction) (query : ListQuery) : Listing :=
  if query.isUnfiltered then shortPath viewer now auctions query
  else filterPath viewer now auctions query

/-- The entry that a list has for an auction. -/
def entryFor (query : ListQuery) (auction : ListedAuction) : Option AuctionInfo :=
  (auction.item.filter fun item =>
    query.passes viewer item && auction.isAvailableFor viewer && query.passesName viewer item).map
      (auction.infoOf now)

variable {viewer now} {auctions : List ListedAuction} {query : ListQuery}

/-- The loop that looks at the filters lists a page of the entries it counts. -/
theorem filterPath_eq (auctions : List ListedAuction) (query : ListQuery) :
    filterPath viewer now auctions query =
      ⟨Lib.page listSize query.listfrom (auctions.filterMap (entryFor viewer now query)),
        (Lib.page listSize query.listfrom (auctions.filterMap (entryFor viewer now query))).length,
        (auctions.filterMap (entryFor viewer now query)).length⟩ := by
  unfold filterPath
  induction auctions using List.reverseRecOn with
  | nil => simp [Lib.page]
  | append_singleton auctions auction ih =>
      rw [List.foldl_append, ih, List.foldl_cons, List.foldl_nil, List.filterMap_append,
        List.filterMap_cons, List.filterMap_nil]
      generalize auctions.filterMap (entryFor viewer now query) = entries
      unfold filterStep entryFor
      cases hitem : auction.item with
      | none => simp
      | some item =>
          have hwrite : auction.buildAuctionInfo now = [auction.infoOf now item] := by
            unfold ListedAuction.buildAuctionInfo
            rw [hitem]
            rfl
          by_cases hpass : query.passes viewer item = true ∧ auction.isAvailableFor viewer = true ∧
              query.passesName viewer item = true
          · obtain ⟨hfilters, havailable, hname⟩ := hpass
            simp only [hfilters, havailable, hname, and_self, if_true, Option.filter_some,
              Bool.and_self, Option.map_some, Lib.page_concat, hwrite, List.length_append,
              List.length_singleton]
            by_cases hroom : query.listfrom ≤ entries.length ∧
                (Lib.page listSize query.listfrom entries).length < listSize
            · rw [if_pos hroom, if_pos hroom.symm, List.length_append, List.length_singleton]
            · rw [if_neg hroom, if_neg fun h => hroom h.symm]
          · have hnone : (query.passes viewer item && auction.isAvailableFor viewer &&
                query.passesName viewer item) = false := by
              simpa [and_assoc] using hpass
            simp [hpass, hnone, Option.filter_some]

/-- Every auction may be seen by the player, and has its item. -/
def AllShown (viewer : Viewer) (auctions : List ListedAuction) : Prop :=
  ∀ auction ∈ auctions, auction.isAvailableFor viewer = true ∧ auction.item.isSome

instance (viewer : Viewer) (auctions : List ListedAuction) : Decidable (AllShown viewer auctions) :=
  inferInstanceAs (Decidable (∀ auction ∈ auctions, _))

/-- Without a filter everything passes. -/
theorem passes_of_isUnfiltered (viewer : Viewer) (h : query.isUnfiltered = true) (item : AItem) :
    query.passes viewer item = true ∧ query.passesName viewer item = true := by
  unfold ListQuery.isUnfiltered at h
  simp only [Bool.and_eq_true] at h
  obtain ⟨⟨⟨⟨⟨⟨⟨hmain, hsub⟩, hslot⟩, hquality⟩, hmin⟩, -⟩, husable⟩, hname⟩ := h
  unfold ListQuery.passes ListQuery.passesName
  simp [hmain, hsub, hslot, hquality, hmin, husable, hname]

/-- Without a filter an auction has an entry when the player may see it and the item is there. -/
theorem entryFor_of_isUnfiltered (viewer : Viewer) (now : UInt64) (h : query.isUnfiltered = true)
    (auction : ListedAuction) :
    (entryFor viewer now query auction).toList =
      if auction.isAvailableFor viewer then auction.buildAuctionInfo now else [] := by
  unfold entryFor ListedAuction.buildAuctionInfo
  cases auction.item with
  | none => simp
  | some item =>
      obtain ⟨hfilters, hname⟩ := passes_of_isUnfiltered viewer h item
      cases havailable : auction.isAvailableFor viewer <;> simp [hfilters, hname, Option.filter_some]

theorem filterMap_entryFor (viewer : Viewer) (now : UInt64) (h : query.isUnfiltered = true) :
    auctions.filterMap (entryFor viewer now query) =
      (auctions.filter fun auction => auction.isAvailableFor viewer).flatMap
        fun auction => auction.buildAuctionInfo now := by
  induction auctions with
  | nil => rfl
  | cons auction rest ih =>
      have hwrite := entryFor_of_isUnfiltered viewer now h auction
      have hsplit : (auction :: rest).filterMap (entryFor viewer now query) =
          (entryFor viewer now query auction).toList ++ rest.filterMap (entryFor viewer now query) := by
        cases hentry : entryFor viewer now query auction with
        | none => exact List.filterMap_cons_none hentry
        | some info => exact List.filterMap_cons_some hentry
      rw [hsplit, hwrite, ih]
      by_cases havailable : auction.isAvailableFor viewer = true
      · rw [if_pos havailable, List.filter_cons, if_pos havailable, List.flatMap_cons]
      · rw [if_neg havailable, List.filter_cons, if_neg havailable, List.nil_append]

/-- Without a filter the auctions that have an entry are those that are shown. -/
theorem isSome_entryFor (viewer : Viewer) (now : UInt64) (h : query.isUnfiltered = true)
    (auction : ListedAuction) :
    (entryFor viewer now query auction).isSome = true ↔
      auction.isAvailableFor viewer = true ∧ auction.item.isSome := by
  unfold entryFor
  cases auction.item with
  | none => simp
  | some item =>
      obtain ⟨hfilters, hname⟩ := passes_of_isUnfiltered viewer h item
      cases havailable : auction.isAvailableFor viewer <;>
        simp [hfilters, hname, Option.filter_some]

/-- The entries are fewer than the auctions unless all are shown. -/
theorem length_entries_eq_iff (viewer : Viewer) (now : UInt64) (h : query.isUnfiltered = true) :
    (auctions.filterMap (entryFor viewer now query)).length = auctions.length ↔
      AllShown viewer auctions := by
  rw [List.length_filterMap_eq_countP, List.countP_eq_length]
  exact forall_congr' fun auction => imp_congr_right fun _ => isSome_entryFor viewer now h auction

/-- When all are shown the short loop takes entries until the list is full. -/
theorem shortLoop_eq (h : query.isUnfiltered = true) (hall : AllShown viewer auctions)
    {listing : Listing} (hroom : listing.count < listSize) :
    shortLoop viewer now listing auctions =
      ⟨listing.data ++
          (auctions.filterMap (entryFor viewer now query)).take (listSize - listing.count),
        listing.count +
          ((auctions.filterMap (entryFor viewer now query)).take (listSize - listing.count)).length,
        listing.totalcount⟩ := by
  induction auctions generalizing listing with
  | nil => simp [shortLoop]
  | cons auction rest ih =>
      obtain ⟨havailable, hitem⟩ := hall auction List.mem_cons_self
      have hrest : AllShown viewer rest := fun other hother =>
        hall other (List.mem_cons_of_mem _ hother)
      have hwrite := entryFor_of_isUnfiltered viewer now h auction
      obtain ⟨item, hitem⟩ := Option.isSome_iff_exists.mp hitem
      have hinfo : auction.buildAuctionInfo now = [auction.infoOf now item] := by
        unfold ListedAuction.buildAuctionInfo
        rw [hitem]
        rfl
      rw [if_pos havailable, hinfo, Option.toList_eq_singleton_iff] at hwrite
      obtain ⟨left, hleft⟩ : ∃ left, listSize - listing.count = left + 1 :=
        Nat.exists_eq_add_one_of_ne_zero (by omega)
      rw [List.filterMap_cons_some hwrite, hleft, List.take_succ_cons]
      unfold shortLoop
      rw [if_pos havailable, hinfo]
      by_cases hfull : listSize ≤ listing.count + 1
      · have hnone : left = 0 := by omega
        simp only [hfull, if_true, hnone, List.take_zero, List.length_singleton]
      · have hmore : listSize - (listing.count + 1) = left := by omega
        simp only [hfull, if_false]
        rw [ih hrest (by simpa using hfull)]
        simp only [hmore, List.append_assoc, List.singleton_append, List.length_cons]
        congr 1
        omega

/-- When all are shown the short path lists a page of the entries. -/
theorem shortPath_eq (h : query.isUnfiltered = true) (hall : AllShown viewer auctions) :
    shortPath viewer now auctions query =
      ⟨Lib.page listSize query.listfrom (auctions.filterMap (entryFor viewer now query)),
        (Lib.page listSize query.listfrom (auctions.filterMap (entryFor viewer now query))).length,
        auctions.length⟩ := by
  have hlength := (length_entries_eq_iff viewer now h).mpr hall
  have hdrop := Lib.filterMap_drop
    (fun auction hin => (isSome_entryFor viewer now h auction).mpr (hall auction hin)) query.listfrom
  unfold shortPath Lib.page
  by_cases hstart : query.listfrom < auctions.length
  · have hrest : AllShown viewer (auctions.drop query.listfrom) := fun auction hin =>
      hall auction (List.mem_of_mem_drop hin)
    have hempty : (⟨[], 0, auctions.length⟩ : Listing).count < listSize :=
      Nat.lt_of_sub_eq_succ rfl
    rw [if_pos hstart, shortLoop_eq h hrest hempty, hdrop]
    simp
  · rw [if_neg hstart, List.drop_eq_nil_of_le (by omega)]
    rfl

/-- What the short path is there for: it answers as the other one, the pages of 50 from position 0 on list
every auction the player may see once, and the count is that of the entries. -/
structure ListsAll (viewer : Viewer) (now : UInt64) (auctions : List ListedAuction) : Prop where
  agrees : ∀ query : ListQuery, query.isUnfiltered = true →
    shortPath viewer now auctions query = filterPath viewer now auctions query
  pages : ∀ query : ListQuery, query.isUnfiltered = true → ∀ n, auctions.length ≤ listSize * n →
    ((List.range n).flatMap fun k =>
        (buildListAuctionItems viewer now auctions { query with listfrom := listSize * k }).data) =
      (auctions.filter fun auction => auction.isAvailableFor viewer).flatMap
        fun auction => auction.buildAuctionInfo now
  counted : ∀ query : ListQuery, query.isUnfiltered = true →
    (buildListAuctionItems viewer now auctions query).count =
      (buildListAuctionItems viewer now auctions query).data.length

/-- The short path is right exactly when every auction is shown. -/
theorem listsAll_iff (viewer : Viewer) (now : UInt64) (auctions : List ListedAuction) :
    ListsAll viewer now auctions ↔ AllShown viewer auctions := by
  constructor
  · intro h
    have hunfiltered : ListQuery.isUnfiltered ⟨anyValue, anyValue, anyValue, anyValue, 0, 0, 0, "",
      auctions.length⟩ = true := rfl
    have htotal := congrArg Listing.totalcount (h.agrees _ hunfiltered)
    rw [filterPath_eq] at htotal
    refine (length_entries_eq_iff viewer now hunfiltered).mp (htotal.symm.trans ?_)
    unfold shortPath
    rw [if_neg (Nat.lt_irrefl _)]
  · intro hall
    refine ⟨fun query hunfiltered => ?_, fun query hunfiltered n hn => ?_,
      fun query hunfiltered => ?_⟩
    · rw [shortPath_eq hunfiltered hall, filterPath_eq,
        (length_entries_eq_iff viewer now hunfiltered).mpr hall]
    · have hpage : ∀ k, (buildListAuctionItems viewer now auctions
          { query with listfrom := listSize * k }).data =
            Lib.page listSize (listSize * k) (auctions.filterMap (entryFor viewer now query)) := by
        intro k
        have hstart : ({ query with listfrom := listSize * k } : ListQuery).isUnfiltered = true :=
          hunfiltered
        rw [buildListAuctionItems, if_pos hstart, shortPath_eq hstart hall]
        rfl
      simp only [hpage]
      rw [Lib.pages_flatMap, List.take_of_length_le]
      · exact filterMap_entryFor viewer now hunfiltered
      · rw [(length_entries_eq_iff viewer now hunfiltered).mpr hall]
        exact hn
    · rw [buildListAuctionItems, if_pos hunfiltered, shortPath_eq hunfiltered hall]

/-- An auction of linen, for everybody or for one address. -/
def linenAuction (id : UInt32) (lockedIpAddress : String) : ListedAuction :=
  ⟨id, some ⟨2589, 7, 0, 0, 1, 0, "Linen Cloth", 0, 0, 0, 20, 0⟩, 1, 100, 0, 200, 0, 0, lockedIpAddress⟩

/-- A player who asks from one address. -/
def plainViewer : Viewer := ⟨"10.0.0.1", fun _ => true, fun _ => false, AItem.name, fun _ _ => true⟩

/-- An auction that is locked for another player is counted on the short path. -/
theorem shortPath_ne_filterPath :
    ¬ListsAll plainViewer 0 [linenAuction 1 "10.0.0.2", linenAuction 2 ""] := by
  intro h
  have hsame := h.agrees ⟨anyValue, anyValue, anyValue, anyValue, 0, 0, 0, "", 0⟩ rfl
  revert hsame
  decide +kernel

end TwowCore.Auctions

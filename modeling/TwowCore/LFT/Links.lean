import TwowCore.LFT.Calls

/-!
# The offers in every state

Whatever the order of the calls, and whatever happens to the players in between, those of an offer know it
and nobody else does, and nobody has accepted it twice.
-/

namespace TwowCore.LFT

/-- Nobody is twice in an offer, and nobody else has accepted it. -/
structure Offer.WellFormed (offer : Offer) : Prop where
  distinct : (offer.roles.map Prod.fst).Nodup
  once : offer.accepted.Nodup
  listed : ∀ guid ∈ offer.accepted, guid ∈ offer.roles.map Prod.fst

/-- One of an offer accepts it. -/
theorem Offer.WellFormed.accept {offer : Offer} {guid : Guid} (h : offer.WellFormed)
    (hguid : guid ∈ offer.roles.map Prod.fst) : (offer.accept guid).WellFormed := by
  by_cases hold : guid ∈ offer.accepted
  · have hsame : (offer.accept guid).accepted = offer.accepted := if_pos hold
    exact ⟨h.distinct, hsame ▸ h.once, hsame ▸ h.listed⟩
  · have hnew : (offer.accept guid).accepted = offer.accepted ++ [guid] := if_neg hold
    refine ⟨h.distinct, ?_, fun other hother => ?_⟩
    · rw [hnew, List.nodup_append_comm]
      exact List.nodup_cons.mpr ⟨hold, h.once⟩
    · rw [hnew, List.mem_append, List.mem_singleton] at hother
      rcases hother with hin | rfl
      · exact h.listed other hin
      · exact hguid

namespace Manager

/-- What holds of the offers after any calls. -/
structure Linked (m : Manager) : Prop where
  offered : ∀ guid offerId, Lib.entryOf guid m.playerOffers = some offerId ↔
    ∃ offer, Lib.entryOf offerId m.offers = some offer ∧ guid ∈ offer.roles.map Prod.fst
  wellFormed : ∀ offerId offer, Lib.entryOf offerId m.offers = some offer → offer.WellFormed
  queueSorted : Lib.KeysSorted m.queue
  offersSorted : Lib.KeysSorted m.offers
  fresh : ∀ offerId, m.nextOfferId ≤ offerId → Lib.entryOf offerId m.offers = none

variable {m m' : Manager} (w : World) {guid : Guid}

/-- The queue and the rolechecks do not matter. -/
theorem Linked.keep (h : m.Linked) (hsorted : Lib.KeysSorted m'.queue) (hoffers : m'.offers = m.offers)
    (hplayers : m'.playerOffers = m.playerOffers) (hnext : m'.nextOfferId = m.nextOfferId) :
    m'.Linked where
  offered := by
    rw [hoffers, hplayers]
    exact h.offered
  wellFormed := by
    rw [hoffers]
    exact h.wellFormed
  queueSorted := hsorted
  offersSorted := hoffers ▸ h.offersSorted
  fresh := by
    rw [hoffers, hnext]
    exact h.fresh

/-- An offer goes, and its players with it. -/
theorem Linked.withdrawn (h : m.Linked) {offerId : ℕ} {offer : Offer}
    (hoffer : Lib.entryOf offerId m.offers = some offer) (hw : Withdrawn offer.roles m m') :
    Linked { m' with offers := Lib.eraseEntry offerId m'.offers } where
  offered guid id := by
    show Lib.entryOf guid m'.playerOffers = some id ↔
      ∃ other, Lib.entryOf id (Lib.eraseEntry offerId m'.offers) = some other ∧ _
    rw [hw.players, Lib.entryOf_eraseEntry, hw.offers]
    by_cases hmem : guid ∈ offer.roles.map Prod.fst
    · rw [if_pos hmem]
      refine iff_of_false (fun hnone => by cases hnone) ?_
      rintro ⟨other, hother, hin⟩
      split_ifs at hother with heq
      have hown := (h.offered guid offerId).mpr ⟨offer, hoffer, hmem⟩
      rw [(h.offered guid id).mpr ⟨other, hother, hin⟩] at hown
      exact heq (Option.some.inj hown)
    · rw [if_neg hmem, h.offered]
      by_cases heq : id = offerId
      · rw [if_pos heq, heq, hoffer]
        refine iff_of_false ?_ ?_
        · rintro ⟨other, hother, hin⟩
          cases hother
          exact hmem hin
        · rintro ⟨other, hother, -⟩
          cases hother
      · rw [if_neg heq]
  wellFormed id other hother := by
    rw [Lib.entryOf_eraseEntry, hw.offers] at hother
    split_ifs at hother
    exact h.wellFormed id other hother
  queueSorted := hw.queueSorted
  offersSorted := Lib.KeysSorted.eraseEntry (hw.offers ▸ h.offersSorted) offerId
  fresh id hle := by
    have hnone := h.fresh id (hw.nextOfferId ▸ hle)
    rw [Lib.entryOf_eraseEntry, hw.offers, hnone, ite_self]

/-- An offer is written with the same roles. -/
theorem Linked.setOffer (h : m.Linked) {offerId : ℕ} {offer offer' : Offer}
    (hoffer : Lib.entryOf offerId m.offers = some offer) (hroles : offer'.roles = offer.roles)
    (hwf : offer'.WellFormed) :
    Linked { m with offers := Lib.setEntry offerId offer' m.offers } where
  offered guid id := by
    show Lib.entryOf guid m.playerOffers = some id ↔
      ∃ other, Lib.entryOf id (Lib.setEntry offerId offer' m.offers) = some other ∧ _
    rw [Lib.entryOf_setEntry, h.offered]
    by_cases heq : id = offerId
    · rw [if_pos heq, heq, hoffer]
      constructor
      · rintro ⟨other, hother, hin⟩
        cases hother
        exact ⟨offer', rfl, hroles ▸ hin⟩
      · rintro ⟨other, hother, hin⟩
        cases hother
        exact ⟨offer, rfl, hroles ▸ hin⟩
    · rw [if_neg heq]
  wellFormed id other hother := by
    rw [Lib.entryOf_setEntry] at hother
    split_ifs at hother
    · cases hother
      exact hwf
    · exact h.wellFormed id other hother
  queueSorted := h.queueSorted
  offersSorted := h.offersSorted.setEntry
  fresh id hle := by
    have hnone := h.fresh id hle
    refine (Lib.entryOf_setEntry id).trans ((if_neg ?_).trans hnone)
    rintro rfl
    rw [hoffer] at hnone
    cases hnone

/-- A new offer to players who have none. -/
theorem Linked.makeOffer (h : m.Linked) (instanceName : String) {roles : List (Guid × Role)}
    (hdistinct : (roles.map Prod.fst).Nodup)
    (hfree : ∀ entry ∈ roles, Lib.entryOf entry.1 m.playerOffers = none) :
    (m.makeOffer instanceName roles).Linked := by
  have hp : Promised m.nextOfferId roles _ (m.makeOffer instanceName roles) :=
    promised_foldl m.nextOfferId roles h.queueSorted
  have hnew : Lib.entryOf m.nextOfferId m.offers = none := h.fresh _ le_rfl
  have hoffers : ∀ offerId, Lib.entryOf offerId (m.makeOffer instanceName roles).offers =
      if offerId = m.nextOfferId then some ⟨instanceName, roles, [], timeout⟩
      else Lib.entryOf offerId m.offers := by
    intro offerId
    rw [hp.offers]
    exact Lib.entryOf_setEntry offerId
  refine ⟨fun guid offerId => ?_, fun offerId offer hoffer => ?_, hp.queueSorted,
    hp.offers ▸ h.offersSorted.setEntry, fun offerId hle => ?_⟩
  · rw [hp.players, hoffers]
    show (if _ then _ else Lib.entryOf guid m.playerOffers) = some offerId ↔ _
    by_cases heq : offerId = m.nextOfferId
    · rw [if_pos heq, heq]
      constructor
      · intro hpromise
        split_ifs at hpromise with hmem
        · exact ⟨_, rfl, hmem⟩
        · obtain ⟨offer, hoffer, -⟩ := (h.offered guid m.nextOfferId).mp hpromise
          rw [hnew] at hoffer
          cases hoffer
      · rintro ⟨offer, hoffer, hmem⟩
        cases hoffer
        exact if_pos hmem
    · rw [if_neg heq, ← h.offered]
      split_ifs with hmem
      · obtain ⟨entry, hentry, rfl⟩ := List.mem_map.mp hmem
        rw [hfree entry hentry]
        exact iff_of_false (fun hsome => heq (Option.some.inj hsome).symm) (fun hsome => by cases hsome)
      · exact Iff.rfl
  · rw [hoffers] at hoffer
    split_ifs at hoffer
    · cases hoffer
      exact ⟨hdistinct, List.nodup_nil, fun _ hin => (List.not_mem_nil hin).elim⟩
    · exact h.wellFormed offerId offer hoffer
  · rw [hp.nextOfferId] at hle
    have hlt : m.nextOfferId + 1 ≤ offerId := hle
    rw [hoffers, if_neg (by omega)]
    exact h.fresh offerId (by omega)

/-- `TryMakeOffers`. -/
theorem Linked.tryMakeOffers (h : m.Linked) : (m.tryMakeOffers w).Linked := by
  unfold Manager.tryMakeOffers
  generalize m.openInstances = instances
  induction instances generalizing m with
  | nil => exact h
  | cons name rest ih =>
      refine ih ?_
      unfold Manager.tryBuildOfferForInstance
      cases hfound : m.getQueueOrder.findSome? (m.selectFor w m.getQueueOrder name) with
      | none => exact h
      | some staff =>
          obtain ⟨seedGuid, -, hselect⟩ := List.exists_of_findSome?_eq_some hfound
          obtain ⟨hstaffed, hfree⟩ :=
            selectFor_staffed w (nodup_getQueueOrder h.queueSorted) hselect
          exact h.makeOffer name hstaffed.distinct hfree

/-- `CancelOffer`. -/
theorem Linked.cancelOffer (h : m.Linked) (offerId : ℕ) (requeueAccepted : Bool) (removeGuid : Guid)
    (requeueOthers : Bool) :
    (m.cancelOffer offerId requeueAccepted removeGuid requeueOthers).Linked := by
  unfold Manager.cancelOffer
  cases hoffer : Lib.entryOf offerId m.offers with
  | none => exact h
  | some offer =>
      exact h.withdrawn hoffer (withdrawn_foldl (fun m entry hs => withdrawn_withdraw hs _ entry)
        offer.roles h.queueSorted)

/-- `CompleteOffer`. -/
theorem Linked.completeOffer (h : m.Linked) (offerId : ℕ) : (m.completeOffer w offerId).1.Linked := by
  unfold Manager.completeOffer
  cases hoffer : Lib.entryOf offerId m.offers with
  | none => exact h
  | some offer =>
      simp only []
      generalize World.addPlayersToGroup (m.offerLeader offer) w none (offer.roles.map Prod.fst) =
        result
      obtain ⟨w', done⟩ := result
      cases done with
      | false => exact h.cancelOffer offerId false 0 false
      | true =>
          exact h.withdrawn hoffer (withdrawn_foldl (fun m entry hs => withdrawn_discharge hs entry)
            offer.roles h.queueSorted)

/-- `HandleOfferAccept`. -/
theorem Linked.handleOfferAccept (h : m.Linked) (guid : Guid) :
    (m.handleOfferAccept w guid).Linked := by
  unfold Manager.handleOfferAccept Manager.acceptOffer
  cases hp : Lib.entryOf guid m.playerOffers with
  | none => exact h
  | some offerId =>
      simp only []
      cases hoffer : Lib.entryOf offerId m.offers with
      | none => exact h
      | some offer =>
          obtain ⟨offer', hoffer', hmem⟩ := (h.offered guid offerId).mp hp
          rw [hoffer] at hoffer'
          cases hoffer'
          have hset : Linked { m with offers := Lib.setEntry offerId (offer.accept guid) m.offers } :=
            h.setOffer hoffer rfl ((h.wellFormed offerId offer hoffer).accept hmem)
          simp only []
          split_ifs
          · exact hset.completeOffer w offerId
          · exact hset

/-- `CleanupPlayer`. -/
theorem Linked.cleanupPlayer (h : m.Linked) (guid : Guid) : (m.cleanupPlayer guid).Linked := by
  have hgone : Linked { m with queue := Lib.eraseEntry guid m.queue } :=
    h.keep (h.queueSorted.eraseEntry guid) rfl rfl rfl
  unfold Manager.cleanupPlayer
  cases hp : Lib.entryOf guid m.playerOffers with
  | none =>
      simp only [hp, Option.elim_none]
      exact hgone.keep hgone.queueSorted rfl rfl rfl
  | some offerId =>
      have hcancelled := hgone.cancelOffer offerId true guid true
      simp only [hp, Option.elim_some]
      exact hcancelled.keep hcancelled.queueSorted rfl rfl rfl

/-- When a rolecheck is over. -/
theorem Linked.enqueueRolecheck (h : m.Linked) (leader : Guid) (rolecheck : PendingRolecheck) :
    (m.enqueueRolecheck w leader rolecheck).Linked := by
  refine Linked.tryMakeOffers w ?_
  generalize rolecheck.members = members
  induction members generalizing m with
  | nil => exact h
  | cons member rest ih =>
      refine ih ?_
      unfold enqueueMember
      cases w.getPlayer member with
      | none => exact h
      | some p =>
          cases Lib.entryOf member rolecheck.responses with
          | none => exact h
          | some roleMask => exact h.keep h.queueSorted.setEntry rfl rfl rfl

/-- `HandleRolecheckResponse`. -/
theorem Linked.handleRolecheckResponse (h : m.Linked) (guid : Guid) (p : PlayerData)
    (fields : List String) : (m.handleRolecheckResponse w guid p fields).Linked := by
  unfold Manager.handleRolecheckResponse
  split
  · simp only []
    split_ifs
    · exact h
    · cases m.rolecheckOf guid with
      | none => exact h
      | some entry =>
          simp only []
          split_ifs
          · refine Linked.enqueueRolecheck w ?_ _ _
            exact h.keep h.queueSorted rfl rfl rfl
          · exact h.keep h.queueSorted rfl rfl rfl
  · exact h

/-- `HandleQueueLeave`. -/
theorem Linked.handleQueueLeave (h : m.Linked) (guid : Guid) : (m.handleQueueLeave w guid).Linked := by
  unfold Manager.handleQueueLeave
  cases m.rolecheckOf guid with
  | some entry => exact h.keep h.queueSorted rfl rfl rfl
  | none =>
      simp only []
      cases Lib.entryOf guid m.playerOffers with
      | some offerId => exact Linked.tryMakeOffers w (h.cancelOffer offerId true guid true)
      | none =>
          simp only []
          cases Lib.entryOf guid m.queue with
          | none => exact h
          | some q => exact h.keep (eraseAll_spec (m.queuedWith guid q) h.queueSorted).1 rfl rfl rfl

/-- What is done for a bot. -/
theorem Linked.fill (h : m.Linked) (action : FillAction) : (m.fill w action).Linked := by
  cases action with
  | accept bot => exact h.handleOfferAccept w bot
  | enqueue bot p leader instances roleMask =>
      show Linked (if Lib.entryOf bot m.queue = none then _ else m)
      split_ifs
      · exact h.keep h.queueSorted.setEntry rfl rfl rfl
      · exact h
  | drop bot =>
      show Linked (if Lib.entryOf bot m.playerOffers = none then _ else m)
      split_ifs
      · exact h.keep (h.queueSorted.eraseEntry bot) rfl rfl rfl
      · exact h

/-- Offers run out. -/
theorem Linked.tickOffers (diff : ℕ) (entries : List (ℕ × Offer)) (h : m.Linked)
    (hsorted : Lib.KeysSorted entries)
    (hentries : ∀ entry ∈ entries, Lib.entryOf entry.1 m.offers = some entry.2) :
    (entries.foldl (Manager.tickOffer diff) m).Linked := by
  induction entries generalizing m with
  | nil => exact h
  | cons entry rest ih =>
      obtain ⟨hfirst, hrest⟩ := List.pairwise_cons.mp hsorted
      have hentry := hentries entry List.mem_cons_self
      have hstep : (m.tickOffer diff entry).Linked := by
        unfold Manager.tickOffer
        split_ifs
        · exact h.cancelOffer entry.1 true 0 false
        · have hold := h.wellFormed entry.1 entry.2 hentry
          exact h.setOffer hentry rfl ⟨hold.distinct, hold.once, hold.listed⟩
      refine ih hstep hrest fun later hlater => ?_
      rw [offers_tickOffer h.queueSorted diff hentry later.1 (Nat.ne_of_gt (hfirst later hlater))]
      exact hentries later (List.mem_cons_of_mem _ hlater)

/-- `Update`. -/
theorem Linked.update (h : m.Linked) (diff : ℕ) (fills : List FillAction) :
    (m.update w diff fills).Linked := by
  have hfilled : (fills.foldl (Manager.fill w) m).Linked := by
    induction fills generalizing m with
    | nil => exact h
    | cons action rest ih => exact ih (h.fill w action)
  have hswept : ((fills.foldl (Manager.fill w) m).sweepQueue w).Linked :=
    hfilled.keep (List.Pairwise.sublist List.filter_sublist hfilled.queueSorted) rfl rfl rfl
  have hticked : (((fills.foldl (Manager.fill w) m).sweepQueue w).tickRolechecks diff).Linked :=
    hswept.keep hswept.queueSorted rfl rfl rfl
  refine Linked.tryMakeOffers w (Linked.tickOffers diff _ hticked hticked.offersSorted ?_)
  exact fun entry hentry => hticked.offersSorted.entryOf_eq hentry

/-- Every call keeps it. -/
theorem Linked.step (h : m.Linked) (input : World × Call) : (m.step input).Linked := by
  obtain ⟨w, call⟩ := input
  cases call with
  | queueJoin guid p fields =>
      show (m.handleQueueJoin w guid p fields).Linked
      unfold Manager.handleQueueJoin
      cases joinRequest w guid p fields with
      | none => exact h
      | some instances =>
          have hclean := h.cleanupPlayer guid
          exact hclean.keep hclean.queueSorted rfl rfl rfl
  | queueLeave guid => exact h.handleQueueLeave w guid
  | rolecheckResponse guid p fields => exact h.handleRolecheckResponse w guid p fields
  | offerAccept guid => exact h.handleOfferAccept w guid
  | logout guid => exact h.cleanupPlayer guid
  | update diff fills => exact h.update w diff fills

/-- It holds after every run. -/
theorem run_linked (calls : List (World × Call)) : (Lib.run step start calls).Linked := by
  have hstart : start.Linked :=
    { start_inv with wellFormed := fun _ _ hoffer => by cases hoffer }
  exact Lib.run_invariant Linked (fun _ _ (_ : True) h => h.step _) hstart
    (Lib.along_of_forall (fun _ _ => trivial) start calls)

end Manager

end TwowCore.LFT

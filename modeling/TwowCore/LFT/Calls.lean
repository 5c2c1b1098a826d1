import TwowCore.LFT.Coherence

/-!
# Runs of the team finder

What each call keeps of the maps, and what a run of calls does then.
-/

namespace TwowCore.LFT.Manager

variable {m m' : Manager} (w : World) {guid : Guid}

section Join

/-- A player of no offer who is asked by no rolecheck may be queued, again too. -/
theorem Inv.enqueuePlayer (h : m.Inv) (p : PlayerData) (leader : Guid) (instances : List String)
    (roleMask : RoleMask) (hoffer : Lib.entryOf guid m.playerOffers = none)
    (hask : ∀ entry ∈ m.rolechecks, guid ∉ entry.2.members) :
    (m.enqueuePlayer guid p leader instances roleMask).Inv where
  offered := h.offered
  staffed offerId offer hid := by
    have hstaffed := h.staffed offerId offer hid
    refine { hstaffed with queued := fun entry hentry => ?_ }
    obtain ⟨q, hq, hhas⟩ := hstaffed.queued entry hentry
    refine ⟨q, (Lib.entryOf_setEntry entry.1).trans ((if_neg ?_).trans hq), hhas⟩
    rintro rfl
    have hown := (h.offered entry.1 offerId).mpr ⟨offer, hid, List.mem_map_of_mem hentry⟩
    rw [hoffer] at hown
    cases hown
  apart entry hentry other hother := by
    refine (Lib.entryOf_setEntry other).trans ((if_neg ?_).trans (h.apart entry hentry other hother))
    rintro rfl
    exact hask entry hentry hother
  single := h.single
  queueSorted := h.queueSorted.setEntry
  rolechecksSorted := h.rolechecksSorted
  offersSorted := h.offersSorted
  fresh := h.fresh

/-- A player who is asked has no offer. -/
theorem Inv.asked_free (h : m.Inv) {entry : Guid × PendingRolecheck} (hentry : entry ∈ m.rolechecks)
    (hguid : guid ∈ entry.2.members) : Lib.entryOf guid m.playerOffers = none := by
  by_contra hsome
  obtain ⟨offerId, hoffer⟩ := Option.ne_none_iff_exists'.mp hsome
  obtain ⟨offer, hid, hmem⟩ := h.offer_of hoffer
  obtain ⟨listed, hlisted, rfl⟩ := List.mem_map.mp hmem
  obtain ⟨q, hq, -⟩ := (h.staffed offerId offer hid).queued listed hlisted
  rw [h.apart entry hentry listed.1 hguid] at hq
  cases hq

/-- When a rolecheck is over its members are queued. -/
theorem Inv.enqueueRolecheck (h : m.Inv) {leader : Guid} {rolecheck answered : PendingRolecheck}
    (hentry : (leader, rolecheck) ∈ m.rolechecks) (hmembers : answered.members = rolecheck.members) :
    (({ m with rolechecks := Lib.eraseEntry leader m.rolechecks } : Manager).enqueueRolecheck w
      leader answered).Inv := by
  have herased : Inv { m with rolechecks := Lib.eraseEntry leader m.rolechecks } :=
    h.setRolechecks (h.rolechecksSorted.eraseEntry leader)
      fun entry hin => ⟨entry, List.mem_of_mem_filter hin, rfl, rfl⟩
  have hgo : ∀ (guids : List Guid) (m₁ : Manager), m₁.Inv →
      (∀ guid ∈ guids, Lib.entryOf guid m₁.playerOffers = none ∧
        ∀ entry ∈ m₁.rolechecks, guid ∉ entry.2.members) →
      (guids.foldl (enqueueMember w leader answered) m₁).Inv := by
    intro guids
    induction guids with
    | nil => exact fun _ hinv _ => hinv
    | cons guid rest ih =>
        intro m₁ hinv hall
        obtain ⟨hoffer, hask⟩ := hall guid List.mem_cons_self
        have hrest := fun other hother => hall other (List.mem_cons_of_mem _ hother)
        rw [List.foldl_cons]
        unfold enqueueMember
        cases w.getPlayer guid with
        | none => exact ih m₁ hinv hrest
        | some p =>
            cases Lib.entryOf guid answered.responses with
            | none => exact ih m₁ hinv hrest
            | some roleMask => exact ih _ (hinv.enqueuePlayer p _ _ _ hoffer hask) hrest
  refine Inv.tryMakeOffers w (hgo answered.members _ herased fun guid hguid => ?_)
  rw [hmembers] at hguid
  refine ⟨h.asked_free hentry hguid, fun entry hin hmember => ?_⟩
  -- a member of another rolecheck would be in two
  obtain ⟨hold, hne⟩ := List.mem_filter.mp hin
  have hkey := h.single (leader, rolecheck) hentry entry hold guid hguid hmember
  exact absurd hkey.symm (by simpa using hne)

/-- `CleanupPlayer` takes the player out of the queue and off his rolechecks, and puts nobody in. -/
theorem cleanupPlayer_frame (hsorted : Lib.KeysSorted m.queue) (guid : Guid) :
    ((m.cleanupPlayer guid).rolechecks =
        m.rolechecks.filter fun entry => decide (guid ∉ entry.2.members)) ∧
      ∀ other, other = guid ∨ Lib.entryOf other m.queue = none →
        Lib.entryOf other (m.cleanupPlayer guid).queue = none := by
  have herased : ∀ other, other = guid ∨ Lib.entryOf other m.queue = none →
      Lib.entryOf other (Lib.eraseEntry guid m.queue) = none := by
    intro other hnone
    rw [Lib.entryOf_eraseEntry]
    rcases hnone with heq | hnone
    · exact if_pos heq
    · rw [hnone, ite_self]
  unfold Manager.cleanupPlayer
  cases hp : Lib.entryOf guid m.playerOffers with
  | none =>
      simp only [hp, Option.elim_none]
      exact ⟨trivial, herased⟩
  | some offerId =>
      simp only [hp, Option.elim_some]
      obtain ⟨hrole, hqueue, -⟩ := cancelOffer_frame
        (m := { m with queue := Lib.eraseEntry guid m.queue }) (hsorted.eraseEntry guid) offerId true
        guid true
      exact ⟨by rw [hrole], fun other hnone => hqueue other (herased other hnone)⟩

/-- `HandleQueueJoin`. -/
theorem Inv.handleQueueJoin (h : m.Inv) (p : PlayerData) (fields : List String)
    (hcond : m.CallCondition (w, .queueJoin guid p fields)) :
    (m.handleQueueJoin w guid p fields).Inv := by
  unfold Manager.handleQueueJoin
  cases hrequest : joinRequest w guid p fields with
  | none => exact h
  | some instances =>
      have hcond := hcond (by rw [hrequest]; exact Option.some_ne_none instances)
      have hclean := h.cleanupPlayer guid
      have hfree : ∀ member ∈ w.getPartyMembers guid,
          Lib.entryOf member (m.cleanupPlayer guid).queue = none ∧
            ∀ entry ∈ (m.cleanupPlayer guid).rolechecks, member ∉ entry.2.members := by
        intro member hmember
        obtain ⟨hrolechecks, hleft⟩ := cleanupPlayer_frame h.queueSorted guid
        rw [hrolechecks]
        by_cases heq : member = guid
        · refine ⟨hleft member (Or.inl heq), fun entry hentry => ?_⟩
          rw [heq]
          exact of_decide_eq_true (List.mem_filter.mp hentry).2
        · obtain ⟨hqueue, hask⟩ := hcond member hmember heq
          refine ⟨hleft member (Or.inr hqueue), fun entry hentry => ?_⟩
          obtain ⟨hold, hnot⟩ := List.mem_filter.mp hentry
          exact hask entry hold (of_decide_eq_true hnot)
      exact
        { offered := hclean.offered
          staffed := hclean.staffed
          apart := fun entry hentry member hmember => by
            rcases Lib.mem_setEntry hentry with rfl | hold
            · exact (hfree member hmember).1
            · exact hclean.apart entry hold member hmember
          single := fun entry hentry entry' hentry' member hmember hmember' => by
            rcases Lib.mem_setEntry hentry with rfl | hold <;>
              rcases Lib.mem_setEntry hentry' with rfl | hold'
            · rfl
            · exact absurd hmember' ((hfree member hmember).2 entry' hold')
            · exact absurd hmember ((hfree member hmember').2 entry hold)
            · exact hclean.single entry hold entry' hold' member hmember hmember'
          queueSorted := hclean.queueSorted
          rolechecksSorted := hclean.rolechecksSorted.setEntry
          offersSorted := hclean.offersSorted
          fresh := hclean.fresh }

end Join

section Answer

/-- A rolecheck that is found asks the player. -/
theorem mem_of_rolecheckOf {entry : Guid × PendingRolecheck} (h : m.rolecheckOf guid = some entry) :
    entry ∈ m.rolechecks ∧ guid ∈ entry.2.members := by
  refine ⟨List.mem_of_find?_eq_some h, ?_⟩
  simpa using List.find?_some h

/-- `HandleRolecheckResponse`. -/
theorem Inv.handleRolecheckResponse (h : m.Inv) (p : PlayerData) (fields : List String) :
    (m.handleRolecheckResponse w guid p fields).Inv := by
  unfold Manager.handleRolecheckResponse
  split
  · next roles _ =>
    simp only []
    split_ifs
    · exact h
    · cases hfound : m.rolecheckOf guid with
      | none => exact h
      | some entry =>
          obtain ⟨leader, rolecheck⟩ := entry
          obtain ⟨hentry, -⟩ := mem_of_rolecheckOf hfound
          simp only []
          split_ifs
          · exact h.enqueueRolecheck w hentry rfl
          · refine h.setRolechecks h.rolechecksSorted.setEntry fun entry' hentry' => ?_
            rcases Lib.mem_setEntry hentry' with rfl | hold
            · exact ⟨(leader, rolecheck), hentry, rfl, rfl⟩
            · exact ⟨entry', hold, rfl, rfl⟩
  · exact h

/-- An offer may be written with the same roles. -/
theorem Inv.setOffer (h : m.Inv) {offerId : ℕ} {offer offer' : Offer}
    (hoffer : Lib.entryOf offerId m.offers = some offer) (hroles : offer'.roles = offer.roles) :
    Inv { m with offers := Lib.setEntry offerId offer' m.offers } := by
  have hoffers : ∀ id, Lib.entryOf id (Lib.setEntry offerId offer' m.offers) =
      if id = offerId then some offer' else Lib.entryOf id m.offers := Lib.entryOf_setEntry
  refine h.reduce h.queueSorted h.rolechecksSorted h.offersSorted.setEntry (fun _ hnone => hnone) ?_
    ?_ (fun _ _ _ guid _ q hq => ⟨q, hq, rfl⟩) (fun entry hentry => ⟨entry, hentry, rfl, rfl⟩) rfl
  · intro id other hid
    rw [hoffers] at hid
    split_ifs at hid with heq
    · cases hid
      exact ⟨offer, heq ▸ hoffer, hroles⟩
    · exact ⟨other, hid, rfl⟩
  · intro guid id
    refine ⟨fun hp => ⟨hp, ?_⟩, fun hp => hp.1⟩
    obtain ⟨other, hother, -⟩ := h.offer_of hp
    show (Lib.entryOf id (Lib.setEntry offerId offer' m.offers)).isSome
    rw [hoffers]
    split_ifs
    · rfl
    · rw [hother]
      rfl

/-- `CompleteOffer`. -/
theorem Inv.completeOffer (h : m.Inv) (offerId : ℕ) : (m.completeOffer w offerId).1.Inv := by
  unfold Manager.completeOffer
  cases hoffer : Lib.entryOf offerId m.offers with
  | none => exact h
  | some offer =>
      simp only []
      generalize World.addPlayersToGroup (m.offerLeader offer) w none (offer.roles.map Prod.fst) =
        result
      obtain ⟨w', done⟩ := result
      cases done with
      | false => exact h.cancelOffer offerId false 0 false
      | true =>
          exact h.withdrawn hoffer (withdrawn_foldl (fun m entry hs => withdrawn_discharge hs entry)
            offer.roles h.queueSorted)

/-- `HandleOfferAccept`. -/
theorem Inv.handleOfferAccept (h : m.Inv) (guid : Guid) : (m.handleOfferAccept w guid).Inv := by
  unfold Manager.handleOfferAccept Manager.acceptOffer
  cases hp : Lib.entryOf guid m.playerOffers with
  | none => exact h
  | some offerId =>
      simp only []
      cases hoffer : Lib.entryOf offerId m.offers with
      | none => exact h
      | some offer =>
          have hset : Inv { m with offers := Lib.setEntry offerId (offer.accept guid) m.offers } :=
            h.setOffer hoffer rfl
          simp only []
          split_ifs
          · exact hset.completeOffer w offerId
          · exact hset

/-- Those who leave the queue with a player. -/
theorem eraseAll_spec (guids : List Guid) {queue : List (Guid × QueuedPlayer)}
    (hsorted : Lib.KeysSorted queue) :
    Lib.KeysSorted (guids.foldl (fun queue g => Lib.eraseEntry g queue) queue) ∧
      ∀ other, Lib.entryOf other (guids.foldl (fun queue g => Lib.eraseEntry g queue) queue) =
        if other ∈ guids then none else Lib.entryOf other queue := by
  induction guids generalizing queue with
  | nil => exact ⟨hsorted, fun _ => (if_neg List.not_mem_nil).symm⟩
  | cons guid rest ih =>
      obtain ⟨hlater, hall⟩ := ih (hsorted.eraseEntry guid)
      refine ⟨hlater, fun other => (hall other).trans ?_⟩
      rw [Lib.entryOf_eraseEntry]
      by_cases hmem : other ∈ rest
      · rw [if_pos hmem, if_pos (List.mem_cons_of_mem guid hmem)]
      · rw [if_neg hmem]
        simp [hmem]

/-- `HandleQueueLeave`. -/
theorem Inv.handleQueueLeave (h : m.Inv) (hcond : m.CallCondition (w, .queueLeave guid)) :
    (m.handleQueueLeave w guid).Inv := by
  unfold Manager.handleQueueLeave
  cases m.rolecheckOf guid with
  | some entry =>
      exact h.setRolechecks (h.rolechecksSorted.eraseEntry entry.1)
        fun entry' hin => ⟨entry', List.mem_of_mem_filter hin, rfl, rfl⟩
  | none =>
      simp only []
      cases hp : Lib.entryOf guid m.playerOffers with
      | some offerId => exact Inv.tryMakeOffers w (h.cancelOffer offerId true guid true)
      | none =>
          simp only []
          cases hq : Lib.entryOf guid m.queue with
          | none => exact h
          | some q =>
              obtain ⟨hsorted, hall⟩ := eraseAll_spec (m.queuedWith guid q) h.queueSorted
              refine h.leaveQueue hsorted fun other => ?_
              rw [hall]
              split_ifs with hmem
              · exact Or.inr ⟨rfl, hcond hp q hq other hmem⟩
              · exact Or.inl rfl

end Answer

section Update

/-- `CompleteOffer` leaves the rolechecks, and gives nobody an offer. -/
theorem completeOffer_frame (hsorted : Lib.KeysSorted m.queue) (offerId : ℕ) :
    (m.completeOffer w offerId).1.rolechecks = m.rolechecks ∧
      ∀ guid, Lib.entryOf guid m.playerOffers = none →
        Lib.entryOf guid (m.completeOffer w offerId).1.playerOffers = none := by
  unfold Manager.completeOffer
  cases Lib.entryOf offerId m.offers with
  | none => exact ⟨rfl, fun _ hnone => hnone⟩
  | some offer =>
      simp only []
      generalize World.addPlayersToGroup (m.offerLeader offer) w none (offer.roles.map Prod.fst) =
        result
      obtain ⟨w', done⟩ := result
      cases done with
      | false =>
          obtain ⟨hrole, -, hplayers⟩ := cancelOffer_frame hsorted offerId false 0 false
          exact ⟨hrole, hplayers⟩
      | true =>
          have hw := withdrawn_foldl (fun m entry hs => withdrawn_discharge hs entry) offer.roles
            hsorted
          exact ⟨hw.rolechecks, hw.playersNone⟩

/-- `HandleOfferAccept` leaves the rolechecks, and gives nobody an offer. -/
theorem handleOfferAccept_frame (hsorted : Lib.KeysSorted m.queue) (bot : Guid) :
    (m.handleOfferAccept w bot).rolechecks = m.rolechecks ∧
      ∀ guid, Lib.entryOf guid m.playerOffers = none →
        Lib.entryOf guid (m.handleOfferAccept w bot).playerOffers = none := by
  unfold Manager.handleOfferAccept Manager.acceptOffer
  cases Lib.entryOf bot m.playerOffers with
  | none => exact ⟨rfl, fun _ hnone => hnone⟩
  | some offerId =>
      simp only []
      cases Lib.entryOf offerId m.offers with
      | none => exact ⟨rfl, fun _ hnone => hnone⟩
      | some offer =>
          simp only []
          split_ifs
          · exact completeOffer_frame w (m := { m with
              offers := Lib.setEntry offerId (offer.accept bot) m.offers }) hsorted offerId
          · exact ⟨rfl, fun _ hnone => hnone⟩

/-- The actions for bots leave the rolechecks, and give nobody an offer. -/
theorem fill_frame (hsorted : Lib.KeysSorted m.queue) (action : FillAction) :
    (m.fill w action).rolechecks = m.rolechecks ∧
      ∀ guid, Lib.entryOf guid m.playerOffers = none →
        Lib.entryOf guid (m.fill w action).playerOffers = none := by
  cases action with
  | accept bot => exact handleOfferAccept_frame w hsorted bot
  | enqueue bot p leader instances roleMask =>
      simp only [Manager.fill]
      split_ifs
      · exact ⟨rfl, fun _ hnone => hnone⟩
      · exact ⟨rfl, fun _ hnone => hnone⟩
  | drop bot =>
      simp only [Manager.fill]
      split_ifs
      · exact ⟨rfl, fun _ hnone => hnone⟩
      · exact ⟨rfl, fun _ hnone => hnone⟩

/-- What is done for a bot that no rolecheck asks. -/
theorem Inv.fill (h : m.Inv) {action : FillAction}
    (hask : ∀ bot p leader instances roleMask, action = .enqueue bot p leader instances roleMask →
      ∀ entry ∈ m.rolechecks, bot ∉ entry.2.members) : (m.fill w action).Inv := by
  cases action with
  | accept bot => exact h.handleOfferAccept w bot
  | enqueue bot p leader instances roleMask =>
      show Inv (if Lib.entryOf bot m.queue = none then _ else m)
      split_ifs with hnone
      · refine h.enqueuePlayer p leader instances roleMask ?_
          (hask bot p leader instances roleMask rfl)
        by_contra hsome
        obtain ⟨offerId, hoffer⟩ := Option.ne_none_iff_exists'.mp hsome
        obtain ⟨offer, hid, hmem⟩ := h.offer_of hoffer
        obtain ⟨listed, hlisted, rfl⟩ := List.mem_map.mp hmem
        obtain ⟨q, hq, -⟩ := (h.staffed offerId offer hid).queued listed hlisted
        rw [hnone] at hq
        cases hq
      · exact h
  | drop bot =>
      show Inv (if Lib.entryOf bot m.playerOffers = none then _ else m)
      split_ifs with hfree
      · refine h.leaveQueue (h.queueSorted.eraseEntry bot) fun other => ?_
        rw [Lib.entryOf_eraseEntry]
        by_cases heq : other = bot
        · rw [if_pos heq, heq]
          exact Or.inr ⟨rfl, hfree⟩
        · rw [if_neg heq]
          exact Or.inl rfl
      · exact h

/-- All that is done for bots. -/
theorem Inv.fills (h : m.Inv) {fills : List FillAction}
    (hask : ∀ bot p leader instances roleMask, .enqueue bot p leader instances roleMask ∈ fills →
      ∀ entry ∈ m.rolechecks, bot ∉ entry.2.members) :
    (fills.foldl (Manager.fill w) m).Inv ∧
      ∀ guid, Lib.entryOf guid m.playerOffers = none →
        Lib.entryOf guid (fills.foldl (Manager.fill w) m).playerOffers = none := by
  induction fills generalizing m with
  | nil => exact ⟨h, fun _ hnone => hnone⟩
  | cons action rest ih =>
      obtain ⟨hrole, hplayers⟩ := fill_frame w h.queueSorted action
      have hfirst : (m.fill w action).Inv := h.fill w fun bot p leader instances roleMask heq =>
        hask bot p leader instances roleMask (heq ▸ List.mem_cons_self)
      obtain ⟨hinv, hrest⟩ := ih hfirst fun bot p leader instances roleMask hmem => by
        rw [hrole]
        exact hask bot p leader instances roleMask (List.mem_cons_of_mem _ hmem)
      exact ⟨hinv, fun guid hnone => hrest guid (hplayers guid hnone)⟩

/-- The queue is swept when all who have an offer are in the world. -/
theorem Inv.sweepQueue (h : m.Inv)
    (hworld : ∀ guid, Lib.entryOf guid m.playerOffers ≠ none → (w.getPlayer guid).isSome) :
    (m.sweepQueue w).Inv := by
  refine h.leaveQueue (List.Pairwise.sublist List.filter_sublist h.queueSorted) fun guid => ?_
  by_cases hin : (w.getPlayer guid).isSome = true
  · refine Or.inl ?_
    unfold Lib.entryOf
    rw [List.find?_filter]
    congr 2
    funext entry
    by_cases hkey : entry.1 = guid
    · simp [hkey, hin]
    · simp [hkey]
  · refine Or.inr ⟨Lib.entryOf_eq_none.mpr fun hmem => ?_, ?_⟩
    · obtain ⟨entry, hentry, rfl⟩ := List.mem_map.mp hmem
      exact hin (List.mem_filter.mp hentry).2
    · by_contra hsome
      exact hin (hworld guid hsome)

/-- Rolechecks run out. -/
theorem Inv.tickRolechecks (h : m.Inv) (diff : ℕ) : (m.tickRolechecks diff).Inv := by
  refine h.setRolechecks ?_ fun entry' hentry' => ?_
  · have hfilter : Lib.KeysSorted (m.rolechecks.filter fun entry => decide (diff < entry.2.timer)) :=
      List.Pairwise.sublist List.filter_sublist h.rolechecksSorted
    exact List.pairwise_map.mpr hfilter
  · obtain ⟨entry, hentry, rfl⟩ := List.mem_map.mp hentry'
    exact ⟨entry, List.mem_of_mem_filter hentry, rfl, rfl⟩

/-- When an offer is cancelled, or its timer runs, the others stay. -/
theorem offers_tickOffer (hsorted : Lib.KeysSorted m.queue) (diff : ℕ) {entry : ℕ × Offer}
    (hentry : Lib.entryOf entry.1 m.offers = some entry.2) (id : ℕ) (hne : id ≠ entry.1) :
    Lib.entryOf id (m.tickOffer diff entry).offers = Lib.entryOf id m.offers := by
  unfold Manager.tickOffer
  split_ifs
  · unfold Manager.cancelOffer
    simp only [hentry]
    rw [Lib.entryOf_eraseEntry, if_neg hne, (withdrawn_foldl
      (fun m entry hs => withdrawn_withdraw hs _ entry) entry.2.roles hsorted).offers]
  · exact (Lib.entryOf_setEntry id).trans (if_neg hne)

/-- An offer is cancelled, or its timer runs. -/
theorem Inv.tickOffer (h : m.Inv) (diff : ℕ) {entry : ℕ × Offer}
    (hentry : Lib.entryOf entry.1 m.offers = some entry.2) : (m.tickOffer diff entry).Inv := by
  unfold Manager.tickOffer
  split_ifs
  · exact h.cancelOffer entry.1 true 0 false
  · exact h.setOffer hentry rfl

/-- Offers run out. -/
theorem Inv.tickOffers (diff : ℕ) (entries : List (ℕ × Offer)) (h : m.Inv)
    (hsorted : Lib.KeysSorted entries)
    (hentries : ∀ entry ∈ entries, Lib.entryOf entry.1 m.offers = some entry.2) :
    (entries.foldl (Manager.tickOffer diff) m).Inv := by
  induction entries generalizing m with
  | nil => exact h
  | cons entry rest ih =>
      obtain ⟨hfirst, hrest⟩ := List.pairwise_cons.mp hsorted
      have hentry := hentries entry List.mem_cons_self
      refine ih (h.tickOffer diff hentry) hrest fun later hlater => ?_
      rw [offers_tickOffer h.queueSorted diff hentry later.1 (Nat.ne_of_gt (hfirst later hlater))]
      exact hentries later (List.mem_cons_of_mem _ hlater)

/-- `Update`. -/
theorem Inv.update (h : m.Inv) (diff : ℕ) (fills : List FillAction)
    (hcond : m.CallCondition (w, .update diff fills)) : (m.update w diff fills).Inv := by
  obtain ⟨hworld, hask⟩ := hcond
  obtain ⟨hfilled, hfree⟩ := h.fills w hask
  have hswept := hfilled.sweepQueue w fun guid hsome => hworld guid fun hnone =>
    hsome (hfree guid hnone)
  have hticked := hswept.tickRolechecks diff
  refine Inv.tryMakeOffers w (Inv.tickOffers diff _ hticked hticked.offersSorted fun entry hentry => ?_)
  exact hticked.offersSorted.entryOf_eq hentry

end Update

/-- A new manager. -/
theorem start_inv : start.Inv where
  offered _ _ := by
    refine iff_of_false (fun hp => by cases hp) ?_
    rintro ⟨_, hoffer, -⟩
    cases hoffer
  staffed _ _ hoffer := by cases hoffer
  apart _ hentry := (List.not_mem_nil hentry).elim
  single _ hentry := (List.not_mem_nil hentry).elim
  queueSorted := List.Pairwise.nil
  rolechecksSorted := List.Pairwise.nil
  offersSorted := List.Pairwise.nil
  fresh _ _ := rfl

/-- Every call that meets its condition keeps the relations between the maps. -/
theorem Inv.step (h : m.Inv) {input : World × Call} (hcond : m.CallCondition input) :
    (m.step input).Inv := by
  obtain ⟨w, call⟩ := input
  cases call with
  | queueJoin guid p fields => exact h.handleQueueJoin w p fields hcond
  | queueLeave guid => exact h.handleQueueLeave w hcond
  | rolecheckResponse guid p fields => exact h.handleRolecheckResponse w p fields
  | offerAccept guid => exact h.handleOfferAccept w guid
  | logout guid => exact h.cleanupPlayer guid
  | update diff fills => exact h.update w diff fills hcond

/-- In every run whose calls meet their conditions the maps are coherent. -/
theorem run_matched {calls : List (World × Call)}
    (hcond : Lib.Along CallCondition step start calls) :
    (Lib.run step start calls).Coherent :=
  (Lib.run_invariant Inv (fun _ _ hok hinv => hinv.step hok) start_inv
    hcond).toCoherent

/-- A player without a group brings nobody. -/
theorem callCondition_solo (hgroups : w.groups = []) (p : PlayerData) (fields : List String) :
    m.CallCondition (w, .queueJoin guid p fields) := by
  intro _ member hmember hne
  have hsolo : w.getPartyMembers guid = [guid] := by
    unfold World.getPartyMembers World.groupOf
    rw [hgroups]
    rfl
  rw [hsolo] at hmember
  exact absurd (List.mem_singleton.mp hmember) hne

section Druids

/-- Druids of one side, in some groups. -/
def druids (groups : List Group) : World :=
  ⟨fun _ => some ⟨.druid, 0, false, true⟩, groups, 9, false, fun _ _ => true⟩

/-- A druid asks for an instance, and answers. -/
def joins (guid : Guid) (roles : String) : List (World × Call) :=
  [(druids [], .queueJoin guid ⟨.druid, 0, false, true⟩ ["C2S_QUEUE_JOIN", "Ragefire Chasm", roles]),
    (druids [], .rolecheckResponse guid ⟨.druid, 0, false, true⟩ ["C2S_ROLECHECK_RESPONSE", roles])]

/-- Five druids join, and one of them logs out when the offer has been made. -/
def fiveDruids : List (World × Call) :=
  joins 1 "t" ++ joins 2 "h" ++ joins 3 "d" ++ joins 4 "d" ++ joins 5 "td" ++
    [(druids [], .offerAccept 1), (druids [], .update 100 []), (druids [], .logout 2)]

theorem run_matched_fiveDruids :
    (Lib.run step start fiveDruids).Coherent ∧
      (Lib.run step start (fiveDruids.take 12)).offers.length = 1 := by
  refine ⟨run_matched ?_, by decide +kernel⟩
  refine ⟨callCondition_solo _ rfl _ _, trivial, callCondition_solo _ rfl _ _, trivial,
    callCondition_solo _ rfl _ _, trivial, callCondition_solo _ rfl _ _, trivial,
    callCondition_solo _ rfl _ _, trivial, trivial, ⟨fun _ _ => rfl, ?_⟩, trivial, trivial⟩
  exact fun _ _ _ _ _ hmem => (List.not_mem_nil hmem).elim

/-- A druid who is queued alone comes with the party of another. -/
def partyCalls : List (World × Call) :=
  joins 1 "t" ++ [(druids [⟨1, 2, [2, 1], false⟩],
    .queueJoin 2 ⟨.druid, 0, false, true⟩ ["C2S_QUEUE_JOIN", "Ragefire Chasm", "h"])]

/-- Five have an offer, and one of them is between two maps when the queue is swept. -/
def sweptCalls : List (World × Call) :=
  joins 1 "t" ++ joins 2 "h" ++ joins 3 "d" ++ joins 4 "d" ++ joins 5 "d" ++
    [({ druids [] with players := fun guid => some ⟨.druid, 0, false, guid != 3⟩ }, .update 100 [])]

/-- The rolecheck asks a player who is in the queue, and an offer keeps a player who is not. -/
theorem run_mismatched :
    ¬(Lib.run step start partyCalls).Coherent ∧ ¬(Lib.run step start sweptCalls).Coherent := by
  constructor
  · intro h
    have hasked : ∃ entry ∈ (Lib.run step start partyCalls).rolechecks, 1 ∈ entry.2.members := by
      decide +kernel
    obtain ⟨entry, hentry, hmember⟩ := hasked
    have hnone := h.apart entry hentry 1 hmember
    revert hnone
    decide +kernel
  · intro h
    have hoffered : Lib.entryOf 3 (Lib.run step start sweptCalls).playerOffers = some 1 := by
      decide +kernel
    obtain ⟨offer, hoffer, hmem⟩ := (h.offered 3 1).mp hoffered
    obtain ⟨entry, hentry, heq⟩ := List.mem_map.mp hmem
    obtain ⟨q, hq, -⟩ := (h.staffed 1 offer hoffer).queued entry hentry
    rw [heq] at hq
    revert hq
    have hnone : Lib.entryOf 3 (Lib.run step start sweptCalls).queue = none := by decide +kernel
    rw [hnone]
    exact fun hq => by cases hq

end Druids

end TwowCore.LFT.Manager

import TwowCore.LFT.Manager

/-!
# The maps of the team finder

A player has an offer exactly when there is one that lists him; an offer has one tank, one healer and
three damage dealers, each queued for his role; and a player in a rolecheck is in no other and not
queued. Calls keep this as long as no party brings a member who is queued or asked already, no
one leaves a queue that others of his party have left for an offer, and no one with an offer is out of
the world when the queue is swept.
-/

namespace TwowCore.LFT

/-- One tank, one healer and three damage dealers, each of them queued for his role. -/
structure Staffed (queue : List (Guid × QueuedPlayer)) (roles : List (Guid × Role)) : Prop where
  distinct : (roles.map Prod.fst).Nodup
  tank : (roles.map Prod.snd).count .tank = 1
  healer : (roles.map Prod.snd).count .healer = 1
  damage : (roles.map Prod.snd).count .damage = 3
  queued : ∀ entry ∈ roles, ∃ q, Lib.entryOf entry.1 queue = some q ∧ q.roleMask.has entry.2

namespace Manager

/-- The relations between the maps. -/
structure Coherent (m : Manager) : Prop where
  offered : ∀ guid offerId, Lib.entryOf guid m.playerOffers = some offerId ↔
    ∃ offer, Lib.entryOf offerId m.offers = some offer ∧ guid ∈ offer.roles.map Prod.fst
  staffed : ∀ offerId offer, Lib.entryOf offerId m.offers = some offer → Staffed m.queue offer.roles
  apart : ∀ entry ∈ m.rolechecks, ∀ guid ∈ entry.2.members, Lib.entryOf guid m.queue = none
  single : ∀ entry ∈ m.rolechecks, ∀ entry' ∈ m.rolechecks, ∀ guid ∈ entry.2.members,
    guid ∈ entry'.2.members → entry.1 = entry'.1

/-- The maps are ordered, and the next offer has a new id. -/
structure Inv (m : Manager) : Prop extends Coherent m where
  queueSorted : Lib.KeysSorted m.queue
  rolechecksSorted : Lib.KeysSorted m.rolechecks
  offersSorted : Lib.KeysSorted m.offers
  fresh : ∀ offerId, m.nextOfferId ≤ offerId → Lib.entryOf offerId m.offers = none

/-- What a call expects of the maps and of the world. -/
def CallCondition (m : Manager) (input : World × Call) : Prop :=
  match input.2 with
  | .queueJoin guid p fields => joinRequest input.1 guid p fields ≠ none →
      ∀ member ∈ input.1.getPartyMembers guid, member ≠ guid →
        Lib.entryOf member m.queue = none ∧
          ∀ entry ∈ m.rolechecks, guid ∉ entry.2.members → member ∉ entry.2.members
  | .queueLeave guid => Lib.entryOf guid m.playerOffers = none →
      ∀ q, Lib.entryOf guid m.queue = some q →
        ∀ other ∈ m.queuedWith guid q, Lib.entryOf other m.playerOffers = none
  | .rolecheckResponse _ _ _ | .offerAccept _ | .logout _ => True
  | .update _ fills =>
      (∀ guid, Lib.entryOf guid m.playerOffers ≠ none → (input.1.getPlayer guid).isSome) ∧
        ∀ bot p leader instances roleMask, .enqueue bot p leader instances roleMask ∈ fills →
          ∀ entry ∈ m.rolechecks, bot ∉ entry.2.members

variable {m m' : Manager} {w : World} {guid : Guid}

/-- Offers go, players of none may leave the queue, and rolechecks go. -/
theorem Inv.reduce (h : m.Inv) (hqueueSorted : Lib.KeysSorted m'.queue)
    (hrolechecksSorted : Lib.KeysSorted m'.rolechecks) (hoffersSorted : Lib.KeysSorted m'.offers)
    (hqueue : ∀ guid, Lib.entryOf guid m.queue = none → Lib.entryOf guid m'.queue = none)
    (hoffers : ∀ offerId offer', Lib.entryOf offerId m'.offers = some offer' →
      ∃ offer, Lib.entryOf offerId m.offers = some offer ∧ offer'.roles = offer.roles)
    (hplayers : ∀ guid offerId, Lib.entryOf guid m'.playerOffers = some offerId ↔
      Lib.entryOf guid m.playerOffers = some offerId ∧ (Lib.entryOf offerId m'.offers).isSome)
    (hkept : ∀ offerId offer', Lib.entryOf offerId m'.offers = some offer' →
      ∀ guid ∈ offer'.roles.map Prod.fst, ∀ q, Lib.entryOf guid m.queue = some q →
        ∃ q', Lib.entryOf guid m'.queue = some q' ∧ q'.roleMask = q.roleMask)
    (hrolechecks : ∀ entry' ∈ m'.rolechecks, ∃ entry ∈ m.rolechecks, entry.1 = entry'.1 ∧
      entry.2.members = entry'.2.members)
    (hnext : m'.nextOfferId = m.nextOfferId) : m'.Inv where
  offered guid offerId := by
    rw [hplayers, h.offered]
    constructor
    · rintro ⟨⟨offer, hoffer, hmem⟩, hsome⟩
      obtain ⟨offer', hoffer'⟩ := Option.isSome_iff_exists.mp hsome
      obtain ⟨old, hold, hroles⟩ := hoffers offerId offer' hoffer'
      rw [hoffer] at hold
      cases hold
      exact ⟨offer', hoffer', hroles ▸ hmem⟩
    · rintro ⟨offer', hoffer', hmem⟩
      obtain ⟨offer, hoffer, hroles⟩ := hoffers offerId offer' hoffer'
      exact ⟨⟨offer, hoffer, hroles ▸ hmem⟩, Option.isSome_iff_exists.mpr ⟨offer', hoffer'⟩⟩
  staffed offerId offer' hoffer' := by
    obtain ⟨offer, hoffer, hroles⟩ := hoffers offerId offer' hoffer'
    have hstaffed := h.staffed offerId offer hoffer
    rw [← hroles] at hstaffed
    refine { hstaffed with queued := fun entry hentry => ?_ }
    obtain ⟨q, hq, hhas⟩ := hstaffed.queued entry hentry
    obtain ⟨q', hq', hmask⟩ := hkept offerId offer' hoffer' entry.1
      (List.mem_map_of_mem hentry) q hq
    exact ⟨q', hq', by rw [hmask]; exact hhas⟩
  apart entry' hentry' guid hguid := by
    obtain ⟨entry, hentry, -, hmembers⟩ := hrolechecks entry' hentry'
    exact hqueue guid (h.apart entry hentry guid (hmembers ▸ hguid))
  single first' hfirst' second' hsecond' guid hguid hguid' := by
    obtain ⟨first, hfirst, hkey, hmembers⟩ := hrolechecks first' hfirst'
    obtain ⟨second, hsecond, hkey', hmembers'⟩ := hrolechecks second' hsecond'
    rw [← hkey, ← hkey']
    exact h.single first hfirst second hsecond guid (hmembers ▸ hguid) (hmembers' ▸ hguid')
  queueSorted := hqueueSorted
  rolechecksSorted := hrolechecksSorted
  offersSorted := hoffersSorted
  fresh offerId hle := by
    have hnone := h.fresh offerId (hnext ▸ hle)
    by_contra hsome
    obtain ⟨offer', hoffer'⟩ := Option.ne_none_iff_exists'.mp hsome
    obtain ⟨offer, hoffer, -⟩ := hoffers offerId offer' hoffer'
    rw [hnone] at hoffer
    cases hoffer

/-- An offer that a player has lists him. -/
theorem Inv.offer_of (h : m.Inv) {offerId : ℕ} (hp : Lib.entryOf guid m.playerOffers = some offerId) :
    ∃ offer, Lib.entryOf offerId m.offers = some offer ∧ guid ∈ offer.roles.map Prod.fst :=
  (h.offered guid offerId).mp hp

/-- The players of an offer have no other one. -/
theorem Inv.offer_unique (h : m.Inv) {id id' : ℕ} {offer offer' : Offer}
    (hoffer : Lib.entryOf id m.offers = some offer) (hoffer' : Lib.entryOf id' m.offers = some offer')
    (hguid : guid ∈ offer.roles.map Prod.fst) (hguid' : guid ∈ offer'.roles.map Prod.fst) :
    id = id' := by
  have hfirst := (h.offered guid id).mpr ⟨offer, hoffer, hguid⟩
  have hsecond := (h.offered guid id').mpr ⟨offer', hoffer', hguid'⟩
  rw [hfirst] at hsecond
  exact Option.some.inj hsecond

section Withdraw

/-- Nothing is done but to the players of some roles, who have no offer any more. -/
structure Withdrawn (roles : List (Guid × Role)) (m m' : Manager) : Prop where
  queueSorted : Lib.KeysSorted m'.queue
  queue : ∀ guid, guid ∉ roles.map Prod.fst → Lib.entryOf guid m'.queue = Lib.entryOf guid m.queue
  queueNone : ∀ guid, Lib.entryOf guid m.queue = none → Lib.entryOf guid m'.queue = none
  players : ∀ guid, Lib.entryOf guid m'.playerOffers =
    if guid ∈ roles.map Prod.fst then none else Lib.entryOf guid m.playerOffers
  offers : m'.offers = m.offers
  rolechecks : m'.rolechecks = m.rolechecks
  nextOfferId : m'.nextOfferId = m.nextOfferId

theorem Withdrawn.refl (h : Lib.KeysSorted m.queue) : Withdrawn [] m m :=
  ⟨h, fun _ _ => rfl, fun _ hnone => hnone, fun _ => (if_neg List.not_mem_nil).symm, rfl, rfl, rfl⟩

/-- One player after the other. -/
theorem Withdrawn.cons {entry : Guid × Role} {roles : List (Guid × Role)} {m₁ : Manager}
    (h : Withdrawn [entry] m m₁) (h' : Withdrawn roles m₁ m') : Withdrawn (entry :: roles) m m' where
  queueSorted := h'.queueSorted
  queue guid hnot := by
    rw [List.map_cons, List.mem_cons, not_or] at hnot
    rw [h'.queue guid hnot.2, h.queue guid (by simpa using hnot.1)]
  queueNone guid hnone := h'.queueNone guid (h.queueNone guid hnone)
  players guid := by
    rw [h'.players, h.players]
    by_cases hlater : guid ∈ roles.map Prod.fst
    · have hmem : guid ∈ (entry :: roles).map Prod.fst := List.mem_cons_of_mem entry.1 hlater
      rw [if_pos hlater, if_pos hmem]
    · rw [if_neg hlater]
      simp [hlater]
  offers := h'.offers.trans h.offers
  rolechecks := h'.rolechecks.trans h.rolechecks
  nextOfferId := h'.nextOfferId.trans h.nextOfferId

/-- A player withdraws, and may stay in the queue. -/
theorem withdrawn_withdraw (hsorted : Lib.KeysSorted m.queue) (keep : Guid → Bool)
    (entry : Guid × Role) : Withdrawn [entry] m (withdraw keep m entry) := by
  have hplayers : ∀ guid, Lib.entryOf guid (Lib.eraseEntry entry.1 m.playerOffers) =
      if guid ∈ [entry].map Prod.fst then none else Lib.entryOf guid m.playerOffers := by
    intro guid
    rw [Lib.entryOf_eraseEntry]
    simp
  unfold withdraw
  cases hq : Lib.entryOf entry.1 m.queue with
  | none =>
      refine ⟨hsorted.eraseEntry _, fun guid hnot => ?_, fun guid hnone => ?_, hplayers, rfl, rfl, rfl⟩
      · exact (Lib.entryOf_eraseEntry guid).trans (if_neg (by simpa using hnot))
      · exact (Lib.entryOf_eraseEntry guid).trans (by rw [hnone, ite_self])
  | some q =>
      by_cases hkeep : keep entry.1 = true
      · simp only [hkeep, if_true]
        refine ⟨hsorted.setEntry, fun guid hnot => ?_, fun guid hnone => ?_, hplayers, rfl, rfl, rfl⟩
        · exact (Lib.entryOf_setEntry guid).trans (if_neg (by simpa using hnot))
        · refine (Lib.entryOf_setEntry guid).trans ((if_neg ?_).trans hnone)
          rintro rfl
          rw [hq] at hnone
          cases hnone
      · simp only [hkeep]
        refine ⟨hsorted.eraseEntry _, fun guid hnot => ?_, fun guid hnone => ?_, hplayers, rfl, rfl,
          rfl⟩
        · exact (Lib.entryOf_eraseEntry guid).trans (if_neg (by simpa using hnot))
        · exact (Lib.entryOf_eraseEntry guid).trans (by rw [hnone, ite_self])

/-- A player is put into a group. -/
theorem withdrawn_discharge (hsorted : Lib.KeysSorted m.queue) (entry : Guid × Role) :
    Withdrawn [entry] m (discharge m entry) := by
  refine ⟨hsorted.eraseEntry _, fun guid hnot => ?_, fun guid hnone => ?_, fun guid => ?_, rfl, rfl,
    rfl⟩
  · exact (Lib.entryOf_eraseEntry guid).trans (if_neg (by simpa using hnot))
  · exact (Lib.entryOf_eraseEntry guid).trans (by rw [hnone, ite_self])
  · refine (Lib.entryOf_eraseEntry guid).trans ?_
    simp

/-- All players of some roles, one after the other. -/
theorem withdrawn_foldl {f : Manager → Guid × Role → Manager}
    (hf : ∀ m entry, Lib.KeysSorted m.queue → Withdrawn [entry] m (f m entry))
    (roles : List (Guid × Role)) (hsorted : Lib.KeysSorted m.queue) :
    Withdrawn roles m (roles.foldl f m) := by
  induction roles generalizing m with
  | nil => exact Withdrawn.refl hsorted
  | cons entry rest ih =>
      have hfirst := hf m entry hsorted
      exact hfirst.cons (ih hfirst.queueSorted)

/-- When its players have withdrawn, an offer may be erased. -/
theorem Inv.withdrawn (h : m.Inv) {offerId : ℕ} {offer : Offer}
    (hoffer : Lib.entryOf offerId m.offers = some offer) (hw : Withdrawn offer.roles m m') :
    Inv { m' with offers := Lib.eraseEntry offerId m'.offers } := by
  have hothers : ∀ {id offer'}, Lib.entryOf id (Lib.eraseEntry offerId m'.offers) = some offer' →
      id ≠ offerId ∧ Lib.entryOf id m.offers = some offer' := by
    intro id offer' hid
    rw [Lib.entryOf_eraseEntry, hw.offers] at hid
    split_ifs at hid with heq
    exact ⟨heq, hid⟩
  refine h.reduce hw.queueSorted (hw.rolechecks ▸ h.rolechecksSorted) ?_ hw.queueNone ?_ ?_ ?_ ?_
    hw.nextOfferId
  · exact Lib.KeysSorted.eraseEntry (hw.offers ▸ h.offersSorted) offerId
  · exact fun id offer' hid => ⟨offer', (hothers hid).2, rfl⟩
  · intro guid id
    show Lib.entryOf guid m'.playerOffers = some id ↔
      _ ∧ (Lib.entryOf id (Lib.eraseEntry offerId m'.offers)).isSome
    rw [hw.players, Lib.entryOf_eraseEntry, hw.offers]
    by_cases hmem : guid ∈ offer.roles.map Prod.fst
    · rw [if_pos hmem]
      refine iff_of_false (fun hnone => by cases hnone) ?_
      rintro ⟨hp, hsome⟩
      have hown := (h.offered guid offerId).mpr ⟨offer, hoffer, hmem⟩
      rw [hp] at hown
      rw [if_pos (Option.some.inj hown)] at hsome
      cases hsome
    · rw [if_neg hmem]
      refine ⟨fun hp => ⟨hp, ?_⟩, fun hp => hp.1⟩
      obtain ⟨offer', hoffer', hmem'⟩ := h.offer_of hp
      rw [if_neg, hoffer']
      · rfl
      · rintro rfl
        rw [hoffer] at hoffer'
        cases hoffer'
        exact hmem hmem'
  · intro id offer' hid guid hguid q hq
    obtain ⟨hne, hid⟩ := hothers hid
    refine ⟨q, ?_, rfl⟩
    show Lib.entryOf guid m'.queue = some q
    rw [hw.queue guid fun hmem => hne (h.offer_unique hid hoffer hguid hmem)]
    exact hq
  · exact fun entry hentry => ⟨entry, hw.rolechecks ▸ hentry, rfl, rfl⟩

/-- `CancelOffer`. -/
theorem Inv.cancelOffer (h : m.Inv) (offerId : ℕ) (requeueAccepted : Bool) (removeGuid : Guid)
    (requeueOthers : Bool) :
    (m.cancelOffer offerId requeueAccepted removeGuid requeueOthers).Inv := by
  unfold Manager.cancelOffer
  cases hoffer : Lib.entryOf offerId m.offers with
  | none => exact h
  | some offer =>
      exact h.withdrawn hoffer (withdrawn_foldl (fun m entry hs => withdrawn_withdraw hs _ entry)
        offer.roles h.queueSorted)

theorem Withdrawn.playersNone {roles : List (Guid × Role)} (h : Withdrawn roles m m') :
    ∀ guid, Lib.entryOf guid m.playerOffers = none → Lib.entryOf guid m'.playerOffers = none := by
  intro guid hnone
  rw [h.players, hnone, ite_self]

/-- `CancelOffer` leaves the rolechecks, puts nobody into the queue, and gives nobody an offer. -/
theorem cancelOffer_frame (hsorted : Lib.KeysSorted m.queue) (offerId : ℕ) (requeueAccepted : Bool)
    (removeGuid : Guid) (requeueOthers : Bool) :
    (m.cancelOffer offerId requeueAccepted removeGuid requeueOthers).rolechecks = m.rolechecks ∧
      (∀ other, Lib.entryOf other m.queue = none → Lib.entryOf other
        (m.cancelOffer offerId requeueAccepted removeGuid requeueOthers).queue = none) ∧
      ∀ other, Lib.entryOf other m.playerOffers = none → Lib.entryOf other
        (m.cancelOffer offerId requeueAccepted removeGuid requeueOthers).playerOffers = none := by
  unfold Manager.cancelOffer
  cases Lib.entryOf offerId m.offers with
  | none => exact ⟨rfl, fun _ hnone => hnone, fun _ hnone => hnone⟩
  | some offer =>
      have hw := withdrawn_foldl (f := withdraw fun guid => requeueAccepted && guid != removeGuid &&
        (requeueOthers || decide (guid ∈ offer.accepted)))
        (fun m entry hs => withdrawn_withdraw hs _ entry) offer.roles hsorted
      exact ⟨hw.rolechecks, hw.queueNone, hw.playersNone⟩

/-- A player who is not queued any more may withdraw with the others of his offer. -/
theorem Withdrawn.of_erase {roles : List (Guid × Role)} (hmem : guid ∈ roles.map Prod.fst)
    (h : Withdrawn roles { m with queue := Lib.eraseEntry guid m.queue } m') :
    Withdrawn roles m m' where
  queueSorted := h.queueSorted
  queue other hnot := by
    rw [h.queue other hnot]
    refine (Lib.entryOf_eraseEntry other).trans (if_neg ?_)
    rintro rfl
    exact hnot hmem
  queueNone other hnone := by
    refine h.queueNone other ((Lib.entryOf_eraseEntry other).trans ?_)
    rw [hnone, ite_self]
  players := h.players
  offers := h.offers
  rolechecks := h.rolechecks
  nextOfferId := h.nextOfferId

end Withdraw

section Cleanup

/-- Players who have no offer may leave the queue. -/
theorem Inv.leaveQueue (h : m.Inv) {queue : List (Guid × QueuedPlayer)}
    (hsorted : Lib.KeysSorted queue)
    (hqueue : ∀ guid, Lib.entryOf guid queue = Lib.entryOf guid m.queue ∨
      Lib.entryOf guid queue = none ∧ Lib.entryOf guid m.playerOffers = none) :
    Inv { m with queue := queue } := by
  refine h.reduce hsorted h.rolechecksSorted h.offersSorted ?_
    (fun _ offer' hoffer' => ⟨offer', hoffer', rfl⟩) ?_ ?_
    (fun entry hentry => ⟨entry, hentry, rfl, rfl⟩) rfl
  · intro guid hnone
    rcases hqueue guid with hsame | ⟨hleft, -⟩
    · exact hsame.trans hnone
    · exact hleft
  · intro guid offerId
    refine ⟨fun hp => ⟨hp, ?_⟩, fun hp => hp.1⟩
    obtain ⟨offer, hoffer, -⟩ := h.offer_of hp
    exact Option.isSome_iff_exists.mpr ⟨offer, hoffer⟩
  · intro offerId offer' hoffer' guid hguid q hq
    have hp := (h.offered guid offerId).mpr ⟨offer', hoffer', hguid⟩
    rcases hqueue guid with hsame | ⟨-, hno⟩
    · exact ⟨q, hsame.trans hq, rfl⟩
    · rw [hno] at hp
      cases hp

/-- Rolechecks may go, and their timers may run. -/
theorem Inv.setRolechecks (h : m.Inv) {rolechecks : List (Guid × PendingRolecheck)}
    (hsorted : Lib.KeysSorted rolechecks)
    (hrolechecks : ∀ entry' ∈ rolechecks, ∃ entry ∈ m.rolechecks, entry.1 = entry'.1 ∧
      entry.2.members = entry'.2.members) : Inv { m with rolechecks := rolechecks } := by
  refine h.reduce h.queueSorted hsorted h.offersSorted (fun _ hnone => hnone)
    (fun _ offer' hoffer' => ⟨offer', hoffer', rfl⟩) ?_
    (fun _ _ _ guid _ q hq => ⟨q, hq, rfl⟩) hrolechecks rfl
  intro guid offerId
  refine ⟨fun hp => ⟨hp, ?_⟩, fun hp => hp.1⟩
  obtain ⟨offer, hoffer, -⟩ := h.offer_of hp
  exact Option.isSome_iff_exists.mpr ⟨offer, hoffer⟩

/-- `CleanupPlayer`. -/
theorem Inv.cleanupPlayer (h : m.Inv) (guid : Guid) : (m.cleanupPlayer guid).Inv := by
  have hmiddle : Inv ((Lib.entryOf guid m.playerOffers).elim
      { m with queue := Lib.eraseEntry guid m.queue } fun offerId =>
        { m with queue := Lib.eraseEntry guid m.queue }.cancelOffer offerId true guid true) := by
    cases hp : Lib.entryOf guid m.playerOffers with
    | none =>
        refine h.leaveQueue (h.queueSorted.eraseEntry guid) fun other => ?_
        rw [Lib.entryOf_eraseEntry]
        by_cases heq : other = guid
        · rw [if_pos heq, heq]
          exact Or.inr ⟨rfl, hp⟩
        · rw [if_neg heq]
          exact Or.inl rfl
    | some offerId =>
        obtain ⟨offer, hoffer, hmem⟩ := h.offer_of hp
        simp only [Option.elim, Manager.cancelOffer, hoffer]
        exact h.withdrawn hoffer (Withdrawn.of_erase hmem (withdrawn_foldl
          (fun m entry hs => withdrawn_withdraw hs _ entry) offer.roles
          (h.queueSorted.eraseEntry guid)))
  unfold Manager.cleanupPlayer
  exact hmiddle.setRolechecks (List.Pairwise.sublist List.filter_sublist hmiddle.rolechecksSorted)
    fun entry hentry => ⟨entry, List.mem_of_mem_filter hentry, rfl, rfl⟩

end Cleanup

section Offers

variable (w) {seedGuid : Guid} {seed : QueuedPlayer} {instanceName : String} {order : List Guid}

/-- Those who have been selected: counted, queued for their roles, and without an offer. -/
structure Selected (m : Manager) (s : Staff) : Prop where
  sorted : Lib.KeysSorted s.roles
  tanks : (s.roles.map Prod.snd).count .tank = s.tanks
  healers : (s.roles.map Prod.snd).count .healer = s.healers
  damage : (s.roles.map Prod.snd).count .damage = s.damage
  each : ∀ entry ∈ s.roles, Lib.entryOf entry.1 m.playerOffers = none ∧
    ∃ q, Lib.entryOf entry.1 m.queue = some q ∧ q.roleMask.has entry.2

theorem selected_empty : Selected m Staff.empty :=
  ⟨List.Pairwise.nil, rfl, rfl, rfl, fun _ hentry => (List.not_mem_nil hentry).elim⟩

/-- A role that is picked is one of the mask. -/
theorem has_of_pickRole {mask : RoleMask} {tanks healers damage : ℕ} {role : Role}
    (h : pickRole mask tanks healers damage = some role) : mask.has role := by
  unfold pickRole at h
  split_ifs at h with htank hhealer hdamage
  · cases h
    exact htank.1
  · cases h
    exact hhealer.1
  · cases h
    exact hdamage.1

/-- The roles of a staff after one more. -/
theorem Staff.add_roles (s : Staff) (guid : Guid) (role : Role) :
    (s.add guid role).roles = Lib.setEntry guid role s.roles := by
  cases role <;> rfl

/-- One more is selected. -/
theorem Selected.add {s : Staff} (h : Selected m s) {role : Role} {q : QueuedPlayer}
    (hnew : guid ∉ s.roles.map Prod.fst) (hoffer : Lib.entryOf guid m.playerOffers = none)
    (hq : Lib.entryOf guid m.queue = some q) (hhas : q.roleMask.has role) :
    Selected m (s.add guid role) := by
  have hperm : ((s.add guid role).roles.map Prod.snd).Perm (role :: s.roles.map Prod.snd) := by
    rw [Staff.add_roles]
    exact (Lib.perm_setEntry hnew).map Prod.snd
  have hcount : ∀ r, ((s.add guid role).roles.map Prod.snd).count r =
      (s.roles.map Prod.snd).count r + if role = r then 1 else 0 := by
    intro r
    rw [hperm.count_eq, List.count_cons]
    simp
  refine ⟨?_, ?_, ?_, ?_, fun entry hentry => ?_⟩
  · rw [Staff.add_roles]
    exact h.sorted.setEntry
  · rw [hcount, h.tanks]
    cases role <;> rfl
  · rw [hcount, h.healers]
    cases role <;> rfl
  · rw [hcount, h.damage]
    cases role <;> rfl
  · rw [Staff.add_roles] at hentry
    rcases Lib.mem_setEntry hentry with rfl | hold
    · exact ⟨hoffer, q, hq, hhas⟩
    · exact h.each entry hold

/-- A block that fits is selected as a whole. -/
theorem Selected.fitBlock {selected : List Guid} {staff staff' : Staff} {guids : List Guid}
    (h : Selected m staff) (hnodup : guids.Nodup)
    (hold : ∀ guid ∈ guids, guid ∈ staff.roles.map Prod.fst → guid ∈ selected)
    (hfit : m.fitBlock w seedGuid seed instanceName selected staff guids = some staff') :
    Selected m staff' := by
  induction guids generalizing staff with
  | nil =>
      cases hfit
      exact h
  | cons guid rest ih =>
      obtain ⟨hnot, hrest⟩ := List.nodup_cons.mp hnodup
      unfold Manager.fitBlock at hfit
      cases hq : Lib.entryOf guid m.queue with
      | none =>
          rw [hq] at hfit
          cases hfit
      | some q =>
          simp only [hq] at hfit
          split_ifs at hfit with hfits
          cases hrole : pickRole q.roleMask staff.tanks staff.healers staff.damage with
          | none =>
              simp only [hrole] at hfit
              cases hfit
          | some role =>
              simp only [hrole] at hfit
              have hnew : guid ∉ staff.roles.map Prod.fst := fun hmem =>
                hfits.1 (hold guid List.mem_cons_self hmem)
              obtain ⟨hpair, -⟩ := Bool.and_eq_true _ _ ▸ hfits.2
              obtain ⟨hoffer, -⟩ := Bool.and_eq_true _ _ ▸ hpair
              refine ih (h.add hnew (of_decide_eq_true hoffer) hq (has_of_pickRole hrole)) hrest ?_
                hfit
              intro other hother hmem
              rw [Staff.add_roles] at hmem
              obtain ⟨entry, hentry, rfl⟩ := List.mem_map.mp hmem
              rcases Lib.mem_setEntry hentry with rfl | hbefore
              · exact absurd hother hnot
              · exact hold entry.1 (List.mem_cons_of_mem _ hother) (List.mem_map_of_mem hbefore)

/-- A candidate leaves what is selected, or brings his block. -/
theorem Selected.addCandidate {staff : Staff} (h : Selected m staff) (horder : order.Nodup)
    (guid : Guid) :
    Selected m (m.addCandidate w order seedGuid seed instanceName staff guid) := by
  unfold Manager.addCandidate
  split_ifs
  · exact h
  · cases hq : Lib.entryOf guid m.queue with
    | none => exact h
    | some q =>
        simp only []
        split_ifs
        · cases hfit : m.fitBlock w seedGuid seed instanceName (staff.roles.map Prod.fst) staff
              (m.block order (q.leaderOf guid)) with
          | none => exact h
          | some staff' =>
              simp only []
              split_ifs
              · exact h
              · exact h.fitBlock w (horder.filter _) (fun _ _ hmem => hmem) hfit
        · exact h

/-- What is selected for a seed is a team. -/
theorem selectFor_staffed {staff : Staff} (horder : order.Nodup)
    (h : m.selectFor w order instanceName seedGuid = some staff) :
    Staffed m.queue staff.roles ∧
      ∀ entry ∈ staff.roles, Lib.entryOf entry.1 m.playerOffers = none := by
  unfold Manager.selectFor at h
  cases hseed : Lib.entryOf seedGuid m.queue with
  | none =>
      rw [hseed] at h
      cases h
  | some seed =>
      simp only [hseed] at h
      split_ifs at h with hopen hfull
      cases h
      have hgo : ∀ (guids : List Guid) (staff : Staff), Selected m staff →
          Selected m (guids.foldl (m.addCandidate w order seedGuid seed instanceName) staff) := by
        intro guids
        induction guids with
        | nil => exact fun _ hs => hs
        | cons guid rest ih => exact fun _ hs => ih _ (hs.addCandidate w horder guid)
      have hselected := hgo order Staff.empty selected_empty
      exact ⟨⟨hselected.sorted.nodup, hselected.tanks.trans hfull.1,
        hselected.healers.trans hfull.2.1, hselected.damage.trans hfull.2.2.1,
        fun entry hentry => (hselected.each entry hentry).2⟩,
        fun entry hentry => (hselected.each entry hentry).1⟩

/-- Nothing is done but to promise an offer to the players of some roles. -/
structure Promised (offerId : ℕ) (roles : List (Guid × Role)) (m m' : Manager) : Prop where
  queueSorted : Lib.KeysSorted m'.queue
  queueNone : ∀ guid, Lib.entryOf guid m.queue = none → Lib.entryOf guid m'.queue = none
  queue : ∀ guid q, Lib.entryOf guid m.queue = some q →
    ∃ q', Lib.entryOf guid m'.queue = some q' ∧ q'.roleMask = q.roleMask
  players : ∀ guid, Lib.entryOf guid m'.playerOffers =
    if guid ∈ roles.map Prod.fst then some offerId else Lib.entryOf guid m.playerOffers
  offers : m'.offers = m.offers
  rolechecks : m'.rolechecks = m.rolechecks
  nextOfferId : m'.nextOfferId = m.nextOfferId

theorem promised_foldl (offerId : ℕ) (roles : List (Guid × Role))
    (hsorted : Lib.KeysSorted m.queue) :
    Promised offerId roles m (roles.foldl (promise offerId) m) := by
  induction roles generalizing m with
  | nil =>
      exact ⟨hsorted, fun _ hnone => hnone, fun _ q hq => ⟨q, hq, rfl⟩,
        fun _ => (if_neg List.not_mem_nil).symm, rfl, rfl, rfl⟩
  | cons entry rest ih =>
      have hfirst : Promised offerId [entry] m (promise offerId m entry) := by
        have hplayers : ∀ guid, Lib.entryOf guid (Lib.setEntry entry.1 offerId m.playerOffers) =
            if guid ∈ [entry].map Prod.fst then some offerId
            else Lib.entryOf guid m.playerOffers := by
          intro guid
          rw [Lib.entryOf_setEntry]
          simp
        unfold promise setQueued
        cases hq : Lib.entryOf entry.1 m.queue with
        | none =>
            exact ⟨hsorted, fun _ hnone => hnone, fun _ q hq => ⟨q, hq, rfl⟩, hplayers, rfl, rfl, rfl⟩
        | some q =>
            refine ⟨hsorted.setEntry, fun guid hnone => ?_, fun guid q' hq' => ?_, hplayers, rfl, rfl,
              rfl⟩
            · refine (Lib.entryOf_setEntry guid).trans ((if_neg ?_).trans hnone)
              rintro rfl
              rw [hq] at hnone
              cases hnone
            · show ∃ q'', Lib.entryOf guid (Lib.setEntry entry.1 _ m.queue) = some q'' ∧ _
              rw [Lib.entryOf_setEntry]
              by_cases heq : guid = entry.1
              · rw [if_pos heq]
                rw [heq, hq] at hq'
                cases hq'
                exact ⟨_, rfl, rfl⟩
              · rw [if_neg heq]
                exact ⟨q', hq', rfl⟩
      have hlater := ih hfirst.queueSorted
      refine ⟨hlater.queueSorted, fun guid hnone => hlater.queueNone guid (hfirst.queueNone guid hnone),
        fun guid q hq => ?_, fun guid => ?_, hlater.offers.trans hfirst.offers,
        hlater.rolechecks.trans hfirst.rolechecks, hlater.nextOfferId.trans hfirst.nextOfferId⟩
      · obtain ⟨q₁, hq₁, hmask₁⟩ := hfirst.queue guid q hq
        obtain ⟨q₂, hq₂, hmask₂⟩ := hlater.queue guid q₁ hq₁
        exact ⟨q₂, hq₂, hmask₂.trans hmask₁⟩
      · show Lib.entryOf guid (rest.foldl (promise offerId) (promise offerId m entry)).playerOffers = _
        rw [hlater.players, hfirst.players]
        by_cases hmem : guid ∈ rest.map Prod.fst
        · have hcons : guid ∈ (entry :: rest).map Prod.fst := List.mem_cons_of_mem entry.1 hmem
          rw [if_pos hmem, if_pos hcons]
        · rw [if_neg hmem]
          simp [hmem]

/-- A new offer to a team. -/
theorem Inv.makeOffer (h : m.Inv) (instanceName : String) {roles : List (Guid × Role)}
    (hstaffed : Staffed m.queue roles)
    (hfree : ∀ entry ∈ roles, Lib.entryOf entry.1 m.playerOffers = none) :
    (m.makeOffer instanceName roles).Inv := by
  have hp : Promised m.nextOfferId roles _ (m.makeOffer instanceName roles) :=
    promised_foldl m.nextOfferId roles h.queueSorted
  have hnew : Lib.entryOf m.nextOfferId m.offers = none := h.fresh _ le_rfl
  have hoffers : ∀ offerId, Lib.entryOf offerId (m.makeOffer instanceName roles).offers =
      if offerId = m.nextOfferId then some ⟨instanceName, roles, [], timeout⟩
      else Lib.entryOf offerId m.offers := by
    intro offerId
    rw [hp.offers]
    exact Lib.entryOf_setEntry offerId
  -- the queue keeps its roles; only the offer is written to its entries
  have hkeep : ∀ {roles' : List (Guid × Role)}, Staffed m.queue roles' →
      Staffed (m.makeOffer instanceName roles).queue roles' := by
    intro roles' hs
    refine { hs with queued := fun entry hentry => ?_ }
    obtain ⟨q, hq, hhas⟩ := hs.queued entry hentry
    obtain ⟨q', hq', hmask⟩ := hp.queue entry.1 q hq
    exact ⟨q', hq', by rw [hmask]; exact hhas⟩
  exact
    { offered := fun guid offerId => by
        rw [hp.players, hoffers]
        by_cases hmem : guid ∈ roles.map Prod.fst
        · rw [if_pos hmem]
          constructor
          · intro heq
            cases heq
            rw [if_pos rfl]
            exact ⟨_, rfl, hmem⟩
          · rintro ⟨offer, hoffer, hguid⟩
            by_cases heq : offerId = m.nextOfferId
            · rw [heq]
            -- who gets the new offer has no other, since he had none before
            · rw [if_neg heq] at hoffer
              obtain ⟨entry, hentry, rfl⟩ := List.mem_map.mp hmem
              have hhas := (h.offered entry.1 offerId).mpr ⟨offer, hoffer, hguid⟩
              rw [hfree entry hentry] at hhas
              cases hhas
        · rw [if_neg hmem]
          show Lib.entryOf guid m.playerOffers = some offerId ↔ _
          by_cases heq : offerId = m.nextOfferId
          · rw [if_pos heq, heq]
            refine iff_of_false (fun hp => ?_) ?_
            -- the id is new, so nobody had an offer under it
            · obtain ⟨offer, hoffer, -⟩ := h.offer_of hp
              rw [hnew] at hoffer
              cases hoffer
            · rintro ⟨offer, hoffer, hguid⟩
              cases hoffer
              exact hmem hguid
          · rw [if_neg heq]
            exact h.offered guid offerId
      staffed := fun offerId offer hoffer => by
        rw [hoffers] at hoffer
        split_ifs at hoffer
        · cases hoffer
          exact hkeep hstaffed
        · exact hkeep (h.staffed offerId offer hoffer)
      apart := fun entry hentry guid hguid => by
        rw [hp.rolechecks] at hentry
        exact hp.queueNone guid (h.apart entry hentry guid hguid)
      single := fun entry hentry entry' hentry' => by
        rw [hp.rolechecks] at hentry hentry'
        exact h.single entry hentry entry' hentry'
      queueSorted := hp.queueSorted
      rolechecksSorted := hp.rolechecks ▸ h.rolechecksSorted
      offersSorted := hp.offers ▸ h.offersSorted.setEntry
      fresh := fun offerId hle => by
        rw [hp.nextOfferId] at hle
        have hlt : m.nextOfferId + 1 ≤ offerId := hle
        rw [hoffers, if_neg (by omega)]
        exact h.fresh offerId (by omega) }

theorem nodup_getQueueOrder (h : Lib.KeysSorted m.queue) : m.getQueueOrder.Nodup :=
  (((List.perm_insertionSort _ m.queue).map Prod.fst).nodup_iff).mpr h.nodup

/-- `TryBuildOfferForInstance`. -/
theorem Inv.tryBuildOfferForInstance (h : m.Inv) (instanceName : String) :
    (m.tryBuildOfferForInstance w instanceName).Inv := by
  unfold Manager.tryBuildOfferForInstance
  cases hfound : m.getQueueOrder.findSome? (m.selectFor w m.getQueueOrder instanceName) with
  | none => exact h
  | some staff =>
      obtain ⟨seedGuid, -, hselect⟩ := List.exists_of_findSome?_eq_some hfound
      obtain ⟨hstaffed, hfree⟩ := selectFor_staffed w (nodup_getQueueOrder h.queueSorted) hselect
      exact h.makeOffer instanceName hstaffed hfree

/-- `TryMakeOffers`. -/
theorem Inv.tryMakeOffers (h : m.Inv) : (m.tryMakeOffers w).Inv := by
  unfold Manager.tryMakeOffers
  generalize m.openInstances = instances
  induction instances generalizing m with
  | nil => exact h
  | cons name rest ih => exact ih (h.tryBuildOfferForInstance w name)

end Offers

end Manager

end TwowCore.LFT

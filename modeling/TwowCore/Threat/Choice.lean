import TwowCore.Threat.Containers

/-!
# The choice of a target

`selectNextVictim` stops at the first reference that is good enough, which is right when the list is in
order. The list is sorted when it is dirty only, and not every change makes it so; `Ordered` is what a
clean list needs for the choice to be right, and `CallOk` what a call must not do to a clean list.
-/

namespace TwowCore.Threat

/-- The targets of the list are in the area, valid and of normal priority. -/
def Sight.Normal (s : Sight) (refs : List HostileReference) : Prop :=
  ∀ ref ∈ refs, s.isOutOfThreatArea ref.unitGuid = false ∧ s.isValidAttackTarget ref.unitGuid = true ∧
    s.lowPriority ref.unitGuid = false

/-- Nobody has more threat than one before him. -/
def Descending (refs : List HostileReference) : Prop :=
  refs.Pairwise fun ref other => other.threat ≤ ref.threat

/-- Nobody has more than 1.3 times the threat of the victim. -/
def Within (victim : HostileReference) (refs : List HostileReference) : Prop :=
  ∀ ref ∈ refs, ref.threat ≤ 13 / 10 * victim.threat

/-- Those who have more than 1.1 times the threat of the victim are in order, and before him. -/
def Queued (victim : HostileReference) (refs : List HostileReference) : Prop :=
  refs.Pairwise fun ref other => other.address ≠ victim.address →
    other.threat ≤ 11 / 10 * victim.threat ∨
      (ref.address ≠ victim.address ∧ other.threat ≤ ref.threat)

variable {s : Sight} {refs : List HostileReference} {victim ref t : HostileReference}

/-- A list in order is so for any victim. -/
theorem Descending.queued (h : Descending refs) (hnonneg : 0 ≤ victim.threat)
    (hvictim : ∀ ref ∈ refs, ref.address = victim.address → ref = victim) : Queued victim refs := by
  refine List.Pairwise.imp_of_mem (fun {first second} hfirst _ hle _ => ?_) h
  by_cases hsame : first.address = victim.address
  · rw [hvictim first hfirst hsame] at hle
    exact Or.inl (by linarith)
  · exact Or.inr ⟨hsame, hle⟩

namespace ThreatManager

/-- A reference in a normal list is passed over only when it has more than 1.1 times the threat of the
victim, and not more than 1.3 times. -/
theorem selectPass_cons (hnormal : s.Normal (ref :: refs)) :
    selectPass s false (some victim) (ref :: refs) =
      if victim.address = ref.address ∨ ref.threat ≤ 11 / 10 * victim.threat then .found victim
      else if 13 / 10 * victim.threat < ref.threat ∨
          11 / 10 * victim.threat < ref.threat ∧ s.canReachWithMelee ref.unitGuid then .found ref
      else selectPass s false (some victim) refs := by
  obtain ⟨harea, hvalid, hlow⟩ := hnormal ref List.mem_cons_self
  rw [selectPass, harea, hvalid, hlow]
  simp

/-- With a victim in the list a pass finds a reference that has at least his threat; and when those with
more than 1.1 times his are in order, nobody has more than 1.3 times that of the one it finds. -/
theorem selectPass_found (hnormal : s.Normal refs) (hnonneg : 0 ≤ victim.threat)
    (hmem : victim ∈ refs) (hsame : ∀ ref ∈ refs, ref.address = victim.address → ref = victim) :
    ∃ t, selectPass s false (some victim) refs = .found t ∧ victim.threat ≤ t.threat ∧
      (Queued victim refs → Within t refs) := by
  induction refs with
  | nil => cases hmem
  | cons ref rest ih =>
      rw [selectPass_cons hnormal]
      by_cases hstop : victim.address = ref.address ∨ ref.threat ≤ 11 / 10 * victim.threat
      · rw [if_pos hstop]
        refine ⟨victim, rfl, le_refl _, fun hqueued other hother => ?_⟩
        have hhead : ref.threat ≤ 11 / 10 * victim.threat := by
          rcases hstop with heq | hle
          · rw [hsame ref List.mem_cons_self heq.symm]
            linarith
          · exact hle
        rcases List.mem_cons.mp hother with rfl | hlater
        · linarith
        · by_cases hvictim : other.address = victim.address
          · rw [hsame other hother hvictim]
            linarith
          · rcases (List.pairwise_cons.mp hqueued).1 other hlater hvictim with hle | ⟨-, hle⟩
            · linarith
            · linarith
      · rw [if_neg hstop]
        rw [not_or, not_le] at hstop
        obtain ⟨hne, hmore⟩ := hstop
        have hrest : victim ∈ rest := by
          rcases List.mem_cons.mp hmem with rfl | hin
          · exact absurd rfl hne
          · exact hin
        split_ifs with htake
        · refine ⟨ref, rfl, by linarith, fun hqueued other hother => ?_⟩
          rcases List.mem_cons.mp hother with rfl | hlater
          · linarith
          · by_cases hvictim : other.address = victim.address
            · rw [hsame other hother hvictim]
              linarith
            · rcases (List.pairwise_cons.mp hqueued).1 other hlater hvictim with hle | ⟨-, hle⟩
              · linarith
              · linarith
        · rw [not_or, not_lt] at htake
          obtain ⟨t, hfound, hle, hwithin⟩ := ih (fun other hother =>
            hnormal other (List.mem_cons_of_mem _ hother)) hrest fun other hother =>
              hsame other (List.mem_cons_of_mem _ hother)
          refine ⟨t, hfound, hle, fun hqueued other hother => ?_⟩
          rcases List.mem_cons.mp hother with rfl | hlater
          · linarith [htake.1]
          · exact hwithin (List.pairwise_cons.mp hqueued).2 other hlater

/-- What a clean list needs: without a victim it is in order; with one, nobody has more than 1.3 times his
threat, or those with more than 1.1 times are in order. -/
structure Ordered (m : ThreatManager) : Prop where
  alone : m.currentVictim = none → Descending m.online
  chased : ∀ victim ∈ m.online, m.currentVictim = some victim.address →
    Within victim m.online ∨ Queued victim m.online

/-- No threat is negative. -/
def NonNeg (m : ThreatManager) : Prop := ∀ ref ∈ m.all, 0 ≤ ref.threat

/-- What holds between two calls. -/
structure Settled (m : ThreatManager) : Prop extends Coherent m where
  nonneg : m.NonNeg
  ordered : m.dirty = false → m.Ordered

variable {m m' : ThreatManager}

/-- References of one container at one address are the same. -/
theorem Coherent.same_address (h : m.Coherent) {other : HostileReference} (href : ref ∈ m.online)
    (hother : other ∈ m.online) (heq : other.address = ref.address) : other = ref :=
  List.inj_on_of_nodup_map h.distinct_online hother href heq

/-- A sorted list is in order for whoever is the victim. -/
theorem Coherent.ordered_of_descending (h : m.Coherent) (hnonneg : m.NonNeg)
    (hsorted : Descending m.online) : m.Ordered := by
  refine ⟨fun _ => hsorted, fun victim hin _ => Or.inr ?_⟩
  exact hsorted.queued (hnonneg victim (List.mem_append_left _ hin)) fun other hother heq =>
    h.same_address hin hother heq

theorem Settled.sort (h : m.Settled) : m.sort.Settled := by
  have hnonneg : m.sort.NonNeg := fun ref href =>
    h.nonneg ref ((m.perm_sort.append_right m.offline).mem_iff.mp href)
  refine { h.toCoherent.sort with nonneg := hnonneg, ordered := fun _ => ?_ }
  cases hdirty : m.dirty with
  | false =>
      have hsame : m.sort.online = m.online := by
        unfold ThreatManager.sort
        rw [hdirty]
        rfl
      have hold := h.ordered hdirty
      refine ⟨fun hnone => ?_, fun victim hin hvictim => ?_⟩
      · rw [hsame]
        exact hold.alone hnone
      · rw [hsame] at hin ⊢
        exact hold.chased victim hin hvictim
  | true =>
      refine h.toCoherent.sort.ordered_of_descending hnonneg ?_
      unfold ThreatManager.sort
      rw [hdirty]
      exact List.pairwise_insertionSort _ m.online

/-- Whoever is selected, nobody has more than 1.3 times his threat; and nobody has more, when there was no
victim. -/
theorem Settled.nextVictim (h : m.Settled) (hnormal : s.Normal m.online)
    (ht : m.nextVictim s = some t) :
    Within t m.online ∧ (m.currentVictim = none → ∀ ref ∈ m.online, ref.threat ≤ t.threat) := by
  have hsort := h.sort
  have hperm := m.perm_sort
  have hnormal' : s.Normal m.sort.online := fun ref href => hnormal ref (hperm.mem_iff.mp href)
  have hordered := hsort.ordered rfl
  -- the choice is made from the sorted list, which has the same references
  suffices hgoal : Within t m.sort.online ∧
      (m.currentVictim = none → ∀ ref ∈ m.sort.online, ref.threat ≤ t.threat) from
    ⟨fun ref href => hgoal.1 ref (hperm.mem_iff.mpr href),
      fun hnone ref href => hgoal.2 hnone ref (hperm.mem_iff.mpr href)⟩
  unfold ThreatManager.nextVictim selectNextVictim at ht
  cases hcurrent : m.currentVictim with
  | none =>
      have hvictim : m.sort.victimRef = none := by
        unfold victimRef
        show m.currentVictim.bind _ = none
        rw [hcurrent]
        rfl
      -- without a victim the first reference that can be attacked has the most threat
      have hsorted := hordered.alone hcurrent
      rw [hvictim] at ht
      have hmax : ∀ ref ∈ m.sort.online, ref.threat ≤ t.threat ∧ 0 ≤ t.threat := by
        cases hrefs : m.sort.online with
        | nil => exact fun _ href => (List.not_mem_nil href).elim
        | cons first rest =>
            rw [hrefs] at ht hsorted hnormal'
            obtain ⟨harea, hvalid, hlow⟩ := hnormal' first List.mem_cons_self
            rw [selectPass, harea, hvalid, hlow] at ht
            simp at ht
            have hin : first ∈ m.sort.all :=
              List.mem_append_left _ (hrefs ▸ List.mem_cons_self)
            intro ref href
            rw [← ht]
            refine ⟨?_, hsort.nonneg first hin⟩
            rcases List.mem_cons.mp href with rfl | hlater
            · exact le_refl _
            · exact (List.pairwise_cons.mp hsorted).1 ref hlater
      exact ⟨fun ref href => by linarith [hmax ref href], fun _ ref href => (hmax ref href).1⟩
  | some a =>
      obtain ⟨victim, hin, hkey⟩ := hsort.victim a hcurrent
      have hvictim : m.sort.victimRef = some victim := by
        unfold victimRef
        show m.currentVictim.bind _ = _
        rw [hcurrent, ← hkey]
        exact hsort.toCoherent.at_eq (List.mem_append_left _ hin)
      have hnonneg := hsort.nonneg victim (List.mem_append_left _ hin)
      -- with one, the pass stops at the victim or at what has outrun him
      obtain ⟨found, hfound, hle, hqueued⟩ := selectPass_found hnormal' hnonneg hin
        fun other hother heq => hsort.toCoherent.same_address hin hother heq
      rw [hvictim, hfound] at ht
      cases ht
      refine ⟨?_, fun hnone => by cases hnone⟩
      rcases hordered.chased victim hin (hcurrent.trans (congrArg some hkey.symm)) with hwithin | hqueue
      · intro ref href
        have hlimit := hwithin ref href
        linarith
      · exact hqueued hqueue

section Lists

/-- Taking references out keeps a list as it should be. -/
theorem Queued.sublist {refs' : List HostileReference} (h : Queued victim refs)
    (hsub : refs'.Sublist refs) : Queued victim refs' := List.Pairwise.sublist hsub h

theorem Ordered.sublist (h : m.Ordered) (hsub : m'.online.Sublist m.online)
    (hvictim : m'.currentVictim = m.currentVictim) : m'.Ordered := by
  refine ⟨fun hnone => ?_, fun victim hin hcurrent => ?_⟩
  · exact List.Pairwise.sublist hsub (h.alone (hvictim ▸ hnone))
  · rcases h.chased victim (hsub.subset hin) (hvictim ▸ hcurrent) with hwithin | hqueued
    · exact Or.inl fun ref href => hwithin ref (hsub.subset href)
    · exact Or.inr (hqueued.sublist hsub)

/-- So do writes of anything but the threat. -/
theorem Ordered.map (h : m.Ordered) {f : HostileReference → HostileReference}
    (honline : m'.online = m.online.map f) (haddress : ∀ ref, (f ref).address = ref.address)
    (hthreat : ∀ ref, (f ref).threat = ref.threat) (hvictim : m'.currentVictim = m.currentVictim) :
    m'.Ordered := by
  refine ⟨fun hnone => ?_, fun victim hin hcurrent => ?_⟩
  · rw [honline]
    refine List.pairwise_map.mpr ((h.alone (hvictim ▸ hnone)).imp fun {ref other} hle => ?_)
    rw [hthreat, hthreat]
    exact hle
  · rw [honline] at hin ⊢
    obtain ⟨old, hold, rfl⟩ := List.mem_map.mp hin
    rw [haddress, hvictim] at hcurrent
    rcases h.chased old hold hcurrent with hwithin | hqueued
    · refine Or.inl fun ref href => ?_
      obtain ⟨other, hother, rfl⟩ := List.mem_map.mp href
      rw [hthreat, hthreat]
      exact hwithin other hother
    · refine Or.inr (List.pairwise_map.mpr (hqueued.imp fun {ref other} hle => ?_))
      simp only [haddress, hthreat]
      exact hle

/-- A reference at the end does no harm when it has no more threat than the others, or than 1.1 times
that of the victim. -/
theorem Ordered.append (h : m.Ordered) (ref : HostileReference) (honline : m'.online = m.online ++ [ref])
    (hvictim : m'.currentVictim = m.currentVictim)
    (hapart : m.currentVictim ≠ some ref.address)
    (hlast : m.currentVictim = none → ∀ other ∈ m.online, ref.threat ≤ other.threat)
    (hless : ∀ victim ∈ m.online, m.currentVictim = some victim.address →
      ref.threat ≤ 11 / 10 * victim.threat) (hnonneg : m.NonNeg) : m'.Ordered := by
  refine ⟨fun hnone => ?_, fun victim hin hcurrent => ?_⟩
  · rw [honline]
    rw [hvictim] at hnone
    refine List.pairwise_append.mpr ⟨h.alone hnone, List.pairwise_singleton _ _, ?_⟩
    intro other hother new hnew
    rw [List.mem_singleton.mp hnew]
    exact hlast hnone other hother
  · rw [honline] at hin ⊢
    rw [hvictim] at hcurrent
    have hold : victim ∈ m.online := by
      rcases List.mem_append.mp hin with hold | hnew
      · exact hold
      · rw [List.mem_singleton.mp hnew] at hcurrent
        exact absurd hcurrent hapart
    have hlimit := hless victim hold hcurrent
    have hvictim' : 0 ≤ victim.threat := hnonneg victim (List.mem_append_left _ hold)
    rcases h.chased victim hold hcurrent with hwithin | hqueued
    · refine Or.inl fun other hother => ?_
      rcases List.mem_append.mp hother with hother | hnew
      · exact hwithin other hother
      · rw [List.mem_singleton.mp hnew]
        linarith
    · refine Or.inr (List.pairwise_append.mpr ⟨hqueued, List.pairwise_singleton _ _, ?_⟩)
      intro other _ new hnew _
      rw [List.mem_singleton.mp hnew]
      exact Or.inl hlimit

end Lists

section Change

variable {value : ℚ}

/-- The change of the threat of a reference. -/
def changed (m : ThreatManager) (ref : HostileReference) (value : ℚ) : ThreatManager :=
  m.write ref.address fun ref => { ref with threat := ref.threat + value }

/-- A list in order stays so when a reference in it changes, if he is still in order with the others. -/
theorem pairwise_middle {R : HostileReference → HostileReference → Prop}
    {ref' : HostileReference} {l₁ l₂ : List HostileReference} (h : (l₁ ++ ref :: l₂).Pairwise R)
    (hbefore : ∀ other, R other ref → R other ref') (hafter : ∀ other ∈ l₂, R ref' other) :
    (l₁ ++ ref' :: l₂).Pairwise R := by
  obtain ⟨hfirst, hsecond, hcross⟩ := List.pairwise_append.mp h
  obtain ⟨-, hrest⟩ := List.pairwise_cons.mp hsecond
  refine List.pairwise_append.mpr ⟨hfirst, List.pairwise_cons.mpr ⟨hafter, hrest⟩, ?_⟩
  intro other hother later hlater
  rcases List.mem_cons.mp hlater with rfl | hin
  · exact hbefore other (hcross other hother ref List.mem_cons_self)
  · exact hcross other hother later (List.mem_cons_of_mem _ hin)

/-- Where a reference is, and the list after a write to it. -/
theorem Coherent.online_write (h : m.Coherent) (href : ref ∈ m.online)
    (f : HostileReference → HostileReference) :
    ∃ l₁ l₂, m.online = l₁ ++ ref :: l₂ ∧ (m.write ref.address f).online = l₁ ++ f ref :: l₂ := by
  obtain ⟨l₁, l₂, hlist⟩ := List.append_of_mem href
  have hnodup := h.distinct_online
  rw [hlist, List.map_append, List.map_cons] at hnodup
  obtain ⟨-, hcons, hcross⟩ := List.nodup_append.mp hnodup
  have hbefore : ref.address ∉ l₁.map HostileReference.address := fun hin =>
    hcross _ hin _ List.mem_cons_self rfl
  refine ⟨l₁, l₂, hlist, ?_⟩
  show Lib.writeKey HostileReference.address ref.address f m.online = _
  rw [hlist, Lib.writeKey, List.map_append, List.map_cons, if_pos rfl]
  congr 1
  · exact Lib.writeKey_of_notMem hbefore
  · exact congrArg _ (Lib.writeKey_of_notMem (List.nodup_cons.mp hcons).1)

/-- Those after a reference that loses threat still have no more than he has; or they have no more than
1.1 times the threat of the victim; or nobody has more than 1.3 times that. -/
structure KeepsOrder (m : ThreatManager) (ref : HostileReference) (value : ℚ) : Prop where
  alone : m.currentVictim = none → ∀ l₁ l₂, m.online = l₁ ++ ref :: l₂ →
    ∀ other ∈ l₂, other.threat ≤ ref.threat + value
  chased : ∀ victim ∈ m.online, m.currentVictim = some victim.address → Within victim m.online ∨
    ∀ l₁ l₂, m.online = l₁ ++ ref :: l₂ → ∀ other ∈ l₂, other.address ≠ victim.address →
      other.threat ≤ 11 / 10 * victim.threat ∨ other.threat ≤ ref.threat + value

/-- One who is not the victim loses threat. -/
theorem Ordered.lower (h : m.Ordered) (hcoherent : m.Coherent) (href : ref ∈ m.online)
    (hvalue : value < 0) (hother : m.currentVictim ≠ some ref.address)
    (hkeeps : m.KeepsOrder ref value) : (m.changed ref value).Ordered := by
  obtain ⟨l₁, l₂, hlist, hchanged⟩ :=
    hcoherent.online_write href fun ref => { ref with threat := ref.threat + value }
  have hchanged : (m.changed ref value).online =
    l₁ ++ { ref with threat := ref.threat + value } :: l₂ := hchanged
  refine ⟨fun hnone => ?_, fun victim hin hcurrent => ?_⟩
  · have hsorted := h.alone hnone
    rw [hlist] at hsorted
    rw [hchanged]
    refine pairwise_middle hsorted (fun other hle => ?_) (hkeeps.alone hnone l₁ l₂ hlist)
    show ref.threat + value ≤ other.threat
    linarith
  · have hcurrent : m.currentVictim = some victim.address := hcurrent
    have hne : ref.address ≠ victim.address := fun heq => hother (heq ▸ hcurrent)
    have hold : victim ∈ m.online := by
      rw [hchanged] at hin
      rw [hlist]
      rcases List.mem_append.mp hin with hbefore | hafter
      · exact List.mem_append_left _ hbefore
      · rcases List.mem_cons.mp hafter with rfl | hlater
        · exact absurd rfl hne
        · exact List.mem_append_right _ (List.mem_cons_of_mem _ hlater)
    have hwithin : Within victim m.online → Within victim (m.changed ref value).online := by
      intro hlimit other hin
      obtain ⟨old, hmem, rfl⟩ := Lib.mem_writeKey.mp hin
      have hle := hlimit old hmem
      split_ifs
      · dsimp only
        linarith
      · exact hle
    rcases hkeeps.chased victim hold hcurrent with hlimit | hafter
    · exact Or.inl (hwithin hlimit)
    · rcases h.chased victim hold hcurrent with hlimit | hqueued
      · exact Or.inl (hwithin hlimit)
      · right
        rw [hlist] at hqueued
        rw [hchanged]
        refine pairwise_middle hqueued (fun other hle hvictim => ?_) fun other hin hvictim => ?_
        · rcases hle hvictim with hless | ⟨hapart, hless⟩
          · left
            dsimp only
            linarith
          · refine Or.inr ⟨hapart, ?_⟩
            dsimp only
            linarith
        · rcases hafter l₁ l₂ hlist other hin hvictim with hless | hless
          · exact Or.inl hless
          · exact Or.inr ⟨hne, hless⟩

/-- The victim gains threat. -/
theorem Ordered.raise (h : m.Ordered) (hcoherent : m.Coherent) (href : ref ∈ m.online)
    (hvalue : 0 < value) (hcurrent : m.currentVictim = some ref.address) (hnonneg : m.NonNeg) :
    (m.changed ref value).Ordered := by
  have hthreat : 0 ≤ ref.threat := hnonneg ref (List.mem_append_left _ href)
  refine ⟨fun hnone => ?_, fun victim hin hvictim => ?_⟩
  · have hnone : m.currentVictim = none := hnone
    rw [hcurrent] at hnone
    cases hnone
  · have hvictim : m.currentVictim = some victim.address := hvictim
    rw [hcurrent] at hvictim
    have hkey : ref.address = victim.address := Option.some.inj hvictim
    obtain ⟨old, hold, rfl⟩ := Lib.mem_writeKey.mp hin
    have hsame : old = ref := by
      refine hcoherent.same_address href hold ?_
      rw [hkey]
      split_ifs
      · rfl
      · rfl
    subst hsame
    rw [if_pos rfl]
    rcases h.chased old hold hcurrent with hlimit | hqueued
    · refine Or.inl fun other hother => ?_
      obtain ⟨other, hmem, rfl⟩ := Lib.mem_writeKey.mp hother
      have hle := hlimit other hmem
      split_ifs with heq
      · rw [hcoherent.same_address hold hmem heq]
        dsimp only
        linarith
      · dsimp only
        linarith
    · refine Or.inr (List.pairwise_map.mpr (hqueued.imp fun {first second} hle hother => ?_))
      by_cases hsecond : second.address = old.address
      · rw [if_pos hsecond] at hother
        exact absurd hsecond hother
      · rw [if_neg hsecond] at hother ⊢
        rcases hle hother with hless | ⟨hapart, hless⟩
        · left
          dsimp only
          linarith
        · right
          rw [if_neg hapart]
          exact ⟨hapart, hless⟩

end Change

section Keep

variable {f : HostileReference → HostileReference} {address : ℕ} {value : ℚ} {u : Units}

/-- A dirty list is sorted before it is used. -/
theorem Settled.of_dirty (h : m.Coherent) (hnonneg : m.NonNeg) (hdirty : m.dirty = true) : m.Settled :=
  { h with
    nonneg := hnonneg
    ordered := fun hclean => by
      rw [hdirty] at hclean
      cases hclean }

theorem NonNeg.write (h : m.NonNeg) (hthreat : ∀ ref, (f ref).threat = ref.threat) :
    (m.write address f).NonNeg := by
  intro ref href
  rw [all_write] at href
  obtain ⟨old, hold, rfl⟩ := Lib.mem_writeKey.mp href
  have hle := h old hold
  split_ifs
  · rw [hthreat]
    exact hle
  · exact hle

theorem NonNeg.changed (h : m.NonNeg) (hcoherent : m.Coherent) (href : ref ∈ m.all)
    (hvalue : 0 ≤ ref.threat + value) : (m.changed ref value).NonNeg := by
  intro other hother
  unfold ThreatManager.changed at hother
  rw [all_write] at hother
  obtain ⟨old, hold, rfl⟩ := Lib.mem_writeKey.mp hother
  split_ifs with heq
  · rw [List.inj_on_of_nodup_map hcoherent.distinct hold href heq]
    exact hvalue
  · exact h old hold

theorem NonNeg.setOnlineOfflineState (h : m.NonNeg) (hcoherent : m.Coherent) (address : ℕ)
    (isOnline : Bool) : (m.setOnlineOfflineState address isOnline).NonNeg := by
  have hon : ∀ ref ∈ m.online, 0 ≤ ref.threat := fun ref href => h ref (List.mem_append_left _ href)
  have hoff : ∀ ref ∈ m.offline, 0 ≤ ref.threat := fun ref href => h ref (List.mem_append_right _ href)
  rcases hcoherent.setOnlineOfflineState_cases address isOnline with hsame | ⟨ref, href, rfl, rfl⟩ |
    ⟨ref, href, rfl, rfl⟩
  · rwa [hsame]
  · rw [hcoherent.setOffline_eq href]
    intro other hother
    rcases List.mem_append.mp hother with hin | hin
    · exact hon other (Lib.mem_eraseKey.mp hin).1
    · rcases List.mem_append.mp hin with hold | hnew
      · exact hoff other hold
      · rw [List.mem_singleton.mp hnew]
        exact hon ref href
  · rw [hcoherent.setOnline_eq href]
    intro other hother
    rcases List.mem_append.mp hother with hin | hin
    · rcases List.mem_append.mp hin with hold | hnew
      · exact hon other hold
      · rw [List.mem_singleton.mp hnew]
        exact hoff ref href
    · exact hoff other (Lib.mem_eraseKey.mp hin).1

/-- A write of anything but the threat. -/
theorem Settled.write (h : m.Settled) (hguid : ∀ ref, (f ref).unitGuid = ref.unitGuid)
    (hstatus : ∀ ref, (f ref).online = ref.online) (haddress : ∀ ref, (f ref).address = ref.address)
    (hthreat : ∀ ref, (f ref).threat = ref.threat) : (m.write address f).Settled := by
  refine { h.toCoherent.write hguid hstatus haddress with
    nonneg := h.nonneg.write hthreat
    ordered := fun hclean => ?_ }
  refine (h.ordered hclean).map (f := fun ref => if ref.address = address then f ref else ref) rfl
    (fun ref => ?_) (fun ref => ?_) rfl
  · split_ifs
    · exact haddress ref
    · rfl
  · split_ifs
    · exact hthreat ref
    · rfl

/-- A reference that comes to a clean list without a victim has no more threat than the others. -/
def ReturnOk (m : ThreatManager) (address : ℕ) : Prop :=
  m.dirty = false → m.currentVictim = none → ∀ ref ∈ m.offline, ref.address = address →
    ∀ other ∈ m.online, ref.threat ≤ other.threat

theorem Settled.setOnlineOfflineState (h : m.Settled) (address : ℕ) (isOnline : Bool)
    (hok : isOnline = true → m.ReturnOk address) :
    (m.setOnlineOfflineState address isOnline).Settled := by
  have hcoherent := h.toCoherent.setOnlineOfflineState address isOnline
  have hnonneg := h.nonneg.setOnlineOfflineState h.toCoherent address isOnline
  refine { hcoherent with nonneg := hnonneg, ordered := fun hclean => ?_ }
  rcases h.setOnlineOfflineState_cases address isOnline with hsame | ⟨ref, href, rfl, rfl⟩ |
    ⟨ref, href, rfl, rfl⟩
  · rw [hsame] at hclean ⊢
    exact h.ordered hclean
  · rw [h.setOffline_eq href] at hclean ⊢
    obtain ⟨hold, hother⟩ := Bool.or_eq_false_iff.mp hclean
    refine (h.ordered hold).sublist List.filter_sublist ?_
    exact if_neg (of_decide_eq_false hother)
  · rw [h.setOnline_eq href] at hclean ⊢
    obtain ⟨hold, hless⟩ := Bool.or_eq_false_iff.mp hclean
    refine (h.ordered hold).append { ref with online := true } rfl rfl ?_ ?_ ?_ h.nonneg
    · intro hcurrent
      obtain ⟨victim, hin, hkey⟩ := h.victim _ hcurrent
      exact h.apart hin href hkey
    · exact fun hnone => hok rfl hold hnone ref href rfl
    · intro victim hin hcurrent
      have hvictim : m.victimRef = some victim := by
        unfold victimRef
        rw [hcurrent]
        exact h.at_eq (List.mem_append_left _ hin)
      rw [hvictim] at hless
      have hle := of_decide_eq_false hless
      exact not_lt.mp hle

theorem Settled.updateOnlineStatus (h : m.Settled) (address : ℕ)
    (hok : ∀ ref, m.at? address = some ref → onlineStatus u ref = true → m.ReturnOk address) :
    (m.updateOnlineStatus u address).Settled := by
  unfold ThreatManager.updateOnlineStatus
  cases hat : m.at? address with
  | none => exact h
  | some ref =>
      refine Settled.setOnlineOfflineState ?_ address _ fun hstatus => ?_
      · exact h.write (fun _ => rfl) (fun _ => rfl) (fun _ => rfl) fun _ => rfl
      · intro hclean hnone other hother hkey third hthird
        obtain ⟨other, hoff, rfl⟩ := Lib.mem_writeKey.mp hother
        obtain ⟨third, hon, rfl⟩ := Lib.mem_writeKey.mp hthird
        have hkey' : other.address = address := by
          split_ifs at hkey
          · exact hkey
          · exact hkey
        have hle := hok ref hat hstatus hclean hnone other hoff hkey' third hon
        split_ifs
        · exact hle
        · exact hle

theorem Settled.threatChanged (h : m.Settled) (address : ℕ) (value : ℚ) :
    (m.threatChanged address value).Settled := by
  unfold ThreatManager.threatChanged
  split_ifs
  · exact Settled.of_dirty (h.of_same rfl rfl rfl rfl) h.nonneg rfl
  · exact h

/-- Nobody who was not the victim becomes it by a change of a status. -/
theorem Coherent.victim_of_setOnlineOfflineState (h : m.Coherent) (address : ℕ) (isOnline : Bool) {a : ℕ}
    (ha : (m.setOnlineOfflineState address isOnline).currentVictim = some a) :
    m.currentVictim = some a := by
  rcases h.setOnlineOfflineState_cases address isOnline with hsame | ⟨ref, href, rfl, rfl⟩ |
    ⟨ref, href, rfl, rfl⟩
  · rwa [hsame] at ha
  · rw [h.setOffline_eq href] at ha
    dsimp only at ha
    split_ifs at ha
    exact ha
  · rwa [h.setOnline_eq href] at ha

theorem Coherent.victim_of_updateOnlineStatus (h : m.Coherent) (address : ℕ) {a : ℕ}
    (ha : (m.updateOnlineStatus u address).currentVictim = some a) : m.currentVictim = some a := by
  unfold ThreatManager.updateOnlineStatus at ha
  cases hat : m.at? address with
  | none =>
      rw [hat] at ha
      exact ha
  | some ref =>
      rw [hat] at ha
      have hwritten : (m.write address fun ref =>
          { ref with valid := ref.valid || u.found ref.unitGuid }).Coherent :=
        h.write (fun _ => rfl) (fun _ => rfl) fun _ => rfl
      exact hwritten.victim_of_setOnlineOfflineState address _ ha

theorem NonNeg.updateOnlineStatus (h : m.NonNeg) (hcoherent : m.Coherent) (address : ℕ) :
    (m.updateOnlineStatus u address).NonNeg := by
  unfold ThreatManager.updateOnlineStatus
  cases m.at? address with
  | none => exact h
  | some ref =>
      refine NonNeg.setOnlineOfflineState ?_ ?_ address _
      · exact h.write fun _ => rfl
      · exact hcoherent.write (fun _ => rfl) (fun _ => rfl) fun _ => rfl

/-- What a change of a threat may do: it leaves none that is negative; it keeps a clean list in order when
one who is not the victim loses threat; and one who comes online by it comes to such a list. -/
structure ChangeOk (u : Units) (m : ThreatManager) (ref : HostileReference) (value : ℚ) : Prop where
  nonneg : 0 ≤ ref.threat + value
  lowered : ref.online = true → value < 0 → m.dirty = false → m.currentVictim ≠ some ref.address →
    m.KeepsOrder ref value
  returned : ref.online = false → onlineStatus u ref = true → value ≤ 0 →
    (m.changed ref value).ReturnOk ref.address

theorem Settled.changeOnline (h : m.Settled) (href : ref ∈ m.online) (hok : m.ChangeOk u ref value) :
    (m.changeThreat u ref value).Settled := by
  have hstatus := h.online ref href
  have hcoherent := h.toCoherent.changeThreat u ref value
  have hnonneg := h.nonneg.changed h.toCoherent (List.mem_append_left _ href) hok.nonneg
  have hwritten : m.writeThreat u ref value = m.changed ref value := by
    unfold ThreatManager.writeThreat
    simp only
    exact if_pos hstatus
  unfold ThreatManager.changeThreat at hcoherent ⊢
  rw [hwritten] at hcoherent ⊢
  simp only at hcoherent ⊢
  by_cases hvalue : value = 0
  · rw [if_neg (not_not.mpr hvalue)]
    refine h.write (fun _ => rfl) (fun _ => rfl) (fun _ => rfl) fun other => ?_
    show other.threat + value = other.threat
    rw [hvalue, add_zero]
  · rw [if_pos hvalue] at hcoherent ⊢
    unfold ThreatManager.threatChanged at hcoherent ⊢
    split_ifs at hcoherent ⊢ with hflag
    · exact Settled.of_dirty hcoherent hnonneg rfl
    · refine { hcoherent with nonneg := hnonneg, ordered := fun hclean => ?_ }
      rw [not_or, not_and, not_and, not_lt, not_lt] at hflag
      by_cases hcurrent : m.currentVictim = some ref.address
      · have hpos : 0 < value := lt_of_le_of_ne (hflag.1 hcurrent) (Ne.symm hvalue)
        exact (h.ordered hclean).raise h.toCoherent href hpos hcurrent h.nonneg
      · have hneg : value < 0 := lt_of_le_of_ne (hflag.2 hcurrent) hvalue
        exact (h.ordered hclean).lower h.toCoherent href hneg hcurrent
          (hok.lowered hstatus hneg hclean hcurrent)

theorem Settled.changeOffline (h : m.Settled) (href : ref ∈ m.offline) (hok : m.ChangeOk u ref value) :
    (m.changeThreat u ref value).Settled := by
  have hstatus := h.offline ref href
  have hin : ref ∈ m.all := List.mem_append_right _ href
  have hnonneg := h.nonneg.changed h.toCoherent hin hok.nonneg
  have hcoherent : (m.changed ref value).Coherent :=
    h.toCoherent.write (fun _ => rfl) (fun _ => rfl) fun _ => rfl
  -- the reference is offline, so the list that is kept in order is not written
  have hsame : (m.changed ref value).online = m.online := by
    refine Lib.writeKey_of_notMem fun hmem => ?_
    obtain ⟨other, hon, heq⟩ := List.mem_map.mp hmem
    exact h.apart hon href heq
  have hwritten : m.writeThreat u ref value =
      (m.changed ref value).updateOnlineStatus u ref.address := by
    unfold ThreatManager.writeThreat
    simp only [hstatus]
    exact if_neg Bool.false_ne_true
  have hvictim : ((m.changed ref value).updateOnlineStatus u ref.address).currentVictim ≠
      some ref.address := by
    intro hcurrent
    obtain ⟨other, hon, heq⟩ :=
      h.victim _ (hcoherent.victim_of_updateOnlineStatus ref.address hcurrent)
    exact h.apart hon href heq
  -- more threat marks the list dirty; less leaves the order alone
  by_cases hvalue : 0 < value
  · refine Settled.of_dirty (h.toCoherent.changeThreat u ref value) ?_ ?_
    · unfold ThreatManager.changeThreat ThreatManager.threatChanged
      rw [hwritten]
      simp only
      split_ifs
      · exact hnonneg.updateOnlineStatus hcoherent ref.address
      · exact hnonneg.updateOnlineStatus hcoherent ref.address
      · exact hnonneg.updateOnlineStatus hcoherent ref.address
    · unfold ThreatManager.changeThreat ThreatManager.threatChanged
      rw [hwritten]
      simp only
      rw [if_pos hvalue.ne', if_pos (Or.inr ⟨hvictim, hvalue⟩)]
  · have hsettled : (m.changed ref value).Settled := by
      refine { hcoherent with nonneg := hnonneg, ordered := fun hclean => ?_ }
      refine (h.ordered hclean).sublist ?_ rfl
      rw [hsame]
    have hupdated : ((m.changed ref value).updateOnlineStatus u ref.address).Settled := by
      refine hsettled.updateOnlineStatus ref.address fun other hat hback => ?_
      have hfind : (m.changed ref value).at? ref.address =
          if ref.address = ref.address then
            (m.at? ref.address).map fun ref => { ref with threat := ref.threat + value }
          else m.at? ref.address :=
        at_write (f := fun ref => { ref with threat := ref.threat + value }) (fun _ => rfl) ref.address
      rw [if_pos rfl, h.at_eq hin] at hfind
      have hother : { ref with threat := ref.threat + value } = other :=
        Option.some.inj (hfind.symm.trans hat)
      subst hother
      exact hok.returned hstatus hback (not_lt.mp hvalue)
    unfold ThreatManager.changeThreat
    rw [hwritten]
    simp only
    split_ifs
    · exact hupdated.threatChanged ref.address value
    · exact hupdated

/-- A change of a threat that may be. -/
theorem Settled.changeThreat (h : m.Settled) (href : ref ∈ m.all) (hok : m.ChangeOk u ref value) :
    (m.changeThreat u ref value).Settled := by
  rcases List.mem_append.mp href with hon | hoff
  · exact h.changeOnline hon hok
  · exact h.changeOffline hoff hok

theorem Settled.create (h : m.Settled) {victim : Guid}
    (hnew : victim ∉ m.all.map HostileReference.unitGuid) : (m.create victim).Settled := by
  have hthreat : ∀ other ∈ m.online, 0 ≤ other.threat := fun other hother =>
    h.nonneg other (List.mem_append_left _ hother)
  refine { h.toCoherent.create hnew with nonneg := fun ref href => ?_, ordered := fun hclean => ?_ }
  · rcases List.mem_append.mp href with hin | hin
    · rcases List.mem_append.mp hin with hold | hcreated
      · exact hthreat ref hold
      · rw [List.mem_singleton.mp hcreated]
        rfl
    · exact h.nonneg ref (List.mem_append_right _ hin)
  · refine (h.ordered hclean).append (m.newReference victim) rfl rfl ?_ ?_ ?_ h.nonneg
    · intro hcurrent
      obtain ⟨other, hin, hkey⟩ := h.victim _ hcurrent
      have hlt : other.address < m.nextAddress := h.fresh other (List.mem_append_left _ hin)
      exact absurd hkey hlt.ne
    · exact fun _ other hother => hthreat other hother
    · intro other hother _
      have hle := hthreat other hother
      show (0 : ℚ) ≤ 11 / 10 * other.threat
      linarith

end Keep

section Calls

variable (u : Units)

/-- `ChangeOk` of `HostileReference::addThreat`, and what `addThreat(victim_owner, 0.0f)` needs. -/
def RefOk (assistOk : ThreatManager → Guid → Prop) (m : ThreatManager) (ref : HostileReference)
    (value : ℚ) : Prop :=
  m.ChangeOk u ref value ∧
    (((m.changeThreat u ref value).at? ref.address).any HostileReference.valid = true → 0 ≤ value →
      ∀ owner, u.ownerOf ref.unitGuid = some owner → u.isAlive owner = true →
        assistOk (m.changeThreat u ref value) owner)

/-- `RefOk` of the reference that `addThreatDirectly` finds or creates. -/
def DirectOk (assistOk : ThreatManager → Guid → Prop) (m : ThreatManager) (victim : Guid)
    (threat : ℚ) : Prop :=
  ¬(victim = u.owner ∨ u.isAlive victim = false ∨ u.isInMap victim = false) →
    match byTarget m.online victim with
    | some ref => m.RefOk u assistOk ref threat
    | none =>
        match byTarget m.offline victim with
        | some ref => m.RefOk u assistOk ref threat
        | none => (m.create victim).RefOk u assistOk (m.newReference victim) threat

/-- `DirectOk` of both calls of `addOwner`, and so on. -/
def OwnerOk : ℕ → ThreatManager → Guid → Prop
  | 0, _, _ => True
  | depth + 1, m, victim =>
      ¬(victim = u.owner ∨ u.isGameMaster victim ∨ u.isAlive victim = false ∨ u.ownerAlive = false) →
        (∀ owner, u.ownerOf victim = some owner → u.transfersThreat victim = true →
          m.DirectOk u (OwnerOk depth) owner 0) ∧
        DirectOk u (OwnerOk depth)
          (match u.ownerOf victim with
          | some owner =>
              if u.transfersThreat victim then m.addDirectly u (addOwner u depth) owner 0 else m
          | none => m) victim 0

/-- What a call meets that leaves no clean list out of order. The targets that `getHostileTarget` looks at
are as they usually are. -/
def CallOk (m : ThreatManager) : Call → Prop
  | .addThreatDirectly u depth victim threat => m.DirectOk u (OwnerOk u depth) victim threat
  | .modifyThreatPercent u depth victim percent =>
      ∀ ref, byTarget m.online victim = some ref → ¬percent < -100 →
        m.RefOk u (OwnerOk u depth) ref
          (if percent = -100 then -ref.threat else ref.threat * percent / 100)
  | .tauntApply u depth taunter =>
      ∀ ref victim, byTarget m.online taunter = some ref → m.victimRef = some victim →
        ref.threat < victim.threat ∧ ref.tempThreatModifyer = 0 →
          RefOk u (OwnerOk u depth)
            (m.write ref.address fun other =>
              { other with tempThreatModifyer := victim.threat - ref.threat })
            { ref with tempThreatModifyer := victim.threat - ref.threat } (victim.threat - ref.threat)
  | .tauntFadeOut u depth taunter =>
      ∀ ref, byTarget m.online taunter = some ref → ref.tempThreatModifyer ≠ 0 →
        m.RefOk u (OwnerOk u depth) ref (-ref.tempThreatModifyer)
  | .setOnlineOfflineState address isOnline => isOnline = true → m.ReturnOk address
  | .updateOnlineStatus u address =>
      ∀ ref, m.at? address = some ref → onlineStatus u ref = true → m.ReturnOk address
  | .removeReference _ => True
  | .setCurrentVictimIfCan victim =>
      ∀ ref, byTarget m.online victim = some ref → m.dirty = false →
        Within ref m.online ∨ Queued ref m.online
  | .getHostileTarget s => s.Normal m.online
  | .clearReferences => True

section Assist

variable {u} {assist : ThreatManager → Guid → ThreatManager} {assistOk : ThreatManager → Guid → Prop}
  (hassist : ∀ {m : ThreatManager} (guid : Guid), m.Settled → assistOk m guid → (assist m guid).Settled)

include hassist

theorem Settled.refAddThreat {value : ℚ} (h : m.Settled) (href : ref ∈ m.all)
    (hok : m.RefOk u assistOk ref value) : (m.refAddThreat u assist ref value).Settled := by
  obtain ⟨hchange, hrest⟩ := hok
  have hchanged := h.changeThreat href hchange
  unfold ThreatManager.refAddThreat
  simp only
  split_ifs with hassists
  · cases howner : u.ownerOf ref.unitGuid with
    | none => exact hchanged
    | some owner =>
        simp only
        split_ifs with halive
        · exact hassist owner hchanged (hrest hassists.1 hassists.2 owner howner halive)
        · exact hchanged
  · exact hchanged

theorem Settled.addDirectly (h : m.Settled) (victim : Guid) (threat : ℚ)
    (hok : m.DirectOk u assistOk victim threat) : (m.addDirectly u assist victim threat).Settled := by
  unfold ThreatManager.addDirectly
  split
  · exact h
  · rename_i hguard
    have hok := hok hguard
    cases honline : byTarget m.online victim with
    | some ref =>
        rw [honline] at hok
        exact h.refAddThreat hassist (List.mem_append_left _ (mem_of_byTarget honline).1) hok
    | none =>
        rw [honline] at hok
        cases hoffline : byTarget m.offline victim with
        | some ref =>
            rw [hoffline] at hok
            exact h.refAddThreat hassist (List.mem_append_right _ (mem_of_byTarget hoffline).1) hok
        | none =>
            rw [hoffline] at hok
            have hnew : victim ∉ m.all.map HostileReference.unitGuid := by
              unfold all
              rw [List.map_append, List.mem_append, not_or]
              exact ⟨byTarget_eq_none.mp honline, byTarget_eq_none.mp hoffline⟩
            have hin : m.newReference victim ∈ (m.create victim).all :=
              List.mem_append_left _ (List.mem_append_right _ (List.mem_singleton.mpr rfl))
            have hadded := (h.create hnew).refAddThreat hassist hin hok
            simp only
            split_ifs
            · exact hadded.setOnlineOfflineState _ false fun habsurd => by cases habsurd
            · exact hadded

end Assist

variable (depth : ℕ)

theorem Settled.addOwner (h : m.Settled) (victim : Guid) (hok : OwnerOk u depth m victim) :
    (m.addOwner u depth victim).Settled := by
  induction depth generalizing m victim with
  | zero => exact h
  | succ depth ih =>
      unfold ThreatManager.addOwner
      split
      · exact h
      · rename_i hguard
        obtain ⟨hfirst, hsecond⟩ := hok hguard
        refine Settled.addDirectly (fun guid hm hok => ih hm guid hok) ?_ victim 0 hsecond
        cases howner : u.ownerOf victim with
        | none => exact h
        | some owner =>
            simp only
            split_ifs with htransfers
            · exact h.addDirectly (fun guid hm hok => ih hm guid hok) owner 0
                (hfirst owner howner htransfers)
            · exact h

theorem Settled.addThreat {value : ℚ} (h : m.Settled) (href : ref ∈ m.all)
    (hok : m.RefOk u (OwnerOk u depth) ref value) :
    (m.refAddThreat u (ThreatManager.addOwner u depth) ref value).Settled :=
  h.refAddThreat (fun guid hm hok => hm.addOwner u depth guid hok) href hok

theorem Settled.dropVictim (h : m.Settled) (address : ℕ) : (m.dropVictim address).Settled := by
  have hcoherent := h.toCoherent.dropVictim address
  unfold ThreatManager.dropVictim at hcoherent ⊢
  split_ifs at hcoherent ⊢
  · exact Settled.of_dirty hcoherent h.nonneg rfl
  · exact h

theorem Settled.removeReference (h : m.Settled) (address : ℕ) :
    (m.removeReference address).Settled := by
  have hinvalid : (m.invalidate address).Settled := by
    unfold ThreatManager.invalidate
    refine Settled.write ?_ (fun _ => rfl) (fun _ => rfl) (fun _ => rfl) fun _ => rfl
    exact h.setOnlineOfflineState address false fun habsurd => by cases habsurd
  have hdropped := hinvalid.dropVictim address
  have hcoherent := h.toCoherent.removeReference address
  unfold ThreatManager.removeReference at hcoherent ⊢
  simp only at hcoherent ⊢
  generalize (m.invalidate address).dropVictim address = m₁ at *
  cases hat : m₁.at? address with
  | none => exact hdropped
  | some ref =>
      rw [hat] at hcoherent
      simp only at hcoherent ⊢
      split_ifs at hcoherent ⊢
      · refine { hcoherent with nonneg := fun other hother => ?_, ordered := fun hclean => ?_ }
        · rcases List.mem_append.mp hother with hin | hin
          · exact hdropped.nonneg other (List.mem_append_left _ (Lib.mem_eraseKey.mp hin).1)
          · exact hdropped.nonneg other (List.mem_append_right _ hin)
        · exact (hdropped.ordered hclean).sublist List.filter_sublist rfl
      · refine { hcoherent with nonneg := fun other hother => ?_, ordered := fun hclean => ?_ }
        · rcases List.mem_append.mp hother with hin | hin
          · exact hdropped.nonneg other (List.mem_append_left _ hin)
          · exact hdropped.nonneg other (List.mem_append_right _ (Lib.mem_eraseKey.mp hin).1)
        · exact (hdropped.ordered hclean).sublist (List.Sublist.refl _) rfl

end Calls

section Run

/-- Nobody is selected from an empty list only. -/
theorem Settled.online_of_none (h : m.Settled) (hnormal : s.Normal m.online)
    (hnext : m.nextVictim s = none) : m.sort.online = [] := by
  have hsort := h.sort
  have hnormal' : s.Normal m.sort.online := fun ref href => hnormal ref (m.perm_sort.mem_iff.mp href)
  unfold ThreatManager.nextVictim selectNextVictim at hnext
  cases hvictim : m.sort.victimRef with
  | none =>
      rw [hvictim] at hnext
      cases hrefs : m.sort.online with
      | nil => rfl
      | cons first rest =>
          rw [hrefs] at hnext hnormal'
          obtain ⟨harea, hvalid, hlow⟩ := hnormal' first List.mem_cons_self
          rw [selectPass, harea, hvalid, hlow] at hnext
          simp at hnext
  | some victim =>
      have hin := hsort.toCoherent.victimRef_mem hvictim
      obtain ⟨found, hfound, -⟩ := selectPass_found hnormal'
        (hsort.nonneg victim (List.mem_append_left _ hin)) hin fun other hother heq =>
          hsort.toCoherent.same_address hin hother heq
      rw [hvictim, hfound] at hnext
      cases hnext

theorem Settled.getHostileTarget (h : m.Settled) (hnormal : s.Normal m.online) :
    (m.getHostileTarget s).1.Settled := by
  have hcoherent := h.toCoherent.step (.getHostileTarget s)
  refine { hcoherent with nonneg := h.sort.nonneg, ordered := fun _ => ?_ }
  refine ⟨fun hnone => ?_, fun victim hin hcurrent => Or.inl ?_⟩
  · have hempty := h.online_of_none hnormal (Option.map_eq_none_iff.mp hnone)
    show Descending m.sort.online
    rw [hempty]
    exact List.Pairwise.nil
  · obtain ⟨t, hnext, hkey⟩ := Option.map_eq_some_iff.mp hcurrent
    have ht := h.toCoherent.nextVictim_mem s hnext
    rw [h.sort.toCoherent.same_address ht hin hkey.symm]
    exact fun ref href => (h.nextVictim hnormal hnext).1 ref (m.perm_sort.mem_iff.mp href)

/-- A call that meets `CallOk` keeps what holds between two calls. -/
theorem Settled.step (h : m.Settled) (call : Call) (hok : m.CallOk call) : (m.step call).Settled := by
  cases call with
  | addThreatDirectly u depth victim threat =>
      exact h.addDirectly (fun guid hm hok => hm.addOwner u depth guid hok) victim threat hok
  | modifyThreatPercent u depth victim percent =>
      show (m.modifyThreatPercent u depth victim percent).Settled
      unfold modifyThreatPercent
      cases hfound : byTarget m.online victim with
      | none => exact h
      | some ref =>
          simp only
          split_ifs with hremove
          · exact h.removeReference ref.address
          · exact h.addThreat u depth (List.mem_append_left _ (mem_of_byTarget hfound).1)
              (hok ref hfound hremove)
  | tauntApply u depth taunter =>
      show (m.tauntApply u depth taunter).Settled
      unfold tauntApply
      cases hfound : byTarget m.online taunter with
      | none => exact h
      | some ref =>
          cases hvictim : m.victimRef with
          | none => exact h
          | some victim =>
              have hin : ref ∈ m.online := (mem_of_byTarget hfound).1
              -- a taunt is written beside the threat, so writing it moves nothing in the order
              have hwritten : (m.write ref.address fun other =>
                  { other with tempThreatModifyer := victim.threat - ref.threat }).Settled :=
                h.write (fun _ => rfl) (fun _ => rfl) (fun _ => rfl) fun _ => rfl
              simp only
              split_ifs with htaunts
              · unfold setTempThreat
                simp only
                split_ifs
                · refine hwritten.addThreat u depth ?_ (hok ref victim hfound hvictim htaunts)
                  refine List.mem_append_left _ (Lib.mem_writeKey.mpr ⟨ref, hin, ?_⟩)
                  rw [if_pos rfl]
                · exact hwritten
              · exact h
  | tauntFadeOut u depth taunter =>
      show (m.tauntFadeOut u depth taunter).Settled
      unfold tauntFadeOut
      cases hfound : byTarget m.online taunter with
      | none => exact h
      | some ref =>
          simp only
          unfold resetTempThreat
          split_ifs with htemp
          · refine Settled.write ?_ (fun _ => rfl) (fun _ => rfl) (fun _ => rfl) fun _ => rfl
            -- the temporary threat is taken back by a change of threat, which marks the list dirty
            exact h.addThreat u depth (List.mem_append_left _ (mem_of_byTarget hfound).1)
              (hok ref hfound htemp)
          · exact h
  | setOnlineOfflineState address isOnline => exact h.setOnlineOfflineState address isOnline hok
  | updateOnlineStatus u address => exact h.updateOnlineStatus address hok
  | removeReference address => exact h.removeReference address
  | setCurrentVictimIfCan victim =>
      have hcoherent := h.toCoherent.step (.setCurrentVictimIfCan victim)
      show (m.setCurrentVictimIfCan victim).Settled
      have hcoherent : (m.setCurrentVictimIfCan victim).Coherent := hcoherent
      unfold setCurrentVictimIfCan at hcoherent ⊢
      cases hfound : byTarget m.online victim with
      | none => exact h
      | some ref =>
          rw [hfound] at hcoherent
          refine { hcoherent with nonneg := h.nonneg, ordered := fun hclean => ?_ }
          refine ⟨fun hnone => ?_, fun other hother hcurrent => ?_⟩
          · cases hnone
          · have hkey : ref.address = other.address := Option.some.inj hcurrent
            rw [h.same_address (mem_of_byTarget hfound).1 hother hkey.symm]
            exact hok ref hfound hclean
  | getHostileTarget s => exact h.getHostileTarget hok
  | clearReferences =>
      -- an empty list is in order
      refine { h.toCoherent.step .clearReferences with
        nonneg := fun _ href => (List.not_mem_nil href).elim
        ordered := fun _ => ⟨fun _ => List.Pairwise.nil, fun _ hin => (List.not_mem_nil hin).elim⟩ }

theorem empty_settled : empty.Settled :=
  { empty_coherent with
    nonneg := fun _ href => (List.not_mem_nil href).elim
    ordered := fun _ => ⟨fun _ => List.Pairwise.nil, fun _ hin => (List.not_mem_nil hin).elim⟩ }

theorem run_settled {calls : List Call} (hok : Lib.Along CallOk step empty calls) :
    (Lib.run step empty calls).Settled :=
  Lib.run_invariant Settled (fun _ call hok h => h.step call hok) empty_settled hok

/-- After calls that leave no clean list out of order, nobody who is online has more than 1.3 times the
threat of the target that `getHostileTarget` returns, and nobody has more than it when there was no victim. -/
theorem run_target {calls : List Call} (hok : Lib.Along CallOk step empty calls)
    (hnormal : s.Normal (Lib.run step empty calls).online) {guid : Guid}
    (htarget : ((Lib.run step empty calls).getHostileTarget s).2 = some guid) :
    ∃ t ∈ (Lib.run step empty calls).online, t.unitGuid = guid ∧
      Within t (Lib.run step empty calls).online ∧
      ((Lib.run step empty calls).currentVictim = none →
        ∀ ref ∈ (Lib.run step empty calls).online, ref.threat ≤ t.threat) := by
  have h := run_settled hok
  obtain ⟨t, hnext, rfl⟩ := Option.map_eq_some_iff.mp htarget
  obtain ⟨hwithin, hmax⟩ := h.nextVictim hnormal hnext
  exact ⟨t, (perm_sort _).mem_iff.mp (h.toCoherent.nextVictim_mem s hnext), rfl, hwithin, hmax⟩

end Run

section Example

/-- Units that are alive and near, without owners. -/
def plainUnits : Units :=
  ⟨0, true, fun _ => true, fun _ => false, fun _ => false, fun _ => true, fun _ => true, fun _ => none,
    fun _ => false⟩

/-- Targets that are near. -/
def plainSight : Sight := ⟨fun _ => false, fun _ => true, fun _ => false, fun _ => true⟩

/-- Gaining threat is fine for one who is online and has no owner. -/
theorem refOk_gain {m : ThreatManager} {ref : HostileReference} {value : ℚ}
    {assistOk : ThreatManager → Guid → Prop} (honline : ref.online = true) (hthreat : 0 ≤ ref.threat)
    (hvalue : 0 ≤ value) : m.RefOk plainUnits assistOk ref value := by
  refine ⟨⟨add_nonneg hthreat hvalue, fun _ hneg => absurd hneg (not_lt.mpr hvalue), fun hoff => ?_⟩,
    fun _ _ owner howner => ?_⟩
  · rw [honline] at hoff
    cases hoff
  · cases howner

/-- Two attackers, of whom the first is the victim; the second loses half of his threat and then gains
more than a tenth over the first. -/
def rivalCalls : List Call :=
  [.addThreatDirectly plainUnits 1 1 10, .addThreatDirectly plainUnits 1 2 5,
    .getHostileTarget plainSight, .modifyThreatPercent plainUnits 1 2 (-50), .setCurrentVictimIfCan 1,
    .addThreatDirectly plainUnits 1 2 9]

/-- The two attackers after all but the last call. -/
theorem run_rivals : (Lib.run step empty (rivalCalls.take 3)).online =
      [⟨0, 1, 10, 0, true, true⟩, ⟨1, 2, 5, 0, true, true⟩] ∧
    (Lib.run step empty (rivalCalls.take 3)).currentVictim = some 0 ∧
    (Lib.run step empty (rivalCalls.take 4)).online =
      [⟨0, 1, 10, 0, true, true⟩, ⟨1, 2, 5 / 2, 0, true, true⟩] ∧
    (Lib.run step empty (rivalCalls.take 5)).online =
      [⟨0, 1, 10, 0, true, true⟩, ⟨1, 2, 5 / 2, 0, true, true⟩] := by
  decide +kernel

section Rivals

variable {m : ThreatManager} {first second : ℚ}

/-- The last of two attackers may lose threat, since nobody is behind him. -/
theorem callOk_last (honline : m.online = [⟨0, 1, first, 0, true, true⟩, ⟨1, 2, second, 0, true, true⟩])
    (hvictim : m.currentVictim = some 0) (hsecond : 0 ≤ second) :
    m.CallOk (.modifyThreatPercent plainUnits 1 2 (-50)) := by
  intro ref href _
  rw [honline] at href
  obtain rfl : _ = ref := Option.some.inj href
  have hvalue : second * ((-50 : ℤ) : ℚ) / 100 = -(second / 2) := by
    push_cast
    ring
  rw [if_neg (by decide), hvalue]
  refine ⟨⟨?_, fun _ _ _ _ => ⟨fun hnone => ?_, fun victim _ _ => Or.inr fun l₁ l₂ hsplit other hother => ?_⟩,
    fun hoff => by cases hoff⟩, fun _ _ owner howner => by cases howner⟩
  · show (0 : ℚ) ≤ second + -(second / 2)
    linarith
  · rw [hvictim] at hnone
    cases hnone
  · -- the list ends with him
    rw [honline] at hsplit
    rcases l₁ with _ | ⟨_, _ | ⟨_, l₁⟩⟩
    · cases hsplit
    · cases hsplit
      cases hother
    · have hlength := congrArg List.length hsplit
      simp only [List.length_cons, List.length_nil, List.length_append] at hlength
      omega

/-- The first of two attackers may be the victim, if the second has not much more threat. -/
theorem callOk_forced (honline : m.online = [⟨0, 1, first, 0, true, true⟩, ⟨1, 2, second, 0, true, true⟩])
    (hfirst : 0 ≤ first) (hsecond : second ≤ first) : m.CallOk (.setCurrentVictimIfCan 1) := by
  intro ref href _
  rw [honline] at href ⊢
  obtain rfl : _ = ref := Option.some.inj href
  refine Or.inl fun other hother => ?_
  show other.threat ≤ 13 / 10 * first
  rcases List.mem_pair.mp hother with rfl | rfl
  · show first ≤ 13 / 10 * first
    linarith
  · show second ≤ 13 / 10 * first
    linarith

/-- The second of two attackers may gain threat. -/
theorem callOk_gain (honline : m.online = [⟨0, 1, first, 0, true, true⟩, ⟨1, 2, second, 0, true, true⟩])
    (hsecond : 0 ≤ second) {value : ℚ} (hvalue : 0 ≤ value) :
    m.CallOk (.addThreatDirectly plainUnits 1 2 value) := by
  intro _
  have hfound : byTarget m.online 2 = some ⟨1, 2, second, 0, true, true⟩ := by
    rw [honline]
    rfl
  rw [hfound]
  exact refOk_gain rfl hsecond hvalue

end Rivals

/-- The calls leave no clean list out of order. -/
theorem along_rivals : Lib.Along CallOk step empty rivalCalls := by
  obtain ⟨honline, hvictim, hlowered, hforced⟩ := run_rivals
  refine ⟨fun _ => ?_, fun _ => ?_, fun _ _ => ⟨rfl, rfl, rfl⟩, callOk_last honline hvictim (by norm_num),
    callOk_forced hlowered (by norm_num) (by norm_num),
    callOk_gain hforced (by norm_num) (by decide +kernel), trivial⟩
  · exact @refOk_gain _ (newReference empty 1) _ _ rfl (le_refl _) (by decide +kernel)
  · exact @refOk_gain _ (newReference _ 2) _ _ rfl (le_refl _) (by decide +kernel)

/-- The second attacker is the target, and the first has not more than 1.3 times his threat. -/
theorem run_target_rivals : (Lib.run step empty rivalCalls).currentVictim = some 0 ∧
    (Lib.run step empty rivalCalls).online.map (fun ref => (ref.unitGuid, ref.threat)) =
      [(1, 10), (2, 23 / 2)] ∧
    ∃ t ∈ (Lib.run step empty rivalCalls).online, t.unitGuid = 2 ∧
      Within t (Lib.run step empty rivalCalls).online ∧
      ((Lib.run step empty rivalCalls).currentVictim = none →
        ∀ ref ∈ (Lib.run step empty rivalCalls).online, ref.threat ≤ t.threat) :=
  ⟨by decide +kernel, by decide +kernel,
    run_target (s := plainSight) along_rivals (fun _ _ => ⟨rfl, rfl, rfl⟩) (by decide +kernel)⟩

/-- Two attackers, and a forced victim who gains threat, until another is forced. -/
def forcedCalls : List Call :=
  [.addThreatDirectly plainUnits 1 1 10, .addThreatDirectly plainUnits 1 2 5,
    .getHostileTarget plainSight, .setCurrentVictimIfCan 2, .addThreatDirectly plainUnits 1 2 95,
    .setCurrentVictimIfCan 1]

/-- The threat of the forced victim was not noticed: the next target has a tenth of it. -/
theorem run_forced :
    ((Lib.run step empty forcedCalls).getHostileTarget plainSight).2 = some 1 ∧
      (Lib.run step empty forcedCalls).online.map
        (fun ref => (ref.unitGuid, ref.threat)) = [(1, 10), (2, 100)] := by
  decide +kernel

end Example

end ThreatManager

end TwowCore.Threat

import TwowCore.Threat.Manager

/-!
# The containers of a threat manager

Whatever is called, a unit has at most one reference over the two containers, each lies in the container
of its status, and the current victim is one that is online.
-/

namespace TwowCore.Threat

namespace ThreatManager

/-- The references of both containers. -/
def all (m : ThreatManager) : List HostileReference := m.online ++ m.offline

/-- What the containers promise. -/
structure Coherent (m : ThreatManager) : Prop where
  single : (m.all.map HostileReference.unitGuid).Nodup
  distinct : (m.all.map HostileReference.address).Nodup
  online : ∀ ref ∈ m.online, ref.online = true
  offline : ∀ ref ∈ m.offline, ref.online = false
  victim : ∀ address, m.currentVictim = some address → ∃ ref ∈ m.online, ref.address = address
  fresh : ∀ ref ∈ m.all, ref.address < m.nextAddress

variable {m m' : ThreatManager} {ref : HostileReference} {address : ℕ}
  {f : HostileReference → HostileReference}

theorem empty_coherent : empty.Coherent where
  single := List.nodup_nil
  distinct := List.nodup_nil
  online _ href := (List.not_mem_nil href).elim
  offline _ href := (List.not_mem_nil href).elim
  victim _ hvictim := by cases hvictim
  fresh _ href := (List.not_mem_nil href).elim

/-- The reference of an address is found. -/
theorem Coherent.at_eq (h : m.Coherent) (href : ref ∈ m.all) : m.at? ref.address = some ref :=
  Lib.find_key h.distinct href rfl

theorem mem_of_at (h : m.at? address = some ref) : ref ∈ m.all ∧ ref.address = address :=
  ⟨List.mem_of_find?_eq_some h, by simpa using List.find?_some h⟩

/-- One that is found by its target is in the list. -/
theorem mem_of_byTarget {refs : List HostileReference} {guid : Guid} (h : byTarget refs guid = some ref) :
    ref ∈ refs ∧ ref.unitGuid = guid :=
  ⟨List.mem_of_find?_eq_some h, by simpa using List.find?_some h⟩

theorem byTarget_eq_none {refs : List HostileReference} {guid : Guid} :
    byTarget refs guid = none ↔ guid ∉ refs.map HostileReference.unitGuid := by
  unfold byTarget
  rw [List.find?_eq_none, List.mem_map]
  simp

/-- The flag does not matter. -/
theorem Coherent.of_same (h : m.Coherent) (honline : m'.online = m.online)
    (hoffline : m'.offline = m.offline) (hvictim : m'.currentVictim = m.currentVictim)
    (hnext : m'.nextAddress = m.nextAddress) : m'.Coherent := by
  have hall : m'.all = m.all := by
    unfold all
    rw [honline, hoffline]
  exact ⟨hall ▸ h.single, hall ▸ h.distinct, honline ▸ h.online, hoffline ▸ h.offline,
    by rw [hvictim, honline]; exact h.victim, by rw [hall, hnext]; exact h.fresh⟩

section Write

variable (haddress : ∀ ref, (f ref).address = ref.address)

/-- What a write leaves alone. -/
theorem map_write {α : Type*} {g : HostileReference → α} (hg : ∀ ref, g (f ref) = g ref)
    (refs : List HostileReference) :
    (Lib.writeKey HostileReference.address address f refs).map g = refs.map g := by
  unfold Lib.writeKey
  rw [List.map_map]
  refine List.map_congr_left fun ref _ => ?_
  show g (if ref.address = address then f ref else ref) = g ref
  split_ifs
  · exact hg ref
  · rfl

theorem all_write : (m.write address f).all =
    Lib.writeKey HostileReference.address address f m.all := by
  unfold all write Lib.writeKey
  rw [List.map_append]

theorem Coherent.write (h : m.Coherent) (hguid : ∀ ref, (f ref).unitGuid = ref.unitGuid)
    (hstatus : ∀ ref, (f ref).online = ref.online) (haddress : ∀ ref, (f ref).address = ref.address) :
    (m.write address f).Coherent where
  single := by
    rw [all_write, map_write hguid]
    exact h.single
  distinct := by
    rw [all_write, map_write haddress]
    exact h.distinct
  online ref href := by
    obtain ⟨old, hold, rfl⟩ := Lib.mem_writeKey.mp href
    split_ifs
    · exact (hstatus old).trans (h.online old hold)
    · exact h.online old hold
  offline ref href := by
    obtain ⟨old, hold, rfl⟩ := Lib.mem_writeKey.mp href
    split_ifs
    · exact (hstatus old).trans (h.offline old hold)
    · exact h.offline old hold
  victim a ha := by
    obtain ⟨ref, href, hkey⟩ := h.victim a ha
    refine ⟨if ref.address = address then f ref else ref, Lib.mem_writeKey.mpr ⟨ref, href, rfl⟩, ?_⟩
    split_ifs
    · exact (haddress ref).trans hkey
    · exact hkey
  fresh ref href := by
    rw [all_write] at href
    obtain ⟨old, hold, rfl⟩ := Lib.mem_writeKey.mp href
    have hlt := h.fresh old hold
    split_ifs
    · rw [haddress]
      exact hlt
    · exact hlt

include haddress

/-- The reference after a write. -/
theorem at_write (a : ℕ) : (m.write address f).at? a =
    if a = address then (m.at? a).map f else m.at? a := by
  have hfind : (Lib.writeKey HostileReference.address address f m.all).find?
      (fun ref => decide (ref.address = a)) = if a = address then (m.at? a).map f else m.at? a :=
    Lib.find_writeKey haddress a
  rw [← all_write] at hfind
  exact hfind

end Write

section Status

/-- What `dropVictim` does. -/
theorem dropVictim_eq (m : ThreatManager) (address : ℕ) :
    m.dropVictim address =
      { m with
        dirty := m.dirty || decide (m.currentVictim = some address)
        currentVictim := if m.currentVictim = some address then none else m.currentVictim } := by
  unfold dropVictim
  by_cases hvictim : m.currentVictim = some address
  · simp [hvictim]
  · simp [hvictim]

/-- Taking out a reference that has just been written. -/
theorem eraseKey_writeKey (haddress : ∀ ref, (f ref).address = ref.address)
    (refs : List HostileReference) :
    Lib.eraseKey HostileReference.address address
        (Lib.writeKey HostileReference.address address f refs) =
      Lib.eraseKey HostileReference.address address refs := by
  induction refs with
  | nil => rfl
  | cons ref rest ih =>
      unfold Lib.eraseKey Lib.writeKey at *
      rw [List.map_cons, List.filter_cons, List.filter_cons, ih]
      by_cases hkey : ref.address = address
      · have hkey' : (f ref).address = address := (haddress ref).trans hkey
        simp [hkey, hkey']
      · simp [hkey]

/-- A reference of one container is not in the other. -/
theorem Coherent.apart (h : m.Coherent) {other : HostileReference} (href : ref ∈ m.online)
    (hother : other ∈ m.offline) : ref.address ≠ other.address := by
  have hnodup := h.distinct
  unfold all at hnodup
  rw [List.map_append] at hnodup
  exact (List.nodup_append.mp hnodup).2.2 _ (List.mem_map_of_mem href) _ (List.mem_map_of_mem hother)

/-- A reference goes offline. -/
theorem Coherent.setOffline_eq (h : m.Coherent) (href : ref ∈ m.online) :
    m.setOnlineOfflineState ref.address false =
      { m with
        online := Lib.eraseKey HostileReference.address ref.address m.online
        offline := m.offline ++ [{ ref with online := false }]
        dirty := m.dirty || decide (m.currentVictim = some ref.address)
        currentVictim := if m.currentVictim = some ref.address then none else m.currentVictim } := by
  have hat := h.at_eq (List.mem_append_left m.offline href)
  have hother : Lib.writeKey HostileReference.address ref.address
      (fun ref => { ref with online := false }) m.offline = m.offline := by
    refine Lib.writeKey_of_notMem fun hmem => ?_
    obtain ⟨other, hin, heq⟩ := List.mem_map.mp hmem
    exact h.apart href hin heq.symm
  unfold setOnlineOfflineState
  rw [hat]
  simp only [h.online ref href, Bool.true_eq_false, if_false, statusChanged, if_true, dropVictim_eq]
  simp [ThreatManager.write, hother, eraseKey_writeKey]

/-- A reference comes online. -/
theorem Coherent.setOnline_eq (h : m.Coherent) (href : ref ∈ m.offline) :
    m.setOnlineOfflineState ref.address true =
      { m with
        online := m.online ++ [{ ref with online := true }]
        offline := Lib.eraseKey HostileReference.address ref.address m.offline
        dirty := m.dirty ||
          m.victimRef.any fun victim => decide (11 / 10 * victim.threat < ref.threat) } := by
  have hat := h.at_eq (List.mem_append_right m.online href)
  have hother : Lib.writeKey HostileReference.address ref.address
      (fun ref => { ref with online := true }) m.online = m.online := by
    refine Lib.writeKey_of_notMem fun hmem => ?_
    obtain ⟨other, hin, heq⟩ := List.mem_map.mp hmem
    exact h.apart hin href heq
  have hvictim : (m.write ref.address fun ref => { ref with online := true }).victimRef =
      m.victimRef := by
    unfold victimRef
    show m.currentVictim.bind _ = _
    cases hcurrent : m.currentVictim with
    | none => rfl
    | some a =>
        obtain ⟨victim, hin, rfl⟩ := h.victim a hcurrent
        show (m.write _ _).at? victim.address = _
        rw [at_write (f := fun ref => { ref with online := true }) fun _ => rfl,
          if_neg (h.apart hin href)]
        rfl
  unfold setOnlineOfflineState
  rw [hat]
  simp only [h.offline ref href, Bool.false_eq_true, if_false, statusChanged, Bool.true_eq_false, hvictim]
  simp [ThreatManager.write, hother, eraseKey_writeKey]

/-- The status does not change. -/
theorem setOnlineOfflineState_of_same (hat : m.at? address = some ref) :
    m.setOnlineOfflineState address ref.online = m := by
  unfold setOnlineOfflineState
  rw [hat]
  exact if_pos rfl

/-- What may come of a change of the status: nothing, or the reference goes, or it comes. -/
theorem Coherent.setOnlineOfflineState_cases (h : m.Coherent) (address : ℕ) (isOnline : Bool) :
    m.setOnlineOfflineState address isOnline = m ∨
      (∃ ref ∈ m.online, ref.address = address ∧ isOnline = false) ∨
      ∃ ref ∈ m.offline, ref.address = address ∧ isOnline = true := by
  cases hat : m.at? address with
  | none =>
      left
      unfold setOnlineOfflineState
      rw [hat]
  | some ref =>
      obtain ⟨hin, hkey⟩ := mem_of_at hat
      by_cases hsame : ref.online = isOnline
      · exact Or.inl (hsame ▸ setOnlineOfflineState_of_same hat)
      · right
        rcases List.mem_append.mp hin with hon | hoff
        · rw [h.online ref hon] at hsame
          exact Or.inl ⟨ref, hon, hkey, by simpa using hsame⟩
        · rw [h.offline ref hoff] at hsame
          exact Or.inr ⟨ref, hoff, hkey, by simpa using hsame⟩

end Status

section Calls

/-- What tells references apart. -/
def tag (ref : HostileReference) : ℕ × Guid := (ref.address, ref.unitGuid)

/-- The containers stay as they should be when they have no references but those of before. -/
theorem Coherent.reduce (h : m.Coherent) (hsub : (m'.all.map tag).Subperm (m.all.map tag))
    (hnext : m'.nextAddress = m.nextAddress) (honline : ∀ ref ∈ m'.online, ref.online = true)
    (hoffline : ∀ ref ∈ m'.offline, ref.online = false)
    (hvictim : ∀ a, m'.currentVictim = some a → ∃ ref ∈ m'.online, ref.address = a) :
    m'.Coherent := by
  have hnodup : ∀ {α : Type} (g : ℕ × Guid → α), (m.all.map fun ref => g (tag ref)).Nodup →
      (m'.all.map fun ref => g (tag ref)).Nodup := by
    intro α g hold
    obtain ⟨l, hperm, hsublist⟩ := hsub
    have hold' : ((m.all.map tag).map g).Nodup := by
      rw [List.map_map]
      exact hold
    have hnew := (hperm.map g).nodup_iff.mp (List.Nodup.sublist (hsublist.map g) hold')
    rw [List.map_map] at hnew
    exact hnew
  refine ⟨hnodup Prod.snd h.single, hnodup Prod.fst h.distinct, honline, hoffline, hvictim,
    fun ref href => ?_⟩
  obtain ⟨old, hold, heq⟩ := List.mem_map.mp (hsub.subset (List.mem_map_of_mem href))
  rw [hnext, show ref.address = old.address from (congrArg Prod.fst heq).symm]
  exact h.fresh old hold

theorem Coherent.distinct_online (h : m.Coherent) : (m.online.map HostileReference.address).Nodup :=
  List.Nodup.sublist ((List.sublist_append_left _ _).map _) h.distinct

theorem Coherent.distinct_offline (h : m.Coherent) : (m.offline.map HostileReference.address).Nodup :=
  List.Nodup.sublist ((List.sublist_append_right _ _).map _) h.distinct

/-- A victim stays when another reference goes. -/
theorem Coherent.victim_erase (h : m.Coherent) {a : ℕ} (ha : m.currentVictim = some a)
    (hne : a ≠ address) :
    ∃ ref ∈ Lib.eraseKey HostileReference.address address m.online, ref.address = a := by
  obtain ⟨ref, href, rfl⟩ := h.victim a ha
  exact ⟨ref, Lib.mem_eraseKey.mpr ⟨href, hne⟩, rfl⟩

theorem Coherent.setOnlineOfflineState (h : m.Coherent) (address : ℕ) (isOnline : Bool) :
    (m.setOnlineOfflineState address isOnline).Coherent := by
  rcases h.setOnlineOfflineState_cases address isOnline with hsame | ⟨ref, href, rfl, rfl⟩ |
    ⟨ref, href, rfl, rfl⟩
  · rwa [hsame]
  · rw [h.setOffline_eq href]
    refine h.reduce ?_ rfl ?_ ?_ ?_
    · have hperm := (Lib.perm_eraseKey h.distinct_online href rfl).map tag
      refine List.Perm.subperm ?_
      show ((Lib.eraseKey HostileReference.address ref.address m.online ++
        (m.offline ++ [{ ref with online := false }])).map tag).Perm ((m.online ++ m.offline).map tag)
      rw [List.map_append, List.map_append, List.map_append, ← List.append_assoc]
      refine List.perm_append_comm.trans ?_
      exact hperm.symm.append_right (m.offline.map tag)
    · exact fun other hother => h.online other (Lib.mem_eraseKey.mp hother).1
    · intro other hother
      rcases List.mem_append.mp hother with hold | hnew
      · exact h.offline other hold
      · rw [List.mem_singleton.mp hnew]
    · intro a ha
      dsimp only at ha
      split_ifs at ha with hvictim
      exact h.victim_erase ha fun heq => hvictim (heq ▸ ha)
  · rw [h.setOnline_eq href]
    refine h.reduce ?_ rfl ?_ ?_ ?_
    · have hperm := (Lib.perm_eraseKey h.distinct_offline href rfl).map tag
      refine List.Perm.subperm ?_
      show ((m.online ++ [{ ref with online := true }] ++
        Lib.eraseKey HostileReference.address ref.address m.offline).map tag).Perm
          ((m.online ++ m.offline).map tag)
      rw [List.append_assoc, List.map_append, List.map_append, List.map_append]
      exact hperm.symm.append_left (m.online.map tag)
    · intro other hother
      rcases List.mem_append.mp hother with hold | hnew
      · exact h.online other hold
      · rw [List.mem_singleton.mp hnew]
    · exact fun other hother => h.offline other (Lib.mem_eraseKey.mp hother).1
    · intro a ha
      obtain ⟨victim, hin, hkey⟩ := h.victim a ha
      exact ⟨victim, List.mem_append_left _ hin, hkey⟩

theorem Coherent.updateOnlineStatus (h : m.Coherent) (u : Units) (address : ℕ) :
    (m.updateOnlineStatus u address).Coherent := by
  unfold ThreatManager.updateOnlineStatus
  cases m.at? address with
  | none => exact h
  | some ref =>
      refine Coherent.setOnlineOfflineState ?_ address _
      exact h.write (fun _ => rfl) (fun _ => rfl) fun _ => rfl

theorem Coherent.writeThreat (h : m.Coherent) (u : Units) (ref : HostileReference) (value : ℚ) :
    (m.writeThreat u ref value).Coherent := by
  have hwritten : (m.write ref.address fun ref =>
      { ref with threat := ref.threat + value }).Coherent :=
    h.write (fun _ => rfl) (fun _ => rfl) fun _ => rfl
  unfold ThreatManager.writeThreat
  simp only
  split_ifs
  · exact hwritten
  · exact hwritten.updateOnlineStatus u ref.address

theorem Coherent.threatChanged (h : m.Coherent) (address : ℕ) (value : ℚ) :
    (m.threatChanged address value).Coherent := by
  unfold ThreatManager.threatChanged
  split_ifs
  · exact h.of_same rfl rfl rfl rfl
  · exact h

theorem Coherent.changeThreat (h : m.Coherent) (u : Units) (ref : HostileReference) (value : ℚ) :
    (m.changeThreat u ref value).Coherent := by
  have hwritten := h.writeThreat u ref value
  unfold ThreatManager.changeThreat
  simp only
  split_ifs
  · exact hwritten.threatChanged ref.address value
  · exact hwritten

theorem Coherent.create (h : m.Coherent) {victim : Guid}
    (hnew : victim ∉ m.all.map HostileReference.unitGuid) : (m.create victim).Coherent := by
  have hall : (m.create victim).all.Perm (m.newReference victim :: m.all) := by
    show (m.online ++ [m.newReference victim] ++ m.offline).Perm _
    rw [List.append_assoc]
    exact List.perm_middle
  have haddress : m.nextAddress ∉ m.all.map HostileReference.address := by
    intro hmem
    obtain ⟨ref, href, heq⟩ := List.mem_map.mp hmem
    have hlt := h.fresh ref href
    omega
  refine ⟨?_, ?_, fun ref href => ?_, h.offline, fun a ha => ?_, fun ref href => ?_⟩
  · refine (hall.map _).nodup_iff.mpr ?_
    rw [List.map_cons]
    exact List.nodup_cons.mpr ⟨hnew, h.single⟩
  · refine (hall.map _).nodup_iff.mpr ?_
    rw [List.map_cons]
    exact List.nodup_cons.mpr ⟨haddress, h.distinct⟩
  · rcases List.mem_append.mp href with hold | hcreated
    · exact h.online ref hold
    · rw [List.mem_singleton.mp hcreated]
      rfl
  · obtain ⟨ref, href, hkey⟩ := h.victim a ha
    exact ⟨ref, List.mem_append_left _ href, hkey⟩
  · show ref.address < m.nextAddress + 1
    rcases List.mem_cons.mp (hall.mem_iff.mp href) with rfl | hold
    · exact Nat.lt_succ_self _
    · exact Nat.lt_succ_of_lt (h.fresh ref hold)

section Assist

variable (u : Units) {assist : ThreatManager → Guid → ThreatManager}
  (hassist : ∀ {m : ThreatManager} (guid : Guid), m.Coherent → (assist m guid).Coherent)

include hassist

theorem Coherent.refAddThreat (h : m.Coherent) (ref : HostileReference) (value : ℚ) :
    (m.refAddThreat u assist ref value).Coherent := by
  have hchanged := h.changeThreat u ref value
  unfold ThreatManager.refAddThreat
  simp only
  split_ifs
  · cases u.ownerOf ref.unitGuid with
    | none => exact hchanged
    | some owner =>
        simp only
        split_ifs
        · exact hassist owner hchanged
        · exact hchanged
  · exact hchanged

theorem Coherent.addDirectly (h : m.Coherent) (victim : Guid) (threat : ℚ) :
    (m.addDirectly u assist victim threat).Coherent := by
  unfold ThreatManager.addDirectly
  split
  · exact h
  · cases honline : byTarget m.online victim with
    | some ref => exact h.refAddThreat u hassist ref threat
    | none =>
        cases hoffline : byTarget m.offline victim with
        | some ref => exact h.refAddThreat u hassist ref threat
        | none =>
            have hnew : victim ∉ m.all.map HostileReference.unitGuid := by
              unfold all
              rw [List.map_append, List.mem_append, not_or]
              exact ⟨byTarget_eq_none.mp honline, byTarget_eq_none.mp hoffline⟩
            have hadded := (h.create hnew).refAddThreat u hassist (m.newReference victim) threat
            simp only
            split_ifs
            · exact hadded.setOnlineOfflineState _ false
            · exact hadded

end Assist

variable (u : Units) (depth : ℕ)

/-- The owners of a target, one after the other. -/
theorem Coherent.addOwner (h : m.Coherent) (victim : Guid) : (m.addOwner u depth victim).Coherent := by
  induction depth generalizing m victim with
  | zero => exact h
  | succ depth ih =>
      unfold ThreatManager.addOwner
      split
      · exact h
      · refine Coherent.addDirectly u (fun guid hm => ih hm guid) ?_ victim 0
        cases u.ownerOf victim with
        | none => exact h
        | some owner =>
            simp only
            split_ifs
            · exact h.addDirectly u (fun guid hm => ih hm guid) owner 0
            · exact h

theorem Coherent.addThreatDirectly (h : m.Coherent) (victim : Guid) (threat : ℚ) :
    (m.addThreatDirectly u depth victim threat).Coherent :=
  h.addDirectly u (fun guid hm => hm.addOwner u depth guid) victim threat

theorem Coherent.addThreat (h : m.Coherent) (ref : HostileReference) (value : ℚ) :
    (m.refAddThreat u (ThreatManager.addOwner u depth) ref value).Coherent :=
  h.refAddThreat u (fun guid hm => hm.addOwner u depth guid) ref value

theorem Coherent.dropVictim (h : m.Coherent) (address : ℕ) : (m.dropVictim address).Coherent := by
  rw [dropVictim_eq]
  refine { h with victim := fun a ha => ?_ }
  dsimp only at ha
  split_ifs at ha
  exact h.victim a ha

theorem Coherent.removeReference (h : m.Coherent) (address : ℕ) :
    (m.removeReference address).Coherent := by
  have hinvalid : (m.invalidate address).Coherent := by
    unfold ThreatManager.invalidate
    exact (h.setOnlineOfflineState address false).write (fun _ => rfl) (fun _ => rfl) fun _ => rfl
  have hdropped := hinvalid.dropVictim address
  have hnone : ((m.invalidate address).dropVictim address).currentVictim ≠ some address := by
    rw [dropVictim_eq]
    dsimp only
    split_ifs with heq
    · exact Option.some_ne_none address |>.symm
    · exact heq
  unfold ThreatManager.removeReference
  simp only
  generalize (m.invalidate address).dropVictim address = m₁ at *
  cases m₁.at? address with
  | none => exact hdropped
  | some ref =>
      simp only
      split_ifs
      · refine hdropped.reduce ?_ rfl ?_ hdropped.offline ?_
        · refine List.Sublist.subperm ?_
          show ((Lib.eraseKey HostileReference.address address m₁.online ++ m₁.offline).map tag).Sublist
            ((m₁.online ++ m₁.offline).map tag)
          exact (List.filter_sublist.append_right m₁.offline).map tag
        · exact fun other hother => hdropped.online other (Lib.mem_eraseKey.mp hother).1
        · exact fun a ha => hdropped.victim_erase ha fun heq => hnone (heq ▸ ha)
      · refine hdropped.reduce ?_ rfl hdropped.online ?_ hdropped.victim
        · refine List.Sublist.subperm ?_
          show ((m₁.online ++ Lib.eraseKey HostileReference.address address m₁.offline).map tag).Sublist
            ((m₁.online ++ m₁.offline).map tag)
          exact (List.filter_sublist.append_left m₁.online).map tag
        · exact fun other hother => hdropped.offline other (Lib.mem_eraseKey.mp hother).1

theorem Coherent.modifyThreatPercent (h : m.Coherent) (victim : Guid) (percent : ℤ) :
    (m.modifyThreatPercent u depth victim percent).Coherent := by
  unfold ThreatManager.modifyThreatPercent
  cases byTarget m.online victim with
  | none => exact h
  | some ref =>
      simp only
      split_ifs
      · exact h.removeReference ref.address
      · exact h.addThreat u depth ref _

theorem Coherent.tauntApply (h : m.Coherent) (taunter : Guid) :
    (m.tauntApply u depth taunter).Coherent := by
  unfold ThreatManager.tauntApply
  cases byTarget m.online taunter with
  | none => exact h
  | some ref =>
      cases m.victimRef with
      | none => exact h
      | some victim =>
          have hwritten : (m.write ref.address fun other =>
              { other with tempThreatModifyer := victim.threat - ref.threat }).Coherent :=
            h.write (fun _ => rfl) (fun _ => rfl) fun _ => rfl
          simp only
          unfold ThreatManager.setTempThreat
          simp only
          split_ifs
          · exact hwritten.addThreat u depth _ _
          · exact hwritten
          · exact h

theorem Coherent.tauntFadeOut (h : m.Coherent) (taunter : Guid) :
    (m.tauntFadeOut u depth taunter).Coherent := by
  unfold ThreatManager.tauntFadeOut
  cases byTarget m.online taunter with
  | none => exact h
  | some ref =>
      simp only
      unfold ThreatManager.resetTempThreat
      split_ifs
      · exact (h.addThreat u depth ref _).write (fun _ => rfl) (fun _ => rfl) fun _ => rfl
      · exact h

/-- Sorting moves references around. -/
theorem perm_sort (m : ThreatManager) : m.sort.online.Perm m.online := by
  unfold ThreatManager.sort
  dsimp only
  split_ifs
  · exact List.perm_insertionSort _ m.online
  · exact List.Perm.refl _

theorem Coherent.sort (h : m.Coherent) : m.sort.Coherent := by
  have hperm := m.perm_sort
  refine h.reduce ?_ rfl ?_ h.offline ?_
  · refine List.Perm.subperm ?_
    exact (hperm.append_right m.offline).map tag
  · exact fun ref href => h.online ref (hperm.mem_iff.mp href)
  · intro a ha
    obtain ⟨ref, href, hkey⟩ := h.victim a ha
    exact ⟨ref, hperm.mem_iff.mpr href, hkey⟩

end Calls

section Select

variable (s : Sight) {refs : List HostileReference} {current : Option HostileReference}

/-- A pass finds a reference of the list or the current victim, and loses nothing but that. -/
theorem selectPass_mem (low : Bool) :
    (∀ ref, selectPass s low current refs = .found ref → ref ∈ refs ∨ current = some ref) ∧
      ∀ left, selectPass s low current refs = .missed left → left = none ∨ left = current := by
  induction refs generalizing current with
  | nil =>
      refine ⟨fun ref hfound => ?_, fun left hmissed => ?_⟩
      · cases hfound
      · cases hmissed
        exact Or.inr rfl
  | cons ref rest ih =>
      unfold selectPass
      split_ifs
      · refine ⟨fun _ hfound => ?_, fun _ hmissed => ?_⟩
        · cases hfound
        · cases hmissed
      -- a victim who cannot be attacked is passed over and dropped
      · obtain ⟨hfound, hmissed⟩ :=
          @ih (current.filter fun victim => decide (victim.address ≠ ref.address))
        have hfilter : ∀ other, (current.filter fun victim =>
            decide (victim.address ≠ ref.address)) = some other → current = some other := by
          intro other hother
          exact (Option.filter_eq_some_iff.mp hother).1
        refine ⟨fun other hother => ?_, fun left hleft => ?_⟩
        · rcases hfound other hother with hin | hcurrent
          · exact Or.inl (List.mem_cons_of_mem _ hin)
          · exact Or.inr (hfilter other hcurrent)
        · rcases hmissed left hleft with hnone | hsame
          · exact Or.inl hnone
          · cases left with
            | none => exact Or.inl rfl
            | some other => exact Or.inr (hfilter other hsame.symm).symm
      · cases current with
        | none =>
            refine ⟨fun other hother => ?_, fun _ hmissed => by cases hmissed⟩
            cases hother
            exact Or.inl List.mem_cons_self
        | some victim =>
            simp only
            split_ifs
            · refine ⟨fun other hother => ?_, fun _ hmissed => by cases hmissed⟩
              cases hother
              exact Or.inr rfl
            · refine ⟨fun other hother => ?_, fun _ hmissed => by cases hmissed⟩
              cases hother
              exact Or.inl List.mem_cons_self
            -- neither is chosen here; the pass goes on with the same victim
            · obtain ⟨hfound, hmissed⟩ := @ih (some victim)
              refine ⟨fun other hother => ?_, hmissed⟩
              rcases hfound other hother with hin | hcurrent
              · exact Or.inl (List.mem_cons_of_mem _ hin)
              · exact Or.inr hcurrent

/-- `selectNextVictim` returns a reference of the list or the current victim. -/
theorem selectNextVictim_mem {ref : HostileReference}
    (h : selectNextVictim s refs current = some ref) : ref ∈ refs ∨ current = some ref := by
  unfold selectNextVictim at h
  obtain ⟨hfound, hmissed⟩ := @selectPass_mem s refs current false
  cases hfirst : selectPass s false current refs with
  | nobody =>
      rw [hfirst] at h
      cases h
  | found other =>
      rw [hfirst] at h
      cases h
      exact hfound ref hfirst
  | missed left =>
      rw [hfirst] at h
      simp only at h
      cases hsecond : selectPass s true left refs with
      | nobody =>
          rw [hsecond] at h
          cases h
      | missed later =>
          rw [hsecond] at h
          cases h
      | found other =>
          rw [hsecond] at h
          cases h
          rcases (selectPass_mem s true).1 ref hsecond with hin | hleft
          · exact Or.inl hin
          · rcases hmissed left hfirst with hnone | hsame
            · rw [hnone] at hleft
              cases hleft
            · exact Or.inr (hsame ▸ hleft)

/-- The record of the current victim is in the online container. -/
theorem Coherent.victimRef_mem (h : m.Coherent) (hvictim : m.victimRef = some ref) : ref ∈ m.online := by
  unfold ThreatManager.victimRef at hvictim
  cases hcurrent : m.currentVictim with
  | none =>
      rw [hcurrent] at hvictim
      cases hvictim
  | some a =>
      obtain ⟨victim, hin, rfl⟩ := h.victim a hcurrent
      rw [hcurrent] at hvictim
      have hat : m.at? victim.address = some ref := hvictim
      rw [h.at_eq (List.mem_append_left _ hin)] at hat
      cases hat
      exact hin

/-- The next victim is online. -/
theorem Coherent.nextVictim_mem (h : m.Coherent) (hnext : m.nextVictim s = some ref) :
    ref ∈ m.sort.online := by
  rcases selectNextVictim_mem s hnext with hin | hcurrent
  · exact hin
  · exact h.sort.victimRef_mem hcurrent

end Select

/-- Every call keeps the containers as they should be. -/
theorem Coherent.step (h : m.Coherent) (call : Call) : (m.step call).Coherent := by
  cases call with
  | addThreatDirectly u depth victim threat => exact h.addThreatDirectly u depth victim threat
  | modifyThreatPercent u depth victim percent => exact h.modifyThreatPercent u depth victim percent
  | tauntApply u depth taunter => exact h.tauntApply u depth taunter
  | tauntFadeOut u depth taunter => exact h.tauntFadeOut u depth taunter
  | setOnlineOfflineState address isOnline => exact h.setOnlineOfflineState address isOnline
  | updateOnlineStatus u address => exact h.updateOnlineStatus u address
  | removeReference address => exact h.removeReference address
  | setCurrentVictimIfCan victim =>
      show (m.setCurrentVictimIfCan victim).Coherent
      unfold setCurrentVictimIfCan
      cases hfound : byTarget m.online victim with
      | none => exact h
      | some ref =>
          refine { h with victim := fun a ha => ?_ }
          cases ha
          exact ⟨ref, (mem_of_byTarget hfound).1, rfl⟩
  | getHostileTarget s =>
      refine { h.sort with victim := fun a ha => ?_ }
      obtain ⟨ref, hnext, rfl⟩ := Option.map_eq_some_iff.mp ha
      exact ⟨ref, h.nextVictim_mem s hnext, rfl⟩
  | clearReferences =>
      refine ⟨List.nodup_nil, List.nodup_nil, fun _ href => (List.not_mem_nil href).elim,
        fun _ href => (List.not_mem_nil href).elim, fun _ hvictim => ?_,
        fun _ href => (List.not_mem_nil href).elim⟩
      cases hvictim

/-- After any calls a unit has at most one reference, every reference lies in the container of its status,
and the current victim is none or one that is online. -/
theorem run_containers (calls : List Call) : (Lib.run step empty calls).Coherent :=
  Lib.run_invariant Coherent (fun _ call (_ : True) h => h.step call) empty_coherent
    (Lib.along_of_forall (fun _ _ => trivial) empty calls)

end ThreatManager

end TwowCore.Threat

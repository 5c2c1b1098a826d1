import TwowCore.Lib.Run
import TwowCore.Realmd.AuthSocket

/-!
# Safety of the login protocol

Connections share `keyCache`; an event is bytes that arrive at a connection, or one turn of the loop
of `OnRead` there. `Safe` says what the protocol promises of a connection: at most one challenge and
one proof are processed, a connection is authed by a logon proof for the account of its own
challenge or by a reconnect proof for a key cached under its login, and realm lists go to the account
of the challenge.

`M` is compared over twenty bytes, but `AsByteArray` gives only as many as the number needs, so when
its high byte is zero the comparison goes on into the memory behind it. `run_safe` is about runs in
which this does not matter.
-/

namespace TwowCore.Realmd

section Bytes

/-- The digits of a number and zeros for the high digits it has lost are the digits it was made of. -/
theorem digits_ofDigits_pad {digits : List ℕ} (h : ∀ d ∈ digits, d < 256) :
    Nat.digits 256 (Nat.ofDigits 256 digits) ++
        List.replicate (digits.length - (Nat.digits 256 (Nat.ofDigits 256 digits)).length) 0 =
      digits := by
  induction digits with
  | nil => simp
  | cons d rest ih =>
      have hrest := ih fun d' hd' => h d' (List.mem_cons_of_mem _ hd')
      rw [Nat.ofDigits_cons]
      by_cases hzero : d = 0 ∧ Nat.ofDigits 256 rest = 0
      · obtain ⟨rfl, hvalue⟩ := hzero
        rw [hvalue] at hrest ⊢
        simp only [Nat.digits_zero, List.nil_append, List.length_nil, Nat.sub_zero] at hrest
        simp only [Nat.mul_zero, Nat.add_zero, Nat.digits_zero, List.nil_append, List.length_nil,
          Nat.sub_zero, List.length_cons, List.replicate_succ]
        rw [hrest]
      · have hcons : Nat.digits 256 (d + 256 * Nat.ofDigits 256 rest) =
            d :: Nat.digits 256 (Nat.ofDigits 256 rest) := by
          refine Nat.digits_add 256 (by decide) d _ (h d List.mem_cons_self) ?_
          tauto
        rw [hcons, List.cons_append, List.length_cons, List.length_cons,
          Nat.add_sub_add_right, hrest]

/-- A number that was made of bytes needs no more of them. -/
theorem asByteArrayMin_setBinary (bytes : Bytes) :
    (asByteArray (setBinary bytes)).length ≤ bytes.length ∧
      asByteArrayMin (setBinary bytes) bytes.length = bytes := by
  have hlt : ∀ d ∈ bytes.map UInt8.toNat, d < 256 := by
    intro d hd
    obtain ⟨byte, -, rfl⟩ := List.mem_map.mp hd
    exact byte.toNat_lt
  have hpad := congrArg (List.map UInt8.ofNat) (digits_ofDigits_pad hlt)
  rw [List.map_append, List.map_replicate, List.map_map, List.length_map] at hpad
  have hid : UInt8.ofNat ∘ UInt8.toNat = id := by
    funext byte
    exact UInt8.ofNat_toNat
  rw [hid, List.map_id] at hpad
  have hlength : (asByteArray (setBinary bytes)).length =
      (Nat.digits 256 (Nat.ofDigits 256 (bytes.map UInt8.toNat))).length := List.length_map _
  refine ⟨?_, ?_⟩
  · have hlen := congrArg List.length hpad
    rw [List.length_append, List.length_map, ← hlength] at hlen
    omega
  · unfold asByteArrayMin
    rw [hlength]
    exact hpad

/-- The zeros behind a number up to so many bytes. -/
def ZerosBehind (n size : ℕ) (behind : Bytes) : Prop :=
  behind.take (size - (asByteArray n).length) =
    List.replicate (size - (asByteArray n).length) 0

/-- A number that was made of bytes looks like these bytes in memory exactly when zeros are behind it. -/
theorem bytesInMemory_setBinary_iff (bytes behind : Bytes) :
    bytesInMemory (setBinary bytes) bytes.length behind = bytes ↔
      ZerosBehind (setBinary bytes) bytes.length behind := by
  obtain ⟨hsize, hpad⟩ := asByteArrayMin_setBinary bytes
  have hmemory : bytesInMemory (setBinary bytes) bytes.length behind =
      asByteArray (setBinary bytes) ++
        behind.take (bytes.length - (asByteArray (setBinary bytes)).length) := by
    unfold bytesInMemory
    rw [List.take_append, List.take_of_length_le hsize]
  rw [hmemory]
  constructor
  · intro hsame
    exact List.append_cancel_left (hsame.trans hpad.symm)
  · intro hzeros
    rw [hzeros]
    exact hpad

/-- With zeros behind it in memory, a number that was made of bytes looks like these bytes. -/
theorem bytesInMemory_setBinary (bytes behind : Bytes)
    (h : ZerosBehind (setBinary bytes) bytes.length behind) :
    bytesInMemory (setBinary bytes) bytes.length behind = bytes :=
  (bytesInMemory_setBinary_iff bytes behind).mpr h

end Bytes

/-- The connections and the cache they share. -/
structure LoginServer where
  conns : ℕ → AuthSocket
  keyCache : List CachedKey

/-- What happens at a connection. -/
inductive LoginEvent where
  | received (conn : ℕ) (bytes : Bytes)
  | command (conn : ℕ) (env : AuthEnv)

variable (C : Crypto)

namespace LoginServer

/-- Before anything is received. -/
def start (addresses : ℕ → Bytes) : LoginServer where
  conns conn := AuthSocket.new (addresses conn)
  keyCache := []

/-- One event. -/
def step (r : LoginServer) : LoginEvent → LoginServer
  | .received conn bytes =>
      { r with
        conns := Function.update r.conns conn
          { r.conns conn with inputBuffer := (r.conns conn).inputBuffer ++ bytes } }
  | .command conn env =>
      let result := (r.conns conn).command C env r.keyCache
      ⟨Function.update r.conns conn result.1, result.2⟩

end LoginServer

namespace AuthSocket

section Safe

/-- The connection has had a logon challenge for the account: the row of its login in the database,
with the verifier, the flags and the PIN that go with it. -/
def LogonChallenged (c : AuthSocket) (row : AccountRow) : Prop :=
  c.challenge = some (.logon c.safelogin row c.promptPin) ∧ c.accountId = row.id ∧
    c.securityInfo = row.security ∧ c.geoUnlockPIN = row.geolockPin ∧
    ∃ env : AuthEnv, c.safelogin = env.escapeString c.login ∧
      env.account c.safelogin = some row ∧ (c.s, c.v) = verifierOf C env row ∧
      c.lockFlags = lockFlagsOf env row

/-- The connection has had a reconnect challenge for a key that is cached under its login. -/
def ReconnectChallenged (cache : List CachedKey) (c : AuthSocket) (entry : CachedKey) : Prop :=
  c.challenge = some (.reconnect entry) ∧ entry ∈ cache ∧ entry.safelogin = c.safelogin ∧
    c.K = entry.key ∧ c.accountId = entry.accountId

/-- Its logon proof has the server's `M` for that account, and if it was asked for the PIN, which matched
when the proof was read. -/
def LoggedOn (c : AuthSocket) : Prop :=
  ∃ row lp pin, ∃ env : AuthEnv, c.LogonChallenged C row ∧
    c.proof = some (.logon lp pin ⟨env.now, env.behindHash, env.behindClientHash⟩) ∧
    lp.m1 = c.serverM C (setBinary lp.a) ∧ c.K = c.sessionKey C (setBinary lp.a) ∧
    (c.promptPin = true → ∃ data, pin = some data ∧ c.pinMatches C env data = true)

/-- Its reconnect proof is made with that key. -/
def Reconnected (cache : List CachedKey) (c : AuthSocket) : Prop :=
  ∃ entry lp, c.ReconnectChallenged cache entry ∧ c.proof = some (.reconnect lp) ∧
    lp.r2 = C.sha1 (c.login ++ asByteArray (setBinary lp.r1) ++ asByteArray c.reconnectProof ++
      asByteArray entry.key)

/-- What the protocol promises of a connection. -/
structure Safe (cache : List CachedKey) (c : AuthSocket) : Prop where
  oneChallenge : c.challenges ≤ 1
  oneProof : c.proofs ≤ 1
  authed : c.status = .authed → c.LoggedOn C ∨ c.Reconnected C cache
  realmList : ∀ id, Reply.realmList id ∈ c.sent →
    c.status = .authed ∧ c.challenge.map Challenge.accountId = some id

end Safe

section Invariant

/-- The invariant: what each status says about the past of the connection. -/
structure Inv (cache : List CachedKey) (c : AuthSocket) : Prop where
  fresh : c.status = .challenge → c.challenges = 0 ∧ c.proofs = 0
  challenges : c.challenges ≤ 1
  proofs : c.proofs ≤ 1
  logon : c.status = .logonProof → c.proofs = 0 ∧ ∃ row, c.LogonChallenged C row
  recon : c.status = .reconProof → c.proofs = 0 ∧ ∃ entry, c.ReconnectChallenged cache entry
  authed : c.status = .authed → c.LoggedOn C ∨ c.Reconnected C cache
  lists : ∀ id, Reply.realmList id ∈ c.sent → c.status = .authed ∧ id = c.accountId

variable {C} {env : AuthEnv} {cache cache' : List CachedKey} {c c' : AuthSocket}

theorem Inv.safe (h : c.Inv C cache) : c.Safe C cache := by
  refine ⟨h.challenges, h.proofs, h.authed, fun id hid => ?_⟩
  obtain ⟨hauthed, rfl⟩ := h.lists id hid
  refine ⟨hauthed, ?_⟩
  rcases h.authed hauthed with ⟨row, lp, pin, env, hchallenged, -⟩ | ⟨entry, lp, hchallenged, -⟩
  · rw [hchallenged.1, hchallenged.2.1]
    rfl
  · rw [hchallenged.1, hchallenged.2.2.2.2]
    rfl

/-- What is cached stays cached. -/
theorem Inv.mono (h : c.Inv C cache) (hsub : cache ⊆ cache') : c.Inv C cache' := by
  have hrecon : ∀ {entry}, c.ReconnectChallenged cache entry →
      c.ReconnectChallenged cache' entry := fun hentry =>
    ⟨hentry.1, hsub hentry.2.1, hentry.2.2⟩
  refine ⟨h.fresh, h.challenges, h.proofs, h.logon, fun hs => ?_, fun hs => ?_, h.lists⟩
  · obtain ⟨hproofs, entry, hentry⟩ := h.recon hs
    exact ⟨hproofs, entry, hrecon hentry⟩
  · refine (h.authed hs).imp_right fun hreconnected => ?_
    obtain ⟨entry, lp, hentry, hrest⟩ := hreconnected
    exact ⟨entry, lp, hrecon hentry, hrest⟩

/-- Only an authed connection has been sent a realm list. -/
theorem Inv.no_lists (h : c.Inv C cache) (hstatus : c.status ≠ .authed) (id : UInt32) :
    Reply.realmList id ∉ c.sent := fun hid => hstatus (h.lists id hid).1

/-- The input buffer does not count. -/
theorem Inv.setBuffer (h : c.Inv C cache) (bytes : Bytes) :
    Inv C cache { c with inputBuffer := bytes } :=
  ⟨h.fresh, h.challenges, h.proofs, h.logon, h.recon, h.authed, h.lists⟩

theorem Inv.skip (h : c.Inv C cache) (len : ℕ) : (c.skip len).Inv C cache := h.setBuffer _

/-- A proxy header changes only the address and the buffer. -/
theorem Inv.readProxy (h : c.Inv C cache) (hproxy : c.readProxy env = some c') :
    c'.Inv C cache := by
  unfold AuthSocket.readProxy at hproxy
  split at hproxy
  · split at hproxy
    · cases hproxy
    · split at hproxy
      · cases hproxy
      · obtain rfl := Option.some.inj hproxy
        exact ⟨h.fresh, h.challenges, h.proofs, h.logon, h.recon, h.authed, h.lists⟩
  · obtain rfl := Option.some.inj hproxy
    exact h

/-- Closing the connection does not count. -/
theorem Inv.closeUnless (h : c.Inv C cache) (ok : Bool) : (closeUnless ok c).Inv C cache := by
  cases ok
  · exact ⟨h.fresh, h.challenges, h.proofs, h.logon, h.recon, h.authed, h.lists⟩
  · exact h

/-- A connection at its end: closed, or with a patch under way. -/
theorem Inv.of_ended (hstatus : c.status = .closed ∨ c.status = .patch)
    (hchallenges : c.challenges ≤ 1) (hproofs : c.proofs ≤ 1)
    (hlists : ∀ id, Reply.realmList id ∉ c.sent) : c.Inv C cache := by
  have hne : ∀ status, status ≠ .closed → status ≠ .patch → c.status ≠ status := by
    rintro status hclosed hpatch rfl
    exact hstatus.elim hclosed hpatch
  exact ⟨fun h => absurd h (hne _ (by decide) (by decide)), hchallenges, hproofs,
    fun h => absurd h (hne _ (by decide) (by decide)),
    fun h => absurd h (hne _ (by decide) (by decide)),
    fun h => absurd h (hne _ (by decide) (by decide)), fun id hid => absurd hid (hlists id)⟩

end Invariant

section Challenges

variable {C} {env : AuthEnv} {cache : List CachedKey} {c c' : AuthSocket} {row : AccountRow}

/-- What may become of a connection whose challenge is processed: it stays closed, or it waits for
the proof. -/
structure Challenged (C : Crypto) (c c' : AuthSocket) : Prop where
  challenges : c'.challenges = c.challenges
  proofs : c'.proofs = c.proofs
  lists : ∀ id, Reply.realmList id ∈ c'.sent → Reply.realmList id ∈ c.sent
  status : c'.status = .closed ∨ c'.status = .logonProof ∧ ∃ row, c'.LogonChallenged C row

/-- A refusal leaves the connection closed. -/
theorem challenged_refuse (hchallenges : c'.challenges = c.challenges)
    (hproofs : c'.proofs = c.proofs) (hsent : c'.sent = c.sent) (hstatus : c'.status = .closed)
    (results : List AuthResult) : Challenged C c (c'.refuse results) := by
  refine ⟨hchallenges, hproofs, fun id hid => ?_, Or.inl hstatus⟩
  have hid' : Reply.realmList id ∈ c'.sent ++ [.logonChallenge results 0 0 none] := hid
  rw [hsent] at hid'
  simpa using hid'

theorem challenged_startLogon (locked : Bool) (results : List AuthResult)
    (hescape : c.safelogin = env.escapeString c.login)
    (hrow : env.account c.safelogin = some row) (hflags : c.lockFlags = lockFlagsOf env row)
    (hsecurity : c.securityInfo = row.security) (hgeo : c.geoUnlockPIN = row.geolockPin) :
    Challenged C c (c.startLogon C env row locked results) := by
  refine ⟨rfl, rfl, fun id hid => ?_, Or.inr ⟨rfl, row, rfl, rfl, hsecurity, hgeo, env, hescape,
    hrow, rfl, hflags⟩⟩
  rcases List.mem_append.mp hid with hold | hnew
  · exact hold
  · simp at hnew

theorem challenged_checkLocks (hstatus : c.status = .closed)
    (hescape : c.safelogin = env.escapeString c.login)
    (hrow : env.account c.safelogin = some row) (hflags : c.lockFlags = lockFlagsOf env row)
    (hsecurity : c.securityInfo = row.security) (hgeo : c.geoUnlockPIN = row.geolockPin) :
    Challenged C c (c.checkLocks C env row) := by
  unfold checkLocks
  simp only
  split
  · split
    · exact challenged_refuse rfl rfl rfl hstatus _
    · exact challenged_startLogon _ _ hescape hrow hflags hsecurity hgeo
  · exact challenged_refuse rfl rfl rfl hstatus _

theorem challenged_checkAccount (hstatus : c.status = .closed)
    (hescape : c.safelogin = env.escapeString c.login)
    (hrow : env.account c.safelogin = some row) : Challenged C c (c.checkAccount C env row) := by
  unfold checkAccount
  split
  · exact challenged_refuse rfl rfl rfl hstatus _
  · simp only
    split
    · refine challenged_refuse ?_ ?_ ?_ ?_ _
      · rfl
      · rfl
      · rfl
      · exact hstatus
    · split
      · refine challenged_refuse ?_ ?_ ?_ ?_ _
        · rfl
        · rfl
        · rfl
        · exact hstatus
      · have h := challenged_checkLocks (C := C) (c := { c with
            lockFlags := lockFlagsOf env row
            securityInfo := row.security
            lastIP := row.lastIp
            geoUnlockPIN := row.geolockPin }) hstatus hescape hrow rfl rfl rfl
        exact ⟨h.challenges, h.proofs, h.lists, h.status⟩

/-- The checks of a logon challenge. -/
theorem challenged_checkLogon (C : Crypto) (env : AuthEnv) (c : AuthSocket) (hstatus : c.status = .closed)
    (hescape : c.safelogin = env.escapeString c.login) :
    Challenged C c (c.checkLogon C env) := by
  unfold checkLogon
  split
  · exact challenged_refuse rfl rfl rfl hstatus _
  · split
    · exact challenged_refuse rfl rfl rfl hstatus _
    · split
      · exact challenged_refuse rfl rfl rfl hstatus _
      · next row hrow => exact challenged_checkAccount hstatus hescape hrow

/-- What a challenge packet leaves of the connection, whether it is there in full or not. -/
theorem readChallenge_cases (env : AuthEnv) (c : AuthSocket) :
    (∃ len, c.readChallenge env = (none, c.skip len)) ∨
      ∃ ch len, c.readChallenge env = (some ch, { c.skip len with
        status := .closed
        login := ch.name
        safelogin := env.escapeString ch.name
        build := ch.build
        challenges := c.challenges + 1 }) := by
  unfold readChallenge
  split
  · exact Or.inl ⟨0, rfl⟩
  · simp only
    split
    · exact Or.inl ⟨4, rfl⟩
    · refine Or.inr ⟨parseChallenge (c.inputBuffer.take (4 + (uint16At c.inputBuffer 2).toNat)),
        4 + (uint16At c.inputBuffer 2).toNat, ?_⟩
      rw [skip, skip, skip, List.drop_drop]

theorem Inv.handleLogonChallenge (h : c.Inv C cache) (hstatus : c.status = .challenge) :
    (c.handleLogonChallenge C env).2.Inv C cache := by
  have hnone := h.no_lists (by rw [hstatus]; decide)
  obtain ⟨hchallenges, hproofs⟩ := h.fresh hstatus
  unfold AuthSocket.handleLogonChallenge
  rcases readChallenge_cases env c with ⟨len, hread⟩ | ⟨ch, len, hread⟩
  · rw [hread]
    exact h.skip len
  · rw [hread]
    simp only
    have hchecked := challenged_checkLogon C env { c.skip len with
      status := .closed
      login := ch.name
      safelogin := env.escapeString ch.name
      build := ch.build
      challenges := c.challenges + 1
      os := ch.os
      platform := ch.platform } rfl rfl
    have hone : ∀ {n}, n = c.challenges + 1 → n ≤ 1 := by omega
    have hlists : ∀ id, Reply.realmList id ∉ _ := fun id hid => hnone id (hchecked.lists id hid)
    rcases hchecked.status with hclosed | ⟨hwaiting, hrow⟩
    · exact Inv.of_ended (Or.inl hclosed) (hone hchecked.challenges)
        (hchecked.proofs.trans hproofs ▸ Nat.zero_le 1) hlists
    · refine ⟨fun hs => ?_, hone hchecked.challenges, ?_, fun _ => ⟨?_, hrow⟩, fun hs => ?_,
        fun hs => ?_, fun id hid => absurd hid (hlists id)⟩
      · exact absurd (hwaiting.symm.trans hs) (by decide)
      · exact hchecked.proofs.trans hproofs ▸ Nat.zero_le 1
      · exact hchecked.proofs.trans hproofs
      · exact absurd (hwaiting.symm.trans hs) (by decide)
      · exact absurd (hwaiting.symm.trans hs) (by decide)

theorem Inv.handleReconnectChallenge (h : c.Inv C cache) (hstatus : c.status = .challenge) :
    (c.handleReconnectChallenge env cache).2.Inv C cache := by
  have hnone := h.no_lists (by rw [hstatus]; decide)
  obtain ⟨hchallenges, hproofs⟩ := h.fresh hstatus
  have hone : c.challenges + 1 ≤ 1 := by omega
  have hzero : c.proofs ≤ 1 := by omega
  unfold AuthSocket.handleReconnectChallenge
  rcases readChallenge_cases env c with ⟨len, hread⟩ | ⟨ch, len, hread⟩
  · rw [hread]
    exact h.skip len
  · rw [hread]
    simp only
    split
    · exact Inv.of_ended (Or.inl rfl) hone hzero hnone
    · next entry hentry =>
      unfold cachedKey at hentry
      have hmem : entry ∈ cache := List.mem_of_find?_eq_some hentry
      have hfound := List.find?_some hentry
      have hlogin : entry.safelogin = env.escapeString ch.name := of_decide_eq_true hfound
      have hlists : ∀ id, Reply.realmList id ∉
          c.sent ++ [Reply.reconnectChallenge env.randReconnect] := by
        intro id hid
        exact hnone id (by simpa using hid)
      refine ⟨fun hs => ?_, hone, hzero, fun hs => ?_, fun _ => ⟨hproofs, entry, rfl, hmem,
        hlogin, rfl, rfl⟩, fun hs => ?_, fun id hid => absurd hid (hlists id)⟩
      · cases hs
      · cases hs
      · cases hs

end Challenges

section Proofs

variable {C} {env : AuthEnv} {cache : List CachedKey} {c c' : AuthSocket}

/-- The comparison of `M1` sees only what it should: `M` has its twenty bytes, or the memory behind
it is zero up to them. -/
def MInMemory (C : Crypto) (env : AuthEnv) (c : AuthSocket) (lp : LogonProof) : Prop :=
  ZerosBehind (setBinary (c.serverM C (setBinary lp.a))) 20 env.behindM

theorem serverM_length (c : AuthSocket) (A : ℕ) : (c.serverM C A).length = 20 := C.sha1_length _

/-- What is compared with `M1` is then the digest. -/
theorem comparedM_eq {lp : LogonProof} (h : c.MInMemory C env lp) :
    c.comparedM C env lp = c.serverM C (setBinary lp.a) := by
  have hbytes := bytesInMemory_setBinary (c.serverM C (setBinary lp.a)) env.behindM
  rw [serverM_length] at hbytes
  exact hbytes h

/-- A PIN that was asked for and found right. -/
theorem pinMatches_of_pinResult {pin : Option PINData} (h : c.pinResult C env pin = true)
    (hprompt : c.promptPin = true) : ∃ data, pin = some data ∧ c.pinMatches C env data = true := by
  unfold pinResult at h
  rw [if_pos hprompt] at h
  cases pin with
  | none => cases h
  | some data => exact ⟨data, rfl, h⟩

/-- What a command leaves: the invariant holds, and a key is cached only by a logon that leaves the
connection authed. -/
structure Stepped (C : Crypto) (cache : List CachedKey) (c' : AuthSocket)
    (cache' : List CachedKey) : Prop where
  inv : c'.Inv C cache'
  cached : cache' = cache ∨ (c'.status = .authed ∧ c'.LoggedOn C ∧
    cache' = ⟨c'.safelogin, c'.K, c'.accountId⟩ :: cache)

/-- What a logon proof does: the connection ends, or it is authed and its key is cached. -/
theorem checkProof_spec {lp : LogonProof} {pin : Option PINData} (row : AccountRow)
    (hm : c.MInMemory C env lp) (hstatus : c.status = .closed) (hchallenges : c.challenges ≤ 1)
    (hproofs : c.proofs ≤ 1) (hlists : ∀ id, Reply.realmList id ∉ c.sent)
    (hrow : c.LogonChallenged C row) (hproof : c.proof = some (.logon lp pin ⟨env.now, env.behindHash, env.behindClientHash⟩)) :
    Stepped C cache (c.checkProof C env lp pin cache).2.1
      (c.checkProof C env lp pin cache).2.2 := by
  have hsend : ∀ reply : Reply, (∀ id, reply ≠ .realmList id) →
      ∀ id, Reply.realmList id ∉ c.sent ++ [reply] := by
    intro reply hreply id hid
    rcases List.mem_append.mp hid with hold | hnew
    · exact hlists id hold
    · exact hreply id (List.mem_singleton.mp hnew).symm
  unfold checkProof
  split
  · -- the version is not known
    refine ⟨?_, Or.inl rfl⟩
    unfold sendPatch
    split
    · exact Inv.of_ended (Or.inl hstatus) hchallenges hproofs hlists
    · split
      · exact Inv.of_ended (Or.inl hstatus) hchallenges hproofs
          (hsend _ fun _ => by simp)
      · split
        · exact Inv.of_ended (Or.inl hstatus) hchallenges hproofs hlists
        · refine Inv.of_ended (Or.inr rfl) hchallenges hproofs fun id hid => ?_
          refine hlists id ?_
          have hid' : Reply.realmList id ∈
              c.sent ++ [.logonProof .failVersionUpdate, .xferInitiate] := hid
          simpa using hid'
  · split
    · exact ⟨Inv.of_ended (Or.inl hstatus) hchallenges hproofs hlists, Or.inl rfl⟩
    · simp only
      split
      -- the proof is compared before the bans are looked up and the session key is stored
      · next hright =>
        obtain ⟨hcompared, hpin⟩ := hright
        unfold acceptLogon
        split
        · exact ⟨Inv.of_ended (Or.inl hstatus) hchallenges hproofs (hsend _ fun _ => by simp),
            Or.inl rfl⟩
        · split
          · split
            · exact ⟨Inv.of_ended (Or.inl hstatus) hchallenges hproofs (hsend _ fun _ => by simp),
                Or.inl rfl⟩
            · exact ⟨Inv.of_ended (Or.inl hstatus) hchallenges hproofs (hsend _ fun _ => by simp),
                Or.inl rfl⟩
          · -- the proof is right
            rw [comparedM_eq hm] at hcompared
            have hlogged : ∀ sent, LoggedOn C { c with
                K := c.sessionKey C (setBinary lp.a)
                status := .authed
                sent := sent } := by
              intro sent
              exact ⟨row, lp, pin, env, hrow, hproof, hcompared.symm, rfl,
                pinMatches_of_pinResult hpin⟩
            refine ⟨⟨fun hs => ?_, hchallenges, hproofs, fun hs => ?_, fun hs => ?_,
              fun _ => Or.inl (hlogged _), fun id hid => ?_⟩, Or.inr ⟨rfl, hlogged _, rfl⟩⟩
            · cases hs
            · cases hs
            · cases hs
            · exact absurd hid (hsend _ (fun _ => by simp) id)
      · exact ⟨Inv.of_ended (Or.inl hstatus) hchallenges hproofs (hsend _ fun _ => by simp),
          Or.inl rfl⟩

/-- What is read of a logon proof leaves only less in the buffer. -/
theorem readLogonProof_cases (c : AuthSocket) :
    ∃ read len, c.readLogonProof = (read, c.skip len) := by
  unfold readLogonProof
  split
  · exact ⟨none, 0, rfl⟩
  · simp only
    split
    · exact ⟨_, 75, rfl⟩
    · split
      · exact ⟨none, 75, rfl⟩
      · refine ⟨some (parseLogonProof c.inputBuffer,
          some (parsePin (c.skip 75).inputBuffer)), 75 + 36, ?_⟩
        rw [skip, skip, skip, List.drop_drop]

/-- The comparison of the proof that is about to be read sees only what it should. -/
def ProofInMemory (C : Crypto) (env : AuthEnv) (c : AuthSocket) : Prop :=
  ∀ lp pin, c.readLogonProof.1 = some (lp, pin) → c.MInMemory C env lp

/-- `_HandleLogonProof`: the invariant, and what is cached. -/
theorem handleLogonProof_spec (h : c.Inv C cache) (hstatus : c.status = .logonProof)
    (hm : c.ProofInMemory C env) :
    Stepped C cache (c.handleLogonProof C env cache).2.1 (c.handleLogonProof C env cache).2.2 := by
  obtain ⟨hproofs, row, hrow⟩ := h.logon hstatus
  have hnone := h.no_lists (by rw [hstatus]; decide)
  obtain ⟨read, len, hread⟩ := readLogonProof_cases c
  unfold handleLogonProof
  rw [hread]
  cases read with
  | none => exact ⟨h.skip len, Or.inl rfl⟩
  | some packet =>
      obtain ⟨lp, pin⟩ := packet
      refine checkProof_spec row ?_ rfl h.challenges ?_ hnone hrow rfl
      · exact hm lp pin (congrArg Prod.fst hread)
      · show c.proofs + 1 ≤ 1
        omega

theorem Inv.handleReconnectProof (h : c.Inv C cache) (hstatus : c.status = .reconProof) :
    (c.handleReconnectProof C env).2.Inv C cache := by
  obtain ⟨hproofs, entry, hentry⟩ := h.recon hstatus
  have hnone := h.no_lists (by rw [hstatus]; decide)
  have hone : c.proofs + 1 ≤ 1 := by omega
  have hsend : ∀ result id, Reply.realmList id ∉ c.sent ++ [.reconnectProof result] := by
    intro result id hid
    exact hnone id (by simpa using hid)
  unfold AuthSocket.handleReconnectProof
  split
  · exact h
  · simp only
    unfold checkReconnect
    split
    · exact Inv.of_ended (Or.inl rfl) h.challenges hone hnone
    · split
      · next hdigest =>
        split
        · exact Inv.of_ended (Or.inl rfl) h.challenges hone (hsend _)
        · refine ⟨fun hs => ?_, h.challenges, hone, fun hs => ?_, fun hs => ?_, fun _ => Or.inr ?_,
            fun id hid => absurd hid (hsend _ id)⟩
          · cases hs
          · cases hs
          · cases hs
          · refine ⟨entry, parseReconnectProof c.inputBuffer, hentry, rfl, ?_⟩
            have hkey : c.K = entry.key := hentry.2.2.2.1
            rw [← hkey]
            exact hdigest.symm
      · exact Inv.of_ended (Or.inl rfl) h.challenges hone hnone

end Proofs

section Lists

variable {C} {env : AuthEnv} {cache : List CachedKey} {c : AuthSocket}

theorem Inv.handleRealmList (h : c.Inv C cache) (hstatus : c.status = .authed) :
    (c.handleRealmList env).2.Inv C cache := by
  unfold AuthSocket.handleRealmList
  split
  · exact h
  · simp only
    split
    · exact h.skip 5
    · split
      · exact ⟨h.fresh, h.challenges, h.proofs, h.logon, h.recon, h.authed, h.lists⟩
      · refine ⟨h.fresh, h.challenges, h.proofs, h.logon, h.recon, h.authed, fun id hid => ?_⟩
        rcases List.mem_append.mp hid with hold | hnew
        · exact h.lists id hold
        · have heq := List.mem_singleton.mp hnew
          exact ⟨hstatus, Reply.realmList.inj heq⟩

/-- The transfer of a patch changes nothing that counts. -/
theorem Inv.setPatch (h : c.Inv C cache) (bytes : Bytes) (patchOpen closed : Bool) :
    Inv C cache { c with inputBuffer := bytes, patchOpen := patchOpen, closed := closed } :=
  ⟨h.fresh, h.challenges, h.proofs, h.logon, h.recon, h.authed, h.lists⟩

theorem Inv.handleXferAccept (h : c.Inv C cache) : (c.handleXferAccept env).2.Inv C cache :=
  h.setPatch _ _ _

theorem Inv.handleXferCancel (h : c.Inv C cache) : c.handleXferCancel.2.Inv C cache := by
  unfold AuthSocket.handleXferCancel
  exact h.setPatch _ _ _

theorem Inv.handleXferResume (h : c.Inv C cache) : (c.handleXferResume env).2.Inv C cache := by
  unfold AuthSocket.handleXferResume
  split
  · exact h
  · simp only
    split
    · exact h.setPatch _ _ _
    · exact h.setPatch _ _ _

end Lists

section Command

variable {C} {env : AuthEnv} {cache : List CachedKey} {c c' : AuthSocket}

theorem Stepped.closeUnless {cache' : List CachedKey} (h : Stepped C cache c cache') (ok : Bool) :
    Stepped C cache (closeUnless ok c) cache' := by
  refine ⟨h.inv.closeUnless ok, h.cached.imp_right fun hcached => ?_⟩
  cases ok
  · exact hcached
  · exact hcached

/-- One turn of the loop keeps the invariant; a key is cached only by a logon. -/
theorem command_spec (h : c.Inv C cache)
    (hm : ∀ c', c.readProxy env = some c' → c'.status = .logonProof → c'.ProofInMemory C env) :
    Stepped C cache (c.command C env cache).1 (c.command C env cache).2 := by
  unfold command
  split
  · exact ⟨h, Or.inl rfl⟩
  · next c₁ hproxy =>
    have h₁ := h.readProxy hproxy
    have hm₁ := hm c₁ hproxy
    unfold dispatch
    split
    · exact ⟨h₁, Or.inl rfl⟩
    · next cmd _ =>
      split
      · exact ⟨h₁, Or.inl rfl⟩
      · next hcmd =>
        have hstatus : cmd.status = c₁.status := not_not.mp hcmd
        cases cmd with
        | authLogonChallenge =>
            exact ⟨(h₁.handleLogonChallenge hstatus.symm).closeUnless _, Or.inl rfl⟩
        | authReconnectChallenge =>
            exact ⟨(h₁.handleReconnectChallenge hstatus.symm).closeUnless _, Or.inl rfl⟩
        | authReconnectProof =>
            exact ⟨(h₁.handleReconnectProof hstatus.symm).closeUnless _, Or.inl rfl⟩
        | realmList => exact ⟨(h₁.handleRealmList hstatus.symm).closeUnless _, Or.inl rfl⟩
        | xferAccept =>
            show Stepped C cache (closeUnless true (c₁.handleXferAccept env).2) cache
            exact ⟨h₁.handleXferAccept.closeUnless _, Or.inl rfl⟩
        | xferResume => exact ⟨h₁.handleXferResume.closeUnless _, Or.inl rfl⟩
        | xferCancel =>
            show Stepped C cache (closeUnless true c₁.handleXferCancel.2) cache
            exact ⟨h₁.handleXferCancel.closeUnless _, Or.inl rfl⟩
        | authLogonProof =>
            exact (handleLogonProof_spec h₁ hstatus.symm (hm₁ hstatus.symm)).closeUnless _

/-- A connection has logged on, with the same login, key and account as before. -/
structure StillLoggedOn (C : Crypto) (c c' : AuthSocket) : Prop where
  status : c'.status = .authed
  loggedOn : c'.LoggedOn C
  safelogin : c'.safelogin = c.safelogin
  key : c'.K = c.K
  accountId : c'.accountId = c.accountId

theorem StillLoggedOn.closeUnless (h : StillLoggedOn C c c') (ok : Bool) :
    StillLoggedOn C c (closeUnless ok c') := by
  cases ok
  · exact ⟨h.status, h.loggedOn, h.safelogin, h.key, h.accountId⟩
  · exact h

theorem handleRealmList_loggedOn (hstatus : c.status = .authed) (hlogged : c.LoggedOn C) :
    StillLoggedOn C c (c.handleRealmList env).2 := by
  unfold AuthSocket.handleRealmList
  split
  · exact ⟨hstatus, hlogged, rfl, rfl, rfl⟩
  · simp only
    split
    · exact ⟨hstatus, hlogged, rfl, rfl, rfl⟩
    · split
      · exact ⟨hstatus, hlogged, rfl, rfl, rfl⟩
      · exact ⟨hstatus, hlogged, rfl, rfl, rfl⟩

theorem readProxy_loggedOn (hstatus : c.status = .authed) (hlogged : c.LoggedOn C)
    (hread : c.readProxy env = some c') : StillLoggedOn C c c' := by
  unfold AuthSocket.readProxy at hread
  split at hread
  · split at hread
    · cases hread
    · split at hread
      · cases hread
      · obtain rfl := Option.some.inj hread
        exact ⟨hstatus, hlogged, rfl, rfl, rfl⟩
  · obtain rfl := Option.some.inj hread
    exact ⟨hstatus, hlogged, rfl, rfl, rfl⟩

/-- A connection that has logged on stays so: only the realm list is open to it. -/
theorem command_loggedOn (hstatus : c.status = .authed) (hlogged : c.LoggedOn C) :
    StillLoggedOn C c (c.command C env cache).1 := by
  unfold command
  split
  · exact ⟨hstatus, hlogged, rfl, rfl, rfl⟩
  · next c₁ hread =>
    have h₁ := readProxy_loggedOn hstatus hlogged hread
    unfold dispatch
    split
    · exact h₁
    · next cmd _ =>
      split
      · exact h₁
      · next hcmd =>
        have hcmd : cmd.status = .authed := (not_not.mp hcmd).trans h₁.status
        cases cmd with
        | realmList =>
            have h₂ : StillLoggedOn C c₁ (closeUnless (c₁.handleRealmList env).1
                (c₁.handleRealmList env).2) :=
              (handleRealmList_loggedOn h₁.status h₁.loggedOn).closeUnless _
            exact ⟨h₂.status, h₂.loggedOn, h₂.safelogin.trans h₁.safelogin, h₂.key.trans h₁.key,
              h₂.accountId.trans h₁.accountId⟩
        | authLogonChallenge => cases hcmd
        | authLogonProof => cases hcmd
        | authReconnectChallenge => cases hcmd
        | authReconnectProof => cases hcmd
        | xferAccept => cases hcmd
        | xferResume => cases hcmd
        | xferCancel => cases hcmd

end Command

section NotBack

variable {C} {env : AuthEnv} {cache : List CachedKey} {c : AuthSocket}

theorem checkProof_status (lp : LogonProof) (pin : Option PINData)
    (h : c.status ≠ .challenge) : (c.checkProof C env lp pin cache).2.1.status ≠ .challenge := by
  unfold checkProof
  split
  · unfold sendPatch
    split
    · exact h
    · split
      · exact h
      · split
        · exact h
        · exact Status.noConfusion
  · split
    · exact h
    · simp only
      split
      · unfold acceptLogon
        split
        · exact h
        · split
          · split
            · exact h
            · exact h
          · exact Status.noConfusion
      · exact h

theorem checkReconnect_status (lp : ReconnectProof) (h : c.status ≠ .challenge) :
    (c.checkReconnect C env lp).2.status ≠ .challenge := by
  unfold checkReconnect
  split
  · exact h
  · split
    · split
      · exact h
      · exact Status.noConfusion
    · exact h

/-- A handler that is open to a connection in another status does not lead back to
`STATUS_CHALLENGE`. -/
theorem handler_status (C : Crypto) (env : AuthEnv) (cache : List CachedKey) {cmd : AuthCmd} (hcmd : cmd.status = c.status) (h : c.status ≠ .challenge) :
    (c.handler C env cache cmd).2.1.status ≠ .challenge := by
  cases cmd with
  -- the two challenges are answered in `STATUS_CHALLENGE` only
  | authLogonChallenge => exact absurd hcmd.symm h
  | authReconnectChallenge => exact absurd hcmd.symm h
  | authLogonProof =>
      show (c.handleLogonProof C env cache).2.1.status ≠ .challenge
      obtain ⟨read, len, hread⟩ := readLogonProof_cases c
      unfold handleLogonProof
      rw [hread]
      cases read with
      | none => exact h
      | some packet => exact checkProof_status _ _ Status.noConfusion
  | authReconnectProof =>
      show (c.handleReconnectProof C env).2.status ≠ .challenge
      unfold AuthSocket.handleReconnectProof
      split
      · exact h
      · exact checkReconnect_status _ Status.noConfusion
  | realmList =>
      show (c.handleRealmList env).2.status ≠ .challenge
      unfold AuthSocket.handleRealmList
      split
      · exact h
      · simp only
        split
        · exact h
        · split
          · exact h
          · exact h
  | xferAccept => exact h
  | xferResume =>
      show (c.handleXferResume env).2.status ≠ .challenge
      unfold AuthSocket.handleXferResume
      split
      · exact h
      · simp only
        split
        · exact h
        · exact h
  | xferCancel => exact h

/-- No turn of the loop leads back to `STATUS_CHALLENGE`. -/
theorem command_status (h : c.status ≠ .challenge) :
    (c.command C env cache).1.status ≠ .challenge := by
  have hproxy : ∀ c₁, c.readProxy env = some c₁ → c₁.status = c.status := by
    intro c₁ hread
    unfold AuthSocket.readProxy at hread
    split at hread
    · split at hread
      · cases hread
      · split at hread
        · cases hread
        · obtain rfl := Option.some.inj hread
          rfl
    · obtain rfl := Option.some.inj hread
      rfl
  unfold command
  split
  · exact h
  · next c₁ hread =>
    have h₁ : c₁.status ≠ .challenge := by
      rw [hproxy c₁ hread]
      exact h
    unfold dispatch
    split
    · exact h₁
    · next cmd _ =>
      split
      · exact h₁
      · next hcmd =>
        have hhandled := handler_status C env cache (not_not.mp hcmd) h₁
        simp only
        unfold closeUnless
        split
        · exact hhandled
        · exact hhandled

end NotBack

end AuthSocket

namespace LoginServer

/-- Every connection has its invariant, and every cached key is that of a connection that has
logged on. -/
structure Inv (r : LoginServer) : Prop where
  conns : ∀ conn, (r.conns conn).Inv C r.keyCache
  cached : ∀ entry ∈ r.keyCache, ∃ conn, (r.conns conn).status = .authed ∧
    (r.conns conn).LoggedOn C ∧ (r.conns conn).safelogin = entry.safelogin ∧
    (r.conns conn).K = entry.key ∧ (r.conns conn).accountId = entry.accountId

/-- Where a logon proof is about to be read, the comparison of `M1` sees only what it should. -/
def MemoryOk (r : LoginServer) : LoginEvent → Prop
  | .received _ _ => True
  | .command conn env => ∀ c, (r.conns conn).readProxy env = some c → c.status = .logonProof →
      c.ProofInMemory C env

variable {C}

theorem inv_start (addresses : ℕ → Bytes) : (start addresses).Inv C := by
  refine ⟨fun conn => ⟨fun _ => ⟨rfl, rfl⟩, Nat.zero_le 1, Nat.zero_le 1, ?_, ?_, ?_, ?_⟩, ?_⟩
  · intro hs
    cases hs
  · intro hs
    cases hs
  · intro hs
    cases hs
  · intro id hid
    cases hid
  · intro entry hentry
    cases hentry

/-- One event keeps the invariant. -/
theorem inv_step {r : LoginServer} (h : r.Inv C) {event : LoginEvent} (hm : r.MemoryOk C event) :
    (r.step C event).Inv C := by
  cases event with
  | received conn bytes =>
      -- bytes that arrive change one input buffer and nothing the invariant is about
      have hother : ∀ other, ∃ buffer, (r.step C (.received conn bytes)).conns other =
          { r.conns other with inputBuffer := buffer } := by
        intro other
        by_cases heq : other = conn
        · subst heq
          exact ⟨_, Function.update_self _ _ _⟩
        · exact ⟨(r.conns other).inputBuffer, Function.update_of_ne heq _ _⟩
      refine ⟨fun other => ?_, fun entry hentry => ?_⟩
      · obtain ⟨buffer, hbuffer⟩ := hother other
        rw [hbuffer]
        exact (h.conns other).setBuffer _
      · obtain ⟨other, hlogged⟩ := h.cached entry hentry
        obtain ⟨buffer, hbuffer⟩ := hother other
        refine ⟨other, ?_⟩
        rw [hbuffer]
        exact hlogged
  | command conn env =>
      have hstep := AuthSocket.command_spec (h.conns conn) hm
      have hsame : (r.step C (.command conn env)).conns conn =
          ((r.conns conn).command C env r.keyCache).1 := Function.update_self _ _ _
      have hother : ∀ {other}, other ≠ conn →
          (r.step C (.command conn env)).conns other = r.conns other := fun hne =>
        Function.update_of_ne hne _ _
      -- keys are only added to the cache, so what the other connections rely on stays
      have hsub : r.keyCache ⊆ (r.step C (.command conn env)).keyCache := by
        show r.keyCache ⊆ ((r.conns conn).command C env r.keyCache).2
        rcases hstep.cached with heq | ⟨-, -, heq⟩
        · rw [heq]
          exact List.Subset.refl _
        · rw [heq]
          exact List.subset_cons_self _ _
      refine ⟨fun other => ?_, fun entry hentry => ?_⟩
      · by_cases heq : other = conn
        · subst heq
          rw [hsame]
          exact hstep.inv
        · rw [hother heq]
          exact (h.conns other).mono hsub
      · -- an entry is an old one, or that of the logon of this event
        have hold : entry ∈ r.keyCache → ∃ other,
            ((r.step C (.command conn env)).conns other).status = .authed ∧
            ((r.step C (.command conn env)).conns other).LoggedOn C ∧
            ((r.step C (.command conn env)).conns other).safelogin = entry.safelogin ∧
            ((r.step C (.command conn env)).conns other).K = entry.key ∧
            ((r.step C (.command conn env)).conns other).accountId = entry.accountId := by
          intro hmem
          obtain ⟨other, hauthed, hlogged, hlogin, hkey, hid⟩ := h.cached entry hmem
          refine ⟨other, ?_⟩
          by_cases heq : other = conn
          · subst heq
            have hstill : AuthSocket.StillLoggedOn C (r.conns other)
                ((r.conns other).command C env r.keyCache).1 :=
              AuthSocket.command_loggedOn hauthed hlogged
            rw [hsame]
            -- an authed connection keeps its account and its key through its own commands
            exact ⟨hstill.status, hstill.loggedOn, hstill.safelogin.trans hlogin,
              hstill.key.trans hkey, hstill.accountId.trans hid⟩
          · rw [hother heq]
            exact ⟨hauthed, hlogged, hlogin, hkey, hid⟩
        have hmem : entry ∈ ((r.conns conn).command C env r.keyCache).2 := hentry
        rcases hstep.cached with heq | ⟨hauthed, hlogged, heq⟩
        · exact hold (heq ▸ hmem)
        · rw [heq] at hmem
          rcases List.mem_cons.mp hmem with rfl | hmem
          · refine ⟨conn, ?_⟩
            rw [hsame]
            exact ⟨hauthed, hlogged, rfl, rfl, rfl⟩
          · exact hold hmem

variable (C) in
/-- An event leads no connection back to `STATUS_CHALLENGE`. -/
def StaysBegun (r : LoginServer) (event : LoginEvent) : Prop :=
  ∀ conn, (r.conns conn).status ≠ .challenge → ((r.step C event).conns conn).status ≠ .challenge

theorem staysBegun (r : LoginServer) (event : LoginEvent) : r.StaysBegun C event := by
  intro other hother
  cases event with
  | received conn bytes =>
      show (Function.update r.conns conn _ other).status ≠ .challenge
      by_cases heq : other = conn
      · subst heq
        rw [Function.update_self]
        exact hother
      · rw [Function.update_of_ne heq]
        exact hother
  | command conn env =>
      show (Function.update r.conns conn _ other).status ≠ .challenge
      by_cases heq : other = conn
      · subst heq
        rw [Function.update_self]
        exact AuthSocket.command_status hother
      · rw [Function.update_of_ne heq]
        exact hother

variable (C) in
/-- What the protocol promises of all connections: each is safe, a cached key is that of a connection
that has logged on under its login, and no event has led a connection back to its challenge. -/
def AllSafe (addresses : ℕ → Bytes) (events : List LoginEvent) : Prop :=
  let r := Lib.run (step C) (start addresses) events
  (∀ conn, (r.conns conn).Safe C r.keyCache) ∧
    (∀ entry ∈ r.keyCache, ∃ conn, (r.conns conn).LoggedOn C ∧
      (r.conns conn).safelogin = entry.safelogin ∧ (r.conns conn).K = entry.key ∧
      (r.conns conn).accountId = entry.accountId) ∧
    Lib.Along (StaysBegun C) (step C) (start addresses) events

end LoginServer

open LoginServer (step start MemoryOk AllSafe)

/-- The login protocol is safe in every run in which the comparison of `M1` never goes on into other
memory than zeros. -/
theorem run_safe (addresses : ℕ → Bytes) (events : List LoginEvent)
    (hm : Lib.Along (MemoryOk C) (step C) (start addresses) events) :
    AllSafe C addresses events := by
  have hinv : (Lib.run (step C) (start addresses) events).Inv C :=
    Lib.run_invariant (LoginServer.Inv C) (fun _ _ hm h => LoginServer.inv_step h hm)
      (LoginServer.inv_start addresses) hm
  refine ⟨fun conn => (hinv.conns conn).safe, fun entry hentry => ?_,
    Lib.along_of_forall LoginServer.staysBegun _ _⟩
  obtain ⟨conn, -, hlogged⟩ := hinv.cached entry hentry
  exact ⟨conn, hlogged⟩

section Logon

/-- A hash that gives the same digest for everything. -/
def constHash (digest : Bytes) (h : digest.length = 20) : Crypto where
  sha1 _ := digest
  sha1_length _ := h
  modExp _ _ _ := 1
  generateToken _ _ := 0

/-- A digest of twenty bytes, and one whose high byte is zero. -/
def fullDigest : Bytes := List.replicate 20 1
def shortDigest : Bytes := List.replicate 19 1 ++ [0]

/-- One account without a second factor, and a 5 in the memory behind `M`. -/
def logonEnv : AuthEnv where
  escapeString := id
  ipBanned := false
  recentLogins := none
  account := fun _ => some ⟨0, 7, 0, [], ⟨64, 1⟩, ⟨64, 1⟩, [], true, 0, 0, 0, 1⟩
  negativeCoins := fun _ => false
  accountBanned := fun _ => none
  twofactorAllowed := fun _ => none
  geoChanged := false
  geoPinWritten := false
  networkCN := false
  reqEmailVerification := false
  reqEmailSince := 0
  forcePinAccountRank := 1
  strictVersionCheck := false
  minRealmListDelay := 1
  findBuildInfo := fun _ => some ⟨[], []⟩
  patchFile := fun _ => none
  patchSize := 0
  patchHandlerOpens := true
  proxyPassIp := false
  proxyHeader := fun _ => none
  now := 0
  randS := 1
  randB := 1
  randGridSeed := 0
  randSalt := 0
  randReconnect := 1
  behindM := [5]
  behindHash := []
  behindClientHash := []

/-- A logon challenge for the account `A`. -/
def challengePacket : Bytes := [0, 0, 31, 0] ++ List.replicate 29 0 ++ [1, 65]

/-- A logon proof with this `M1`. -/
def proofPacket (m1 : Bytes) : Bytes :=
  [1, 2] ++ List.replicate 31 0 ++ m1 ++ List.replicate 20 0 ++ [0, 0]

/-- A logon with this `M1`. -/
def logonEvents (m1 : Bytes) : List LoginEvent :=
  [.received 0 challengePacket, .command 0 logonEnv, .received 0 (proofPacket m1),
    .command 0 logonEnv]

theorem run_safe_fullDigest :
    AllSafe (constHash fullDigest (by decide)) (fun _ => []) (logonEvents fullDigest) := by
  have hm : ∀ r event, MemoryOk (constHash fullDigest (by decide)) r event := by
    intro r event
    cases event with
    | received conn bytes => trivial
    | command conn env =>
        intro c _ _ lp pin _
        show ZerosBehind (setBinary fullDigest) 20 env.behindM
        have hlength : (asByteArray (setBinary fullDigest)).length = 20 := by decide +kernel
        unfold ZerosBehind
        rw [hlength]
        rfl
  exact run_safe _ _ _ (Lib.along_of_forall hm _ _)

/-- With a digest whose high byte is zero a client is authed that sends the byte behind it in memory
in its place, and not the server's `M`. -/
theorem run_unsafe_shortDigest :
    ¬AllSafe (constHash shortDigest (by decide)) (fun _ => [])
      (logonEvents (List.replicate 19 1 ++ [5])) := by
  intro hsafe
  have hend : let c := (Lib.run (step (constHash shortDigest (by decide))) (start fun _ => [])
      (logonEvents (List.replicate 19 1 ++ [5]))).conns 0
      c.status = .authed ∧ c.proof = some (.logon (AuthSocket.parseLogonProof
        (proofPacket (List.replicate 19 1 ++ [5]))) none ⟨0, [], []⟩) := by
    decide +kernel
  obtain ⟨hauthed, hproof⟩ := hend
  rcases (hsafe.1 0).authed hauthed with ⟨row, lp, pin, env, -, hlp, hm, -⟩ | ⟨entry, lp, -, hlp, -⟩
  · rw [hproof] at hlp
    have hsame := (Proof.logon.inj (Option.some.inj hlp)).1
    rw [← hsame] at hm
    have hdigest : (AuthSocket.parseLogonProof
      (proofPacket (List.replicate 19 1 ++ [5]))).m1 = shortDigest := hm
    revert hdigest
    decide
  · rw [hproof] at hlp
    cases hlp

end Logon

end TwowCore.Realmd
